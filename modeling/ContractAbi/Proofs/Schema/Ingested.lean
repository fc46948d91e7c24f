import ContractAbi.Proofs.Json.Depth
import ContractAbi.Proofs.Schema.RoundTrip

/-!
# What is read conforms

Reading drops what an interface need not say and fills in what it leaves out. What comes of it
passes the checks once more and is nested no more deeply than what was read, so its own written
form can be read. Main statement: `Descriptor.ofJsonText_toJsonText_sublist`.
-/

namespace ContractAbi

/-! ### The extent of a parameter -/

/-- A parameter is nested two levels more deeply than its components. -/
theorem Parameter.depth_toJson_le {p : Parameter} {n : Nat}
    (h : ∀ ps ∈ p.components, Json.depthOfItems (toJsonList ps) < n) : p.toJson.depth ≤ n + 1 := by
  obtain ⟨type, name, indexed, internalType, components⟩ := p
  cases components with
  | none =>
    rw [depth_toJson rfl]
    omega
  | some ps =>
    have hps : Json.depthOfItems (toJsonList ps) < n := h ps rfl
    cases indexed <;> cases internalType <;>
      simp [toJson, Json.depth, Json.depthOfMembers] <;>
      omega

namespace Schema

/-- Whether the components read so far have less than `n` levels. -/
def ParameterDraft.Within (n : Nat) (d : ParameterDraft) : Prop :=
  ∀ ps ∈ d.components, Json.depthOfItems (Parameter.toJsonList ps) < n

/-- Whether a parameter or components that are read from a value are nested no more deeply. -/
def Bounds (v : Json) : Prop :=
  (∀ p, parameter v = .ok p → p.toJson.depth ≤ v.depth) ∧
    ∀ ps, components v = .ok (some ps) → Json.depthOfItems (Parameter.toJsonList ps) < v.depth

theorem depth_of_parameterList {items : List Json} {ps : List Parameter}
    (hitems : ∀ item ∈ items, Bounds item) (h : parameterList items = .ok ps) :
    Json.depthOfItems (Parameter.toJsonList ps) ≤ Json.depthOfItems items := by
  induction items generalizing ps with
  | nil =>
    obtain rfl := Except.pure_eq_ok_iff.1 h
    exact Nat.le_refl _
  | cons item items ih =>
    rw [List.forall_mem_cons] at hitems
    obtain ⟨p, hp, h⟩ := Except.bind_eq_ok_iff.1 h
    obtain ⟨qs, hqs, h⟩ := Except.bind_eq_ok_iff.1 h
    obtain rfl := Except.pure_eq_ok_iff.1 h
    have hfirst := hitems.1.1 p hp
    have hrest := ih hitems.2 hqs
    rw [Parameter.toJsonList, Json.depthOfItems, Json.depthOfItems]
    omega

theorem within_of_parameterMembers {members : Json.Members} {d d' : ParameterDraft} {n : Nat}
    (hmembers : ∀ member ∈ members, Bounds member.2 ∧ member.2.depth ≤ n) (hd : d.Within n)
    (h : parameterMembers d members = .ok d') : d'.Within n := by
  induction members generalizing d with
  | nil =>
    obtain rfl := Except.pure_eq_ok_iff.1 h
    exact hd
  | cons member members ih =>
    obtain ⟨name, v⟩ := member
    obtain ⟨⟨hv, hn⟩, hrest⟩ := List.forall_mem_cons.1 hmembers
    rw [parameterMembers.eq_def] at h
    dsimp only at h
    -- only the member with the components changes them
    split at h
    case h_5 => -- the components
      obtain ⟨parts, hparts, h⟩ := Except.bind_eq_ok_iff.1 h
      refine ih hrest ?_ h
      rintro ps rfl
      exact Nat.lt_of_lt_of_le (hv.2 ps hparts) hn
    case h_6 => exact ih hrest hd h -- a name that says nothing
    all_goals
      obtain ⟨_, -, h⟩ := Except.bind_eq_ok_iff.1 h
      refine ih hrest ?_ h
      exact hd

theorem bounds_object {members : Json.Members} (h : ∀ member ∈ members, Bounds member.2) :
    Bounds (.object members) := by
  have hdepth := Json.depthOfMembers_le_iff.1 (Nat.le_refl (Json.depthOfMembers members))
  refine ⟨?_, nofun⟩
  intro p hp
  rw [parameter_object] at hp
  obtain ⟨d, hd, hp⟩ := Except.bind_eq_ok_iff.1 hp
  have hempty : ParameterDraft.empty.Within (Json.depthOfMembers members) := nofun
  have hwithin : d.Within (Json.depthOfMembers members) :=
    within_of_parameterMembers (fun m hm => ⟨h m hm, hdepth m hm⟩) hempty hd
  rw [ParameterDraft.finish] at hp
  split at hp
  · obtain rfl := Except.pure_eq_ok_iff.1 hp
    exact Parameter.depth_toJson_le hwithin
  · exact absurd hp Except.throw_ne_ok

/-- The components in the array form of a parameter. -/
theorem components_of_parameter_array {items : List Json} {p : Parameter} {ps : List Parameter}
    (h : parameter (.array items) = .ok p) (hps : ps ∈ p.components) :
    ∃ parts ∈ items, components parts = .ok (some ps) := by
  rcases items with _ | ⟨type, _ | ⟨name, _ | ⟨indexed, _ | ⟨internalType, _ | ⟨parts, rest⟩⟩⟩⟩⟩
  case nil => exact absurd h Except.throw_ne_ok
  all_goals
    obtain ⟨_, -, h⟩ := Except.bind_eq_ok_iff.1 h
    obtain ⟨_, -, h⟩ := Except.bind_eq_ok_iff.1 h
    obtain ⟨_, -, h⟩ := Except.bind_eq_ok_iff.1 h
    obtain ⟨_, -, h⟩ := Except.bind_eq_ok_iff.1 h
    obtain ⟨read, hread, h⟩ := Except.bind_eq_ok_iff.1 h
    dsimp only at h
    split at h
    case isTrue => exact absurd h Except.throw_bind_ne_ok
    obtain rfl := Except.pure_eq_ok_iff.1 h
    obtain rfl : read = some ps := hps
  -- an array without a fifth element has no components
  case cons.nil => cases hread
  case cons.cons.nil => cases hread
  case cons.cons.cons.nil => cases hread
  case cons.cons.cons.cons.nil => cases hread
  case cons.cons.cons.cons.cons => exact ⟨parts, by simp, hread⟩

theorem bounds_array {items : List Json} (h : ∀ item ∈ items, Bounds item) :
    Bounds (.array items) := by
  constructor
  · intro p hp
    apply Parameter.depth_toJson_le
    intro ps hps
    obtain ⟨parts, hparts, hread⟩ := components_of_parameter_array hp hps
    exact Nat.lt_of_lt_of_le ((h parts hparts).2 ps hread)
      (Json.depthOfItems_le_iff.1 (Nat.le_refl _) parts hparts)
  · intro ps hps
    obtain ⟨qs, hqs, hps⟩ := Except.bind_eq_ok_iff.1 hps
    obtain rfl := Option.some.inj (Except.pure_eq_ok_iff.1 hps)
    exact Nat.lt_succ_of_le (depth_of_parameterList h hqs)

mutual

/-- What is read of parameters is nested no more deeply than the value that it is read from. -/
theorem bounds : ∀ v : Json, Bounds v
  | .null => ⟨nofun, nofun⟩
  | .bool _ => ⟨nofun, nofun⟩
  | .number _ => ⟨nofun, nofun⟩
  | .string _ => ⟨nofun, nofun⟩
  | .array items => bounds_array (bounds_items items)
  | .object members => bounds_object (bounds_members members)
termination_by structural v => v

theorem bounds_items : ∀ items : List Json, ∀ item ∈ items, Bounds item
  | [] => by simp
  | item :: items => List.forall_mem_cons.2 ⟨bounds item, bounds_items items⟩
termination_by structural items => items

theorem bounds_members : ∀ members : Json.Members, ∀ member ∈ members, Bounds member.2
  | [] => by simp
  | (_, v) :: members => List.forall_mem_cons.2 ⟨bounds v, bounds_members members⟩
termination_by structural members => members

end

/-! ### The members of an entry -/

/-- Whether the lists of parameters read so far have less than `n` levels. -/
def EntryDraft.Within (n : Nat) (d : EntryDraft) : Prop :=
  (∀ ps ∈ d.inputs, Json.depthOfItems (Parameter.toJsonList ps) < n) ∧
    ∀ ps ∈ d.outputs, Json.depthOfItems (Parameter.toJsonList ps) < n

theorem optional_parameters (v : Json) : optional parameters v = components v := by
  cases v <;> rfl

theorem depth_of_optional_parameters {v : Json} {o : Option (List Parameter)} {n : Nat}
    (h : optional parameters v = .ok o) (hn : v.depth ≤ n) :
    ∀ ps ∈ o, Json.depthOfItems (Parameter.toJsonList ps) < n := by
  rintro ps rfl
  rw [optional_parameters] at h
  exact Nat.lt_of_lt_of_le ((bounds v).2 ps h) hn

theorem within_of_set {d d' : EntryDraft} {name : String} {v : Json} {n : Nat} (hd : d.Within n)
    (hn : v.depth ≤ n) (h : d.set name v = .ok d') : d'.Within n := by
  rw [EntryDraft.set.eq_def] at h
  split at h
  case h_3 => -- the inputs
    obtain ⟨o, ho, h⟩ := Except.bind_eq_ok_iff.1 h
    obtain rfl := Except.pure_eq_ok_iff.1 h
    exact ⟨depth_of_optional_parameters ho hn, hd.2⟩
  case h_4 => -- the outputs
    obtain ⟨o, ho, h⟩ := Except.bind_eq_ok_iff.1 h
    obtain rfl := Except.pure_eq_ok_iff.1 h
    exact ⟨hd.1, depth_of_optional_parameters ho hn⟩
  case h_9 => -- a name that says nothing
    obtain rfl := Except.pure_eq_ok_iff.1 h
    exact hd
  all_goals
    obtain ⟨o, -, h⟩ := Except.bind_eq_ok_iff.1 h
    obtain rfl := Except.pure_eq_ok_iff.1 h
    exact hd

theorem within_of_setMembers {members : Json.Members} {d d' : EntryDraft} {n : Nat}
    (hd : d.Within n) (hn : Json.depthOfMembers members ≤ n) (h : d.setMembers members = .ok d') :
    d'.Within n := by
  induction members generalizing d with
  | nil =>
    obtain rfl := Except.pure_eq_ok_iff.1 h
    exact hd
  | cons member members ih =>
    obtain ⟨hv, hmembers⟩ := Nat.max_le.1 hn
    obtain ⟨draft, hset, h⟩ := Except.bind_eq_ok_iff.1 h
    exact ih (within_of_set hd hv hset) hmembers h

theorem within_of_setElements {items : List Json} {d d' : EntryDraft} {names : List String}
    {count n : Nat} (hd : d.Within n) (hn : Json.depthOfItems items ≤ n)
    (h : d.setElements count names items = .ok d') : d'.Within n := by
  induction items generalizing d names count with
  | nil =>
    cases names with
    | nil =>
      obtain rfl := Except.pure_eq_ok_iff.1 h
      exact hd
    | cons name names => exact absurd h Except.throw_ne_ok
  | cons item items ih =>
    cases names with
    | nil => exact absurd h Except.throw_ne_ok
    | cons name names =>
      obtain ⟨hv, hitems⟩ := Nat.max_le.1 hn
      obtain ⟨draft, hset, h⟩ := Except.bind_eq_ok_iff.1 h
      exact ih (within_of_set hd hv hset) hitems h

theorem within_of_ofJson {element : Json} {d : EntryDraft} {n : Nat}
    (h : EntryDraft.ofJson element = .ok d) (hn : element.depth ≤ n + 1) : d.Within n := by
  have hempty : EntryDraft.empty.Within n := ⟨nofun, nofun⟩
  cases element with
  | object members => exact within_of_setMembers hempty (Nat.le_of_succ_le_succ hn) h
  | array items => exact within_of_setElements hempty (Nat.le_of_succ_le_succ hn) h
  | _ => exact absurd h Except.throw_ne_ok

/-! ### Entries -/

/-- The entry that members describe, and what was checked of it. -/
inductive EntryDraft.Describes (d : EntryDraft) : Entry → Prop
  | function {name m} : d.requireName = .ok name → Parameter.ConformAll false (d.inputs.getD []) →
      Parameter.ConformAll false (d.outputs.getD []) →
      Describes d (.function ⟨name, d.inputs.getD [], d.outputs.getD [], m⟩)
  | event {name} : d.requireName = .ok name → Parameter.ConformAll true (d.inputs.getD []) →
      Describes d (.event ⟨name, d.inputs.getD [], d.anonymous.getD false⟩)
  | error {name} : d.requireName = .ok name → Parameter.ConformAll false (d.inputs.getD []) →
      Describes d (.error ⟨name, d.inputs.getD []⟩)
  | constructor {m} : d.requirePayability = .ok m →
      Parameter.ConformAll false (d.inputs.getD []) →
      Describes d (.constructor ⟨d.inputs.getD [], m⟩)
  | fallback {m} : d.requirePayability = .ok m → Describes d (.fallback m)
  | receive : Describes d (.receive .payable)

theorem describes_of_finish {d : EntryDraft} {e : Entry} (h : d.finish = .ok e) :
    d.Describes e := by
  rw [EntryDraft.finish] at h
  obtain ⟨_, hinputs, h⟩ := Except.bind_eq_ok_iff.1 h
  rw [checkParameters_eq_ok_iff] at hinputs
  split at h
  · next hkind =>
    obtain ⟨_, houtputs, h⟩ := Except.bind_eq_ok_iff.1 h
    obtain ⟨name, hname, h⟩ := Except.bind_eq_ok_iff.1 h
    obtain ⟨m, -, h⟩ := Except.bind_eq_ok_iff.1 h
    obtain rfl := Except.pure_eq_ok_iff.1 h
    rw [hkind] at hinputs
    exact .function hname hinputs (checkParameters_eq_ok_iff.1 houtputs)
  · next hkind =>
    obtain ⟨name, hname, h⟩ := Except.bind_eq_ok_iff.1 h
    obtain rfl := Except.pure_eq_ok_iff.1 h
    rw [hkind] at hinputs
    exact .event hname hinputs
  · next hkind =>
    obtain ⟨name, hname, h⟩ := Except.bind_eq_ok_iff.1 h
    obtain rfl := Except.pure_eq_ok_iff.1 h
    rw [hkind] at hinputs
    exact .error hname hinputs
  · next hkind =>
    obtain ⟨m, hm, h⟩ := Except.bind_eq_ok_iff.1 h
    obtain rfl := Except.pure_eq_ok_iff.1 h
    rw [hkind] at hinputs
    exact .constructor hm hinputs
  · obtain ⟨m, hm, h⟩ := Except.bind_eq_ok_iff.1 h
    obtain rfl := Except.pure_eq_ok_iff.1 h
    exact .fallback hm
  · split at h
    · exact absurd h Except.throw_bind_ne_ok
    · obtain rfl := Except.pure_eq_ok_iff.1 h
      exact .receive
  · exact absurd h Except.throw_ne_ok

theorem ne_empty_of_requireName {d : EntryDraft} {name : String} (h : d.requireName = .ok name) :
    name ≠ "" := by
  rw [EntryDraft.requireName] at h
  split at h
  · split at h
    · exact absurd h Except.throw_ne_ok
    · next hne =>
      obtain rfl := Except.pure_eq_ok_iff.1 h
      exact hne
  · exact absurd h Except.throw_ne_ok

theorem isReadOnly_of_requirePayability {d : EntryDraft} {m : Mutability}
    (h : d.requirePayability = .ok m) : m.isReadOnly = false := by
  obtain ⟨n, -, h⟩ := Except.bind_eq_ok_iff.1 h
  split at h
  · exact absurd h Except.throw_bind_ne_ok
  · next hread =>
    obtain rfl := Except.pure_eq_ok_iff.1 h
    simpa using hread

theorem EntryDraft.Describes.conforms {d : EntryDraft} {e : Entry} (h : d.Describes e) :
    e.Conforms := by
  cases h with
  | function hname hinputs houtputs => exact ⟨ne_empty_of_requireName hname, hinputs, houtputs⟩
  | event hname hinputs => exact ⟨ne_empty_of_requireName hname, hinputs⟩
  | error hname hinputs => exact ⟨ne_empty_of_requireName hname, hinputs⟩
  | constructor hm hinputs => exact ⟨hinputs, isReadOnly_of_requirePayability hm⟩
  | fallback hm => exact isReadOnly_of_requirePayability hm
  | receive => rfl

/-- An entry has two levels at least, even if its members have none: it writes its lists. -/
theorem EntryDraft.Describes.depth_toJson {d : EntryDraft} {e : Entry} {n : Nat}
    (h : d.Describes e) (hd : d.Within n) (hn : 1 ≤ n) : e.toJson.depth ≤ n + 1 := by
  have hlist : ∀ o : Option (List Parameter),
      (∀ ps ∈ o, Json.depthOfItems (Parameter.toJsonList ps) < n) →
      Json.depthOfItems (Parameter.toJsonList (o.getD [])) < n := by
    intro o ho
    cases o with
    | none => exact hn
    | some ps => exact ho ps rfl
  have hinputs := hlist d.inputs hd.1
  have houtputs := hlist d.outputs hd.2
  cases h with
  | function => exact Entry.depth_toJson_le hinputs houtputs
  | event | error | constructor => exact Entry.depth_toJson_le hinputs hn
  | fallback | receive => exact Entry.depth_toJson_le hn hn

/-- An entry is described by members of the element that it is read from. -/
theorem describes_of_entry {element : Json} {e : Entry} (h : entry element = .ok e) :
    ∃ d, EntryDraft.ofJson element = .ok d ∧ d.Describes e := by
  rw [entry] at h
  split at h
  · exact absurd h Except.throw_bind_ne_ok
  · obtain ⟨d, hd, h⟩ := Except.bind_eq_ok_iff.1 h
    exact ⟨d, hd, describes_of_finish h⟩

theorem conforms_of_entry {element : Json} {e : Entry} (h : entry element = .ok e) :
    e.Conforms := by
  obtain ⟨d, -, hd⟩ := describes_of_entry h
  exact hd.conforms

theorem depth_of_entry {element : Json} {e : Entry} {n : Nat} (h : entry element = .ok e)
    (hdepth : element.depth ≤ n + 1) (hn : 1 ≤ n) : e.toJson.depth ≤ n + 1 := by
  obtain ⟨d, hread, hd⟩ := describes_of_entry h
  exact hd.depth_toJson (within_of_ofJson hread hdepth) hn

end Schema

/-! ### Main statement -/

/-- What is known of the entries of an interface that was read from a text. -/
theorem Descriptor.conforms_of_ofJsonText {text : String} {d : Descriptor}
    (h : ofJsonText text = .ok d) : Schema.NoRepetition d.entries ∧
      ∀ e ∈ d.entries, e.Conforms ∧ e.toJson.depth < Json.maxDepth := by
  rw [ofJsonText] at h
  split at h
  case h_2 => cases h
  case h_1 v hv =>
    obtain ⟨elements, rfl, hread, hsingular⟩ := ofJson_eq_ok_iff.1 h
    have hdepth : Json.depthOfItems elements ≤ 126 :=
      Nat.le_of_succ_le_succ (Json.depth_le_of_parse? hv)
    refine ⟨hsingular, ?_⟩
    intro e he
    obtain ⟨element, hmem, hentry⟩ := Except.exists_of_mem_mapM (Except.mapM_eq_ok_iff.2 hread) he
    have helement := Json.depthOfItems_le_iff.1 hdepth element hmem
    refine ⟨Schema.conforms_of_entry hentry, ?_⟩
    exact Nat.lt_succ_of_le (Schema.depth_of_entry (n := 125) hentry helement (by decide))

/-- An interface of moderate depth reads back exactly if its entries pass the checks. -/
theorem Descriptor.ofJsonText_toJsonText_iff {d : Descriptor}
    (hdepth : d.toJson.depth ≤ Json.maxDepth) :
    ofJsonText d.toJsonText = .ok d ↔
      (∀ e ∈ d.entries, e.Conforms) ∧ Schema.NoRepetition d.entries := by
  constructor
  · intro h
    obtain ⟨hsingular, hentries⟩ := conforms_of_ofJsonText h
    exact ⟨fun e he => (hentries e he).1, hsingular⟩
  · rintro ⟨hentries, hsingular⟩
    exact ofJsonText_toJsonText hentries hsingular hdepth

/-- Entries of an interface that was read are read from their written form as they were, and the
written form is not nested too deeply. -/
theorem Descriptor.ofJsonText_toJsonText_sublist {text : String} {d : Descriptor} {es : List Entry}
    (h : ofJsonText text = .ok d) (hs : es.Sublist d.entries) :
    ofJsonText (toJsonText ⟨es⟩) = .ok ⟨es⟩ ∧ (toJson ⟨es⟩).depth ≤ Json.maxDepth := by
  obtain ⟨hsingular, hentries⟩ := conforms_of_ofJsonText h
  have hdepth : (toJson ⟨es⟩).depth ≤ Json.maxDepth := by
    apply depth_toJson_le (n := 126)
    intro e he
    exact Nat.le_of_lt_succ (hentries e (hs.subset he)).2
  refine ⟨ofJsonText_toJsonText ?_ (hsingular.sublist hs) hdepth, hdepth⟩
  intro e he
  exact (hentries e (hs.subset he)).1

/-- An interface in an older form, of which one entry is left out. -/
theorem Descriptor.ofJsonText_toJsonText_sublist_of_older_form :
    let v : Json := .array [
      .object [("name", .string "f"), ("constant", .bool true), ("inputs", .array [.array [
        .string "tuple[]", .string "a", .bool false, .string "struct S[]",
        .array [.object [("type", .string "uint"), ("components", .null)]]]])],
      .object [("type", .string "receive"), ("inputs", .null)],
      .object [("payable", .bool true), ("type", .string "constructor"), ("name", .null)]]
    let f : Entry := .function
      ⟨"f", [⟨"tuple[]", "a", false, some "struct S[]", some [.plain "uint" ""]⟩], [], .view⟩
    let es : List Entry := [f, .constructor ⟨[], .payable⟩]
    ofJsonText v.pretty = .ok ⟨[f, .receive .payable, .constructor ⟨[], .payable⟩]⟩ ∧
      es.Sublist [f, .receive .payable, .constructor ⟨[], .payable⟩] ∧
      ofJsonText (toJsonText ⟨es⟩) = .ok ⟨es⟩ ∧ (toJson ⟨es⟩).depth ≤ Json.maxDepth := by
  intro v f es
  have hnumber : v.NumberFree := by
    simp [v, Json.NumberFree, Json.NumberFreeItems, Json.NumberFreeMembers]
  have hjson : ofJson v.normal = .ok ⟨[f, .receive .payable, .constructor ⟨[], .payable⟩]⟩ := rfl
  have hread : ofJsonText v.pretty = .ok ⟨[f, .receive .payable, .constructor ⟨[], .payable⟩]⟩ := by
    rw [ofJsonText, Json.parse?_pretty hnumber (by decide)]
    exact hjson
  have hs : es.Sublist [f, .receive .payable, .constructor ⟨[], .payable⟩] := by simp [es]
  exact ⟨hread, hs, Descriptor.ofJsonText_toJsonText_sublist hread hs⟩

end ContractAbi
