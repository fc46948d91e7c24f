import ContractAbi.Descriptor
import ContractAbi.Proofs.Except
import ContractAbi.Proofs.Occurrences

/-!
# Entries that should be single

Events and errors should differ in their names, and there should be one constructor, one fallback
and one receive at most. How many entries there are of a kind, and of a name where the kind has
names, decides everything that is told about them: what a look-up answers, whether a name is listed
and whether it is reported. Main statement: `Descriptor.lookups_agree`.
-/

namespace ContractAbi

/-- Whether a look-up tells how many there are of what it looks for: by the error `missing` that
there is none, by the only one that there is one, and by the error `repeated` that there are
several. -/
structure Answers {α : Type} (result : Except AbiError α) (found : List α)
    (missing repeated : AbiError) : Prop where
  none : result = .error missing ↔ found.length = 0
  one : ∀ a, result = .ok a ↔ found = [a]
  several : result = .error repeated ↔ 2 ≤ found.length

namespace Answers

variable {α β : Type} {result : Except AbiError α} {found : List α} {missing repeated : AbiError}

/-- The three answers exclude each other, so it is enough that each is given where it should be. -/
theorem of_cases (hne : missing ≠ repeated) (hnone : found = [] → result = .error missing)
    (hone : ∀ a, found = [a] → result = .ok a)
    (hseveral : 2 ≤ found.length → result = .error repeated) :
    Answers result found missing repeated := by
  match found with
  | [] =>
    obtain rfl := hnone rfl
    exact ⟨by simp, by simp, by simpa using hne⟩
  | [a] =>
    obtain rfl := hone a rfl
    exact ⟨by simp, by simp, by simp⟩
  | a :: b :: rest =>
    obtain rfl := hseveral (by simp)
    exact ⟨by simpa using hne.symm, by simp, by simp⟩

/-- Where something is found, it alone decides the answer. -/
theorem eq_of_ne_zero {result' : Except AbiError α} {missing' : AbiError}
    (h : Answers result found missing repeated) (h' : Answers result' found missing' repeated)
    (hfound : found.length ≠ 0) : result = result' := by
  match found with
  | [a] => rw [(h.one a).2 rfl, (h'.one a).2 rfl]
  | a :: b :: rest => rw [h.several.2 (by simp), h'.several.2 (by simp)]

/-- The answers of a look-up that wraps what it finds. -/
theorem map (g : α → β) (h : Answers result found missing repeated) :
    Answers (result.map g) (found.map g) missing repeated := by
  cases result with
  | error e =>
    refine ⟨?_, ?_, ?_⟩
    · simpa [Except.map] using h.none
    · intro b
      refine iff_of_false nofun ?_
      intro hb
      obtain ⟨a, rfl, rfl⟩ := List.map_eq_singleton_iff.1 hb
      cases (h.one a).2 rfl
    · simpa [Except.map] using h.several
  | ok a =>
    obtain rfl := (h.one a).1 rfl
    refine ⟨by simp [Except.map], ?_, by simp [Except.map]⟩
    intro b
    simp [Except.map]

end Answers

/-! ### Kinds and names -/

namespace Entry

/-- Whether an entry is of a kind and has a name. -/
def isNamed (kind : EntryKind) (name : String) (e : Entry) : Bool :=
  e.kind = kind ∧ e.name? = some name

/-- Functions, events and errors have names, and the other entries have none. -/
theorem name?_eq_none_iff {e : Entry} :
    e.name? = none ↔ e.kind = .constructor ∨ e.kind = .fallback ∨ e.kind = .receive := by
  cases e <;> simp [name?, kind]

end Entry

namespace Descriptor

/-- The entries of a kind that have a name, in order. -/
def named (d : Descriptor) (kind : EntryKind) (name : String) : List Entry :=
  d.entries.filter (Entry.isNamed kind name)

theorem mem_ofKind {d : Descriptor} {kind : EntryKind} {e : Entry} :
    e ∈ d.ofKind kind ↔ e ∈ d.entries ∧ e.kind = kind := by
  simp [ofKind]

theorem mem_named {d : Descriptor} {kind : EntryKind} {name : String} {e : Entry} :
    e ∈ d.named kind name ↔ e ∈ d.entries ∧ e.kind = kind ∧ e.name? = some name := by
  simp [named, Entry.isNamed]

/-! ### Looking an entry up -/

/-- A look-up answers by what is left of the entries of the kind. -/
theorem answers_unique {d : Descriptor} {kind : EntryKind} {name : String} {found : List Entry}
    {repeated : AbiError}
    (hfound : (d.ofKind kind).filter (fun e => e.name?.all (· = name)) = found)
    (hne : .entryNotFound kind name ≠ repeated)
    (hrepeated : ∀ first ∈ found,
      (if first.name?.isNone then AbiError.duplicateEntry kind else .duplicateName kind name) =
        repeated) :
    Answers (d.unique kind name) found (.entryNotFound kind name) repeated := by
  rw [unique, hfound]
  apply Answers.of_cases hne
  · rintro rfl
    rfl
  · rintro e rfl
    rfl
  · intro hlength
    match found with
    | first :: second :: rest =>
      rw [← hrepeated first List.mem_cons_self]
      show (if first.name?.isNone then throw _ else throw _) = _
      split <;> rfl

theorem answers_unique_of_named {d : Descriptor} {kind : EntryKind} {name : String}
    (hkind : kind = .event ∨ kind = .error) :
    Answers (d.unique kind name) (d.named kind name) (.entryNotFound kind name)
      (.duplicateName kind name) := by
  have hsome : ∀ e : Entry, e.kind = kind → e.name? ≠ none := by
    rintro e rfl hnone
    have := Entry.name?_eq_none_iff.1 hnone
    rcases hkind with h | h <;> simp [h] at this
  refine answers_unique ?_ nofun ?_
  · rw [ofKind, named, List.filter_filter]
    apply List.filter_congr
    intro e _
    by_cases he : e.kind = kind
    · obtain ⟨n, hn⟩ := Option.ne_none_iff_exists'.1 (hsome e he)
      simp [Entry.isNamed, he, hn]
    · simp [Entry.isNamed, he]
  · intro first hfirst
    rw [if_neg]
    rw [(mem_named.1 hfirst).2.2]
    exact Bool.false_ne_true

theorem answers_unique_of_nameless {d : Descriptor} {kind : EntryKind} {name : String}
    (hkind : kind = .constructor ∨ kind = .fallback ∨ kind = .receive) :
    Answers (d.unique kind name) (d.ofKind kind) (.entryNotFound kind name)
      (.duplicateEntry kind) := by
  have hnone : ∀ e ∈ d.ofKind kind, e.name? = none := by
    intro e he
    obtain rfl := (mem_ofKind.1 he).2
    exact Entry.name?_eq_none_iff.2 hkind
  refine answers_unique ?_ nofun ?_
  · apply List.filter_eq_self.2
    intro e he
    rw [hnone e he]
    rfl
  · intro first hfirst
    rw [hnone first hfirst]
    rfl

theorem lookup_eq_of_ne {d : Descriptor} {kind : EntryKind} (h : kind ≠ .function)
    (name : String) : d.lookup kind name = (d.unique kind name).map .entry :=
  if_neg h

/-- What a look-up for the only entry finds is of the kind. -/
theorem mem_of_unique {d : Descriptor} {kind : EntryKind} {name : String} {e : Entry}
    (h : d.unique kind name = .ok e) : e ∈ d.ofKind kind := by
  rw [unique] at h
  split at h
  · cases h
  · next first hfound =>
    obtain rfl := Except.pure_eq_ok_iff.1 h
    have hmem : first ∈ [first] := List.mem_singleton_self first
    rw [← hfound] at hmem
    exact List.mem_of_mem_filter hmem
  · split at h <;> cases h

theorem map_event (d : Descriptor) (name : String) :
    (d.event name).map .event = d.unique .event name := by
  rw [event]
  cases hunique : d.unique .event name with
  | error e => rfl
  | ok e =>
    have hkind := (mem_ofKind.1 (mem_of_unique hunique)).2
    cases e with
    | event => rfl
    | _ => cases hkind

theorem map_error (d : Descriptor) (name : String) :
    (d.error name).map .error = d.unique .error name := by
  rw [error]
  cases hunique : d.unique .error name with
  | error e => rfl
  | ok e =>
    have hkind := (mem_ofKind.1 (mem_of_unique hunique)).2
    cases e with
    | error => rfl
    | _ => cases hkind

/-! ### Listing names -/

theorem mem_namesOf {d : Descriptor} {kind : EntryKind} {allowed : Option (List Mutability)}
    {name : String} :
    name ∈ d.namesOf kind allowed ↔ ∃ e ∈ d.named kind name, admits allowed e := by
  simp only [namesOf, mem_firstOccurrences, List.mem_filterMap, List.mem_filter, mem_ofKind,
    mem_named]
  grind

/-- Without a restriction all names are listed. -/
theorem mem_namesOf_none {d : Descriptor} {kind : EntryKind} {name : String} :
    name ∈ d.namesOf kind none ↔ (d.named kind name).length ≠ 0 := by
  have hadmits : ∀ e, admits none e = true := by
    intro e
    cases e <;> rfl
  rw [mem_namesOf, ← Nat.pos_iff_ne_zero, List.length_pos_iff_exists_mem]
  simp [hadmits]

/-! ### Reporting repeated names -/

theorem uniqueKey?_eq_some_iff {e : Entry} {kind : EntryKind} {name : String} :
    uniqueKey? e = some (kind, name) ↔
      (kind = .event ∨ kind = .error) ∧ e.isNamed kind name = true := by
  cases e <;> simp [uniqueKey?, Entry.isNamed, Entry.name?, Entry.kind] <;> grind

/-- The kinds and names that are reported, in order. -/
def repeatedKeys (d : Descriptor) : List (EntryKind × String) :=
  repeatedItems (d.entries.filterMap uniqueKey?)

theorem mem_repeatedKeys {d : Descriptor} {kind : EntryKind} {name : String} :
    (kind, name) ∈ d.repeatedKeys ↔
      (kind = .event ∨ kind = .error) ∧ 2 ≤ (d.named kind name).length := by
  rw [repeatedKeys, mem_repeatedItems, named, ← List.countP_eq_length_filter]
  by_cases hkind : kind = .event ∨ kind = .error
  · rw [and_iff_right hkind]
    have hkey : ∀ e ∈ d.entries,
        decide (uniqueKey? e = some (kind, name)) = true ↔ e.isNamed kind name = true := by
      intro e _
      rw [decide_eq_true_iff, uniqueKey?_eq_some_iff]
      exact and_iff_right hkind
    rw [List.countP_congr hkey]
  · have hkey : ∀ e ∈ d.entries, ¬decide (uniqueKey? e = some (kind, name)) = true := by
      intro e _
      rw [decide_eq_true_iff, uniqueKey?_eq_some_iff]
      exact fun h => hkind h.1
    rw [List.countP_eq_zero.2 hkey]
    simp [hkind]

/-- A name is reported in its turn: by where it is declared for the second time. -/
theorem pairwise_repeatedKeys (d : Descriptor) :
    d.repeatedKeys.Pairwise fun x y =>
      d.entries.findIdxNth (Entry.isNamed x.1 x.2) 1 <
        d.entries.findIdxNth (Entry.isNamed y.1 y.2) 1 := by
  refine (pairwise_repeatedItems uniqueKey? d.entries).imp_of_mem ?_
  have hkey : ∀ key ∈ d.repeatedKeys,
      (fun e => decide (uniqueKey? e = some key)) = Entry.isNamed key.1 key.2 := by
    intro key hmem
    funext e
    rw [Bool.eq_iff_iff, decide_eq_true_iff, uniqueKey?_eq_some_iff]
    exact and_iff_right (mem_repeatedKeys.1 hmem).1
  intro x y hx hy h
  rwa [hkey x hx, hkey y hy] at h

/-! ### The first entry of a kind -/

theorem findSome?_eq_none_iff {α : Type} {d : Descriptor} {kind : EntryKind}
    {f : Entry → Option α} (hf : ∀ e : Entry, f e = none ↔ e.kind ≠ kind) :
    d.entries.findSome? f = none ↔ (d.ofKind kind).length = 0 := by
  rw [List.findSome?_eq_none_iff, List.length_eq_zero_iff, ofKind, List.filter_eq_nil_iff]
  simp only [hf, decide_eq_true_iff, Ne]

/-! ### Main statement -/

/-- All that is told about entries that should be single goes by how many of them there are. -/
theorem lookups_agree (d : Descriptor) :
    (∀ kind name, kind = .event ∨ kind = .error →
      Answers (d.lookup kind name) ((d.named kind name).map .entry) (.entryNotFound kind name)
        (.duplicateName kind name) ∧
      (name ∈ d.namesOf kind none ↔ (d.named kind name).length ≠ 0)) ∧
    (∀ name,
      Answers ((d.event name).map .event) (d.named .event name) (.entryNotFound .event name)
        (.duplicateName .event name) ∧
      Answers ((d.error name).map .error) (d.named .error name) (.entryNotFound .error name)
        (.duplicateName .error name)) ∧
    (∃ reported : List (EntryKind × String),
      d.duplicates = reported.map (fun key => .duplicateName key.1 key.2) ∧ reported.Nodup ∧
      (∀ kind name, (kind, name) ∈ reported ↔
        (kind = .event ∨ kind = .error) ∧ 2 ≤ (d.named kind name).length) ∧
      reported.Pairwise fun x y =>
        d.entries.findIdxNth (Entry.isNamed x.1 x.2) 1 <
          d.entries.findIdxNth (Entry.isNamed y.1 y.2) 1) ∧
    (∀ kind, kind = .constructor ∨ kind = .fallback ∨ kind = .receive →
      (∀ name, Answers (d.lookup kind name) ((d.ofKind kind).map .entry)
        (.entryNotFound kind name) (.duplicateEntry kind)) ∧
      ((d.ofKind kind).length ≠ 0 → ∀ name name', d.lookup kind name = d.lookup kind name')) ∧
    (d.constructor? = none ↔ (d.ofKind .constructor).length = 0) ∧
    (d.fallback? = none ↔ (d.ofKind .fallback).length = 0) ∧
    (d.receive? = none ↔ (d.ofKind .receive).length = 0) := by
  refine ⟨?_, ?_, ⟨d.repeatedKeys, rfl, nodup_repeatedItems _, ?_, d.pairwise_repeatedKeys⟩, ?_,
    ?_, ?_, ?_⟩
  · intro kind name hkind
    have hne : kind ≠ .function := by rcases hkind with rfl | rfl <;> decide
    refine ⟨?_, mem_namesOf_none⟩
    rw [lookup_eq_of_ne hne]
    exact (answers_unique_of_named hkind).map _
  · intro name
    rw [map_event, map_error]
    exact ⟨answers_unique_of_named (.inl rfl), answers_unique_of_named (.inr rfl)⟩
  · intro kind name
    exact mem_repeatedKeys
  · intro kind hkind
    have hne : kind ≠ .function := by rcases hkind with rfl | rfl | rfl <;> decide
    have hanswers : ∀ name, Answers (d.lookup kind name) ((d.ofKind kind).map .entry)
        (.entryNotFound kind name) (.duplicateEntry kind) := by
      intro name
      rw [lookup_eq_of_ne hne]
      exact (answers_unique_of_nameless hkind).map _
    refine ⟨hanswers, ?_⟩
    intro hsome name name'
    exact (hanswers name).eq_of_ne_zero (hanswers name') (by simpa using hsome)
  · exact findSome?_eq_none_iff fun e => by cases e <;> simp [Entry.kind]
  · exact findSome?_eq_none_iff fun e => by cases e <;> simp [Entry.kind]
  · exact findSome?_eq_none_iff fun e => by cases e <;> simp [Entry.kind]

/-- Two events and an error of one name, whose second event comes last, and two constructors. -/
theorem lookups_agree_of_repeated :
    let ping : Entry := .event ⟨"Ping", [], false⟩
    let pong : Entry := .event ⟨"Pong", [], true⟩
    let d : Descriptor := ⟨[ping, pong, .error ⟨"Ping", []⟩, pong, .constructor ⟨[], .payable⟩,
      ping, .constructor ⟨[], .nonpayable⟩, .receive .payable]⟩
    d.lookup .event "Ping" = .error (.duplicateName .event "Ping") ∧
    d.lookup .error "Ping" = .ok (.entry (.error ⟨"Ping", []⟩)) ∧
    (d.error "Pong").map Entry.error = .error (.entryNotFound .error "Pong") ∧
    "Pong" ∉ d.namesOf .error none ∧
    (∃ reported : List (EntryKind × String),
      d.duplicates = reported.map (fun key => .duplicateName key.1 key.2) ∧
      (.event, "Ping") ∈ reported ∧ (.event, "Pong") ∈ reported ∧ (.error, "Ping") ∉ reported) ∧
    d.lookup .constructor "x" = .error (.duplicateEntry .constructor) ∧
    d.lookup .receive "x" = .ok (.entry (.receive .payable)) ∧ d.fallback? = none := by
  intro ping pong d
  obtain ⟨hnamed, haccess, ⟨reported, hreported, -, hmem, -⟩, hnameless, -, hfallback, -⟩ :=
    lookups_agree d
  refine ⟨(hnamed .event "Ping" (.inl rfl)).1.several.2 (by decide),
    ((hnamed .error "Ping" (.inr rfl)).1.one _).2 rfl,
    (haccess "Pong").2.none.2 (by decide),
    mt (hnamed .error "Pong" (.inr rfl)).2.1 (by decide),
    ⟨reported, hreported, (hmem _ _).2 (by decide), (hmem _ _).2 (by decide),
      mt (hmem _ _).1 (by decide)⟩,
    ((hnameless .constructor (.inl rfl)).1 "x").several.2 (by decide),
    (((hnameless .receive (.inr (.inr rfl))).1 "x").one _).2 rfl, hfallback.2 (by decide)⟩

/-- The error for a constructor that is missing repeats the name that was asked for. -/
theorem lookup_nameless_ne :
    (Descriptor.mk []).lookup .constructor "" ≠ (Descriptor.mk []).lookup .constructor "x" := by
  intro h
  obtain ⟨-, hname⟩ := AbiError.entryNotFound.inj (Except.error.inj h)
  exact absurd hname (by decide)

end Descriptor

end ContractAbi
