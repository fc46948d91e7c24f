import ContractAbi.Proofs.Json.Depth
import ContractAbi.Proofs.Schema.Parameter

/-!
# Interfaces in JSON

An entry that passes the checks is written as an object that reads back as the entry, and so is an
interface whose entries pass and that has no entry of a singular kind twice. Main statement:
`Descriptor.ofJsonText_toJsonText`, for interfaces that are not nested too deeply.
-/

namespace ContractAbi

open Json (normal normalItems normalMembers)

/-- Whether an entry passes the checks: it has a name, its parameters pass, and its mutability is
one that its kind may have. -/
def Entry.Conforms : Entry → Prop
  | .function f =>
    f.name ≠ "" ∧ Parameter.ConformAll false f.inputs ∧ Parameter.ConformAll false f.outputs
  | .event e => e.name ≠ "" ∧ Parameter.ConformAll true e.inputs
  | .error e => e.name ≠ "" ∧ Parameter.ConformAll false e.inputs
  | .constructor c => Parameter.ConformAll false c.inputs ∧ c.mutability.isReadOnly = false
  | .fallback m => m.isReadOnly = false
  | .receive m => m = .payable

namespace Schema

/-! ### Entries -/

theorem optional_parameters_toJsonList (ps : List Parameter) :
    optional parameters (.array (normalItems (Parameter.toJsonList ps))) = .ok (some ps) :=
  Except.bind_eq_ok_iff.2 ⟨ps, parameterList_toJsonList ps, rfl⟩

/-- The members of a written entry. -/
def EntryDraft.ofEntry : Entry → EntryDraft
  | .function f =>
    ⟨some "function", some f.name, some f.inputs, some f.outputs, some f.mutability.text, none,
      none, none⟩
  | .event e => ⟨some "event", some e.name, some e.inputs, none, none, none, none, some e.anonymous⟩
  | .error e => ⟨some "error", some e.name, some e.inputs, none, none, none, none, none⟩
  | .constructor c =>
    ⟨some "constructor", none, some c.inputs, none, some c.mutability.text, none, none, none⟩
  | .fallback m => ⟨some "fallback", none, none, none, some m.text, none, none, none⟩
  | .receive m => ⟨some "receive", none, none, none, some m.text, none, none, none⟩

theorem ofJson_toJson (e : Entry) :
    EntryDraft.ofJson e.toJson.normal = .ok (EntryDraft.ofEntry e) := by
  cases e <;>
    simp only [Entry.toJson, Entry.members, Entry.parametersMember, Entry.mutabilityMember, normal,
      normalMembers, Json.Members.sorted, Json.Members.insert, String.reduceEq, String.reduceLT,
      ↓reduceIte, List.foldl_cons, List.foldl_nil, EntryDraft.ofJson, EntryDraft.setMembers,
      EntryDraft.set, optional_parameters_toJsonList] <;>
    rfl

theorem requireMutability_text {d : EntryDraft} {m : Mutability} (h : d.mutability = some m.text) :
    d.requireMutability = .ok m := by
  rw [EntryDraft.requireMutability, h]
  simp only [Mutability.ofText?_eq_some_iff.2 rfl]
  rfl

theorem requirePayability_text {d : EntryDraft} {m : Mutability} (h : d.mutability = some m.text)
    (hm : m.isReadOnly = false) : d.requirePayability = .ok m := by
  rw [EntryDraft.requirePayability, requireMutability_text h, Except.bind_eq_ok_iff]
  exact ⟨m, rfl, by simp [hm, Except.pure_eq_ok_iff]⟩

theorem requireName_some {d : EntryDraft} {name : String} (h : d.name = some name)
    (hne : name ≠ "") : d.requireName = .ok name := by
  rw [EntryDraft.requireName, h]
  simp only [if_neg hne]
  rfl

theorem finish_ofEntry {e : Entry} (h : e.Conforms) : (EntryDraft.ofEntry e).finish = .ok e := by
  cases e with
  | function f =>
    obtain ⟨hname, hinputs, houtputs⟩ := h
    rw [← checkParameters_eq_ok_iff] at hinputs houtputs
    refine Except.bind_eq_ok_iff.2 ⟨(), hinputs, ?_⟩
    refine Except.bind_eq_ok_iff.2 ⟨(), houtputs, ?_⟩
    refine Except.bind_eq_ok_iff.2 ⟨_, requireName_some rfl hname, ?_⟩
    exact Except.bind_eq_ok_iff.2 ⟨_, requireMutability_text rfl, rfl⟩
  | event e =>
    obtain ⟨hname, hinputs⟩ := h
    rw [← checkParameters_eq_ok_iff] at hinputs
    refine Except.bind_eq_ok_iff.2 ⟨(), hinputs, ?_⟩
    exact Except.bind_eq_ok_iff.2 ⟨_, requireName_some rfl hname, rfl⟩
  | error e =>
    obtain ⟨hname, hinputs⟩ := h
    rw [← checkParameters_eq_ok_iff] at hinputs
    refine Except.bind_eq_ok_iff.2 ⟨(), hinputs, ?_⟩
    exact Except.bind_eq_ok_iff.2 ⟨_, requireName_some rfl hname, rfl⟩
  | constructor c =>
    obtain ⟨hinputs, hm⟩ := h
    rw [← checkParameters_eq_ok_iff] at hinputs
    refine Except.bind_eq_ok_iff.2 ⟨(), hinputs, ?_⟩
    exact Except.bind_eq_ok_iff.2 ⟨_, requirePayability_text rfl hm, rfl⟩
  | fallback m =>
    refine Except.bind_eq_ok_iff.2 ⟨(), rfl, ?_⟩
    exact Except.bind_eq_ok_iff.2 ⟨_, requirePayability_text rfl h, rfl⟩
  | receive m =>
    obtain rfl : m = .payable := h
    rfl

/-- A written entry reads back if it passes the checks. -/
theorem entry_toJson {e : Entry} (h : e.Conforms) : entry e.toJson.normal = .ok e := by
  have hobject : e.toJson.normal.isString = false := rfl
  rw [entry, ofJson_toJson]
  simp only [hobject]
  exact finish_ofEntry h

/-! ### Interfaces -/

/-- Whether no entry of a singular kind follows one of the same kind. -/
def NoRepetition (es : List Entry) : Prop :=
  es.Pairwise fun e later => isSingular later.kind → e.kind ≠ later.kind

/-- A part of a list has no repetition if the list has none. -/
theorem NoRepetition.sublist {es ds : List Entry} (h : NoRepetition ds) (hs : es.Sublist ds) :
    NoRepetition es :=
  List.Pairwise.sublist hs h

/-- Where only constructors are of a singular kind, one of them at most is none that repeats. -/
theorem noRepetition_iff {es : List Entry}
    (h : ∀ e ∈ es, isSingular e.kind → e.kind = .constructor) :
    NoRepetition es ↔ es.countP (·.kind = .constructor) ≤ 1 := by
  induction es with
  | nil => simp [NoRepetition]
  | cons e es ih =>
    rw [List.forall_mem_cons] at h
    rw [NoRepetition, List.pairwise_cons, ← NoRepetition, ih h.2, List.countP_cons]
    by_cases he : e.kind = .constructor
    · have hnone : (∀ later ∈ es, isSingular later.kind → e.kind ≠ later.kind) ↔
          es.countP (·.kind = .constructor) = 0 := by
        rw [List.countP_eq_zero]
        refine forall₂_congr fun later hl => ?_
        have hlater := h.2 later hl
        grind [isSingular]
      rw [hnone, if_pos (by simpa using he)]
      omega
    · have hnone : ∀ later ∈ es, isSingular later.kind → e.kind ≠ later.kind := by
        intro later hl hs hkind
        exact he (hkind.trans (h.2 later hl hs))
      rw [if_neg (by simpa using he)]
      exact and_iff_right hnone

theorem ingestFrom_cons_eq_iff {element : Json} {elements : List Json} {es before : List Entry}
    {index : Nat} :
    ingestFrom index before (element :: elements) = ⟨es, none⟩ ↔
      ∃ e later, entry element = .ok e ∧ (∀ b ∈ before, isSingular e.kind → b.kind ≠ e.kind) ∧
        ingestFrom (index + 1) (e :: before) elements = ⟨later, none⟩ ∧ es = e :: later := by
  have hfree : ∀ e : Entry, (isSingular e.kind && before.any (·.kind = e.kind)) = false ↔
      ∀ b ∈ before, isSingular e.kind → b.kind ≠ e.kind := by
    intro e
    cases isSingular e.kind <;> simp
  rw [ingestFrom]
  constructor
  · intro h
    split at h
    · cases (Ingestion.mk.inj h).2
    · next e he =>
      split at h
      · cases (Ingestion.mk.inj h).2
      · next hsingular =>
        obtain ⟨rfl, hfault⟩ := Ingestion.mk.inj h
        refine ⟨e, _, he, (hfree e).1 (by simpa using hsingular), ?_, rfl⟩
        rw [← hfault]
  · rintro ⟨e, later, he, hsingular, hlater, rfl⟩
    simp only [he, (hfree e).2 hsingular, hlater]
    rfl

/-- Reading goes through exactly if each element is an entry and no entry of a singular kind follows
one of the same kind. -/
theorem ingestFrom_eq_iff {elements : List Json} {es before : List Entry} {index : Nat} :
    ingestFrom index before elements = ⟨es, none⟩ ↔
      List.Forall₂ (fun element e => entry element = .ok e) elements es ∧ NoRepetition es ∧
        ∀ b ∈ before, ∀ later ∈ es, isSingular later.kind → b.kind ≠ later.kind := by
  -- an entry that was read counts among those before from then on
  induction elements generalizing before index es with
  | nil =>
    constructor
    · intro h
      obtain ⟨rfl, -⟩ := Ingestion.mk.inj h
      exact ⟨.nil, .nil, by simp⟩
    · rintro ⟨hread, -, -⟩
      cases hread
      rfl
  | cons element elements ih =>
    rw [ingestFrom_cons_eq_iff]
    simp only [ih, List.forall_mem_cons]
    constructor
    · rintro ⟨e, later, he, hsingular, ⟨hread, hlater, hfirst, hbefore⟩, rfl⟩
      exact ⟨.cons he hread, .cons hfirst hlater,
        fun b hb => List.forall_mem_cons.2 ⟨hsingular b hb, hbefore b hb⟩⟩
    · rintro ⟨@⟨⟩ | @⟨_, e, _, later, he, hread⟩, hsingular, hbefore⟩
      obtain ⟨hfirst, hlater⟩ := List.pairwise_cons.1 hsingular
      exact ⟨e, later, he, fun b hb => hbefore b hb e (by simp),
        ⟨hread, hlater, hfirst, fun b hb l hl => hbefore b hb l (by simp [hl])⟩, rfl⟩

end Schema

/-- An interface is an array of entries, none of which repeats one of a singular kind. -/
theorem Descriptor.ofJson_eq_ok_iff {v : Json} {d : Descriptor} :
    ofJson v = .ok d ↔ ∃ elements, v = .array elements ∧
      List.Forall₂ (fun element e => Schema.entry element = .ok e) elements d.entries ∧
      Schema.NoRepetition d.entries := by
  obtain ⟨es⟩ := d
  have hingest : ofJson v = .ok ⟨es⟩ ↔ Schema.ingest v = ⟨es, none⟩ := by
    rw [ofJson]
    rcases Schema.ingest v with ⟨accepted, _ | fault⟩ <;> simp
  rw [hingest]
  cases v with
  | array elements => simp [Schema.ingest, Schema.ingestFrom_eq_iff]
  | _ => simp [Schema.ingest]

/-! ### The extent of a written interface -/

/-- An entry is nested two levels more deeply than the lists that it writes. -/
theorem Entry.depth_toJson_le {e : Entry} {n : Nat}
    (hinputs : Json.depthOfItems (Parameter.toJsonList e.inputs) < n)
    (houtputs : Json.depthOfItems (Parameter.toJsonList e.outputs) < n) :
    e.toJson.depth ≤ n + 1 := by
  cases e <;>
    simp only [inputs, outputs] at hinputs houtputs <;>
    simp only [toJson, members, parametersMember, mutabilityMember, Json.depth,
      Json.depthOfMembers] <;>
    omega

theorem Descriptor.depth_toJson_le {es : List Entry} {n : Nat} (h : ∀ e ∈ es, e.toJson.depth ≤ n) :
    (toJson ⟨es⟩).depth ≤ n + 1 :=
  Nat.succ_le_succ (Json.depthOfItems_le_iff.2 (List.forall_mem_map.2 h))

/-- Without components there is nothing that could be nested too deeply. -/
theorem Descriptor.depth_toJson_of_components {es : List Entry}
    (h : ∀ e ∈ es, ∀ p ∈ e.inputs ++ e.outputs, p.components = none) :
    (toJson ⟨es⟩).depth ≤ Json.maxDepth := by
  have hentries : (toJson ⟨es⟩).depth ≤ 3 + 1 := by
    apply depth_toJson_le
    intro e he
    have hinputs : ∀ p ∈ e.inputs, p.components = none := fun p hp => h e he p (by simp [hp])
    have houtputs : ∀ p ∈ e.outputs, p.components = none := fun p hp => h e he p (by simp [hp])
    exact Entry.depth_toJson_le (Nat.lt_succ_of_le (Parameter.depthOfItems_toJsonList hinputs))
      (Nat.lt_succ_of_le (Parameter.depthOfItems_toJsonList houtputs))
  exact Nat.le_trans hentries (by decide)

theorem Entry.numberFree_toJson (e : Entry) : e.toJson.NumberFree := by
  cases e <;>
    simp [toJson, members, parametersMember, mutabilityMember, Json.NumberFree,
      Json.NumberFreeMembers, Parameter.numberFreeItems_toJsonList]

theorem Descriptor.numberFree_toJson (d : Descriptor) : d.toJson.NumberFree := by
  have hitems : ∀ es : List Entry, Json.NumberFreeItems (es.map Entry.toJson) := by
    intro es
    induction es with
    | nil => trivial
    | cons e es ih => exact ⟨e.numberFree_toJson, ih⟩
  exact hitems d.entries

/-! ### Main statement -/

/-- A written interface reads back if its entries pass the checks. -/
theorem Descriptor.ofJsonText_toJsonText {d : Descriptor} (h : ∀ e ∈ d.entries, e.Conforms)
    (hsingular : Schema.NoRepetition d.entries) (hdepth : d.toJson.depth ≤ Json.maxDepth) :
    ofJsonText d.toJsonText = .ok d := by
  have hread : List.Forall₂ (fun element e => Schema.entry element = .ok e)
      (normalItems (d.entries.map Entry.toJson)) d.entries := by
    generalize d.entries = es at h
    induction es with
    | nil => exact .nil
    | cons e es ih =>
      rw [List.forall_mem_cons] at h
      exact .cons (Schema.entry_toJson h.1) (ih h.2)
  have hjson : ofJson d.toJson.normal = .ok d := ofJson_eq_ok_iff.2 ⟨_, rfl, hread, hsingular⟩
  rw [ofJsonText, toJsonText, Json.parse?_pretty d.numberFree_toJson hdepth]
  exact hjson

end ContractAbi
