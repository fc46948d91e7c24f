import ContractAbi.Proofs.Declaration.Reparse
import ContractAbi.Proofs.Schema.Ingested
import ContractAbi.Report

/-!
# Batches of declarations

A batch is read declaration by declaration, and its interface has the entries that were read. Those
pass the checks on a JSON interface but for three things that a declaration is not asked for: its
types may be blank, a tuple has no components, and a second constructor is kept. Main statement: the
interface of a batch is read from its JSON as it was exactly if nothing of this kind was declared.
-/

namespace ContractAbi

/-! ### Entries that were declared -/

namespace Parameter

theorem conforms_iff {p : Parameter} {inEvent : Bool} (h : p.components = none) :
    p.Conforms inEvent ↔ (Text.trimBlanks p.type ≠ "" ∧ ¬p.isTuple) ∧
      (p.indexed = true → inEvent = true) := by
  obtain ⟨type, name, indexed, internalType, components⟩ := p
  obtain rfl : components = none := h
  rw [Conforms]
  tauto

theorem conformAll_iff {ps : List Parameter} {inEvent : Bool}
    (h : ∀ p ∈ ps, p.components = none) :
    ConformAll inEvent ps ↔ ∀ p ∈ ps, (Text.trimBlanks p.type ≠ "" ∧ ¬p.isTuple) ∧
      (p.indexed = true → inEvent = true) := by
  induction ps with
  | nil => simp [ConformAll]
  | cons p ps ih =>
    rw [List.forall_mem_cons] at h
    rw [ConformAll, conforms_iff h.1, ih h.2, List.forall_mem_cons]

theorem DeclarableList.components {ps : List Parameter} (h : DeclarableList ps) :
    ∀ p ∈ ps, p.components = none := by
  rcases h with rfl | h
  · simp [plain]
  · intro p hp
    exact (h p hp).components

/-- Outside events nothing that is indexed can be declared, so only the types matter. -/
theorem DeclarableList.conformAll_iff {ps : List Parameter} {inEvent : Bool}
    (h : DeclarableList ps) (hi : ∀ p ∈ ps, p.indexed = true → inEvent = true) :
    ConformAll inEvent ps ↔ ∀ p ∈ ps, Text.trimBlanks p.type ≠ "" ∧ ¬p.isTuple := by
  rw [Parameter.conformAll_iff h.components]
  refine forall₂_congr fun p hp => ?_
  exact and_iff_left (hi p hp)

end Parameter

namespace Entry

theorem Declarable.components {e : Entry} (h : e.Declarable) :
    ∀ p ∈ e.inputs ++ e.outputs, p.components = none := by
  cases h with
  | function _ hinputs houtputs =>
    intro p hp
    exact (List.mem_append.1 hp).elim (hinputs.components p) (houtputs.components p)
  | event _ hinputs => simpa [inputs, outputs] using hinputs.components
  | error _ hinputs => simpa [inputs, outputs] using hinputs.components
  | constructor hinputs => simpa [inputs, outputs] using hinputs.components

/-- What was declared passes the checks if its types do. -/
theorem Declarable.conforms_iff {e : Entry} (h : e.Declarable) :
    e.Conforms ↔
      ∀ p ∈ e.inputs ++ e.outputs, Text.trimBlanks p.type ≠ "" ∧ ¬p.isTuple := by
  have hne : ∀ {name : String}, isIdentifier name → name ≠ "" := fun hn =>
    (isWord_of_isIdentifier hn).1
  have hplain : ∀ {ps : List Parameter}, Parameter.DeclarableList ps →
      (∀ p ∈ ps, p.indexed = false) → (Parameter.ConformAll false ps ↔
        ∀ p ∈ ps, Text.trimBlanks p.type ≠ "" ∧ ¬p.isTuple) := by
    intro ps hps hi
    apply hps.conformAll_iff
    intro p hp hindexed
    exact absurd hindexed (by simp [hi p hp])
  cases h with
  | @function f hname hinputs houtputs hi =>
    rw [List.forall_mem_append] at hi
    show f.name ≠ "" ∧ Parameter.ConformAll false f.inputs ∧ Parameter.ConformAll false f.outputs ↔
      ∀ p ∈ f.inputs ++ f.outputs, _
    rw [hplain hinputs hi.1, hplain houtputs hi.2, List.forall_mem_append]
    exact and_iff_right (hne hname)
  | @event e hname hinputs =>
    show e.name ≠ "" ∧ Parameter.ConformAll true e.inputs ↔ ∀ p ∈ e.inputs ++ [], _
    rw [hinputs.conformAll_iff fun _ _ _ => rfl, List.append_nil]
    exact and_iff_right (hne hname)
  | @error e hname hinputs hi =>
    show e.name ≠ "" ∧ Parameter.ConformAll false e.inputs ↔ ∀ p ∈ e.inputs ++ [], _
    rw [hplain hinputs hi, List.append_nil]
    exact and_iff_right (hne hname)
  | @constructor c hinputs hi hread =>
    show Parameter.ConformAll false c.inputs ∧ c.mutability.isReadOnly = false ↔
      ∀ p ∈ c.inputs ++ [], _
    rw [hplain hinputs hi, List.append_nil]
    exact and_iff_left hread

theorem Declarable.kind_eq {e : Entry} (h : e.Declarable) (hs : Schema.isSingular e.kind) :
    e.kind = .constructor := by
  cases h with
  | constructor => rfl
  | function | event | error => cases hs

end Entry

/-! ### Batches -/

namespace Report

/-- If every declaration of a batch is read, the interface has all entries and nothing is
rejected. -/
theorem of_forall₂ {mode : Mode} {placed : List (Nat × String)} {es : List Entry}
    (h : List.Forall₂ (fun declaration e => Entry.ofDeclaration mode declaration.2 = .ok e)
      placed es) :
    (ofPlaced mode placed).rejected = [] ∧ (ofPlaced mode placed).descriptor = ⟨es⟩ := by
  rw [rejected, descriptor, Descriptor.mk.injEq, ofPlaced]
  induction h with
  | nil => exact ⟨rfl, rfl⟩
  | @cons declaration e placed es hfirst _ ih =>
    have hentry : Outcome.entry?
        ⟨declaration.1, declaration.2, Entry.ofDeclaration mode declaration.2⟩ = some e := by
      rw [Outcome.entry?, hfirst]
    have hrejection : Outcome.rejection?
        ⟨declaration.1, declaration.2, Entry.ofDeclaration mode declaration.2⟩ = none := by
      rw [Outcome.rejection?, hfirst]
    rw [List.map_cons, List.filterMap_cons, List.filterMap_cons, hentry, hrejection]
    exact ⟨ih.1, congrArg (e :: ·) ih.2⟩

theorem ofDeclarations_display {mode : Mode} {es : List Entry}
    (h : ∀ e ∈ es, Entry.ofDeclaration mode e.display = .ok e) :
    (ofDeclarations mode (es.map Entry.display)).rejected = [] ∧
      (ofDeclarations mode (es.map Entry.display)).descriptor = ⟨es⟩ := by
  apply of_forall₂
  -- the places count on from wherever the batch begins
  generalize 0 = first
  induction es generalizing first with
  | nil => exact .nil
  | cons e es ih =>
    rw [List.forall_mem_cons] at h
    exact .cons h.1 (ih h.2 (first + 1))

/-- Each entry of the interface was declared. -/
theorem exists_declaration {mode : Mode} {declarations : List String} {e : Entry}
    (he : e ∈ (ofDeclarations mode declarations).descriptor.entries) :
    ∃ declaration ∈ declarations, Entry.ofDeclaration mode declaration = .ok e := by
  rw [descriptor, ofDeclarations, ofPlaced] at he
  obtain ⟨outcome, houtcome, hentry⟩ := List.mem_filterMap.1 he
  simp only [List.map_map, List.mem_map] at houtcome
  obtain ⟨⟨declaration, place⟩, hplaced, rfl⟩ := houtcome
  refine ⟨declaration, (List.mem_zipIdx hplaced).2.2 ▸ List.getElem_mem _, ?_⟩
  simp only [Outcome.entry?, Function.comp_apply] at hentry
  split at hentry
  · next e' hread => exact Option.some.inj hentry ▸ hread
  · cases hentry

/-- Whether the interface of a batch is read from its JSON as it was. -/
def ReadsBack (r : Report) : Prop :=
  Descriptor.ofJsonText r.descriptor.toJsonText = .ok r.descriptor

theorem readsBack_iff_of_declarable {r : Report}
    (h : ∀ e ∈ r.descriptor.entries, e.Declarable) :
    r.ReadsBack ↔ r.descriptor.entries.countP (·.kind = .constructor) ≤ 1 ∧
      ∀ e ∈ r.descriptor.entries, ∀ p ∈ e.inputs ++ e.outputs,
        Text.trimBlanks p.type ≠ "" ∧ ¬p.isTuple := by
  have hdepth : r.descriptor.toJson.depth ≤ Json.maxDepth :=
    Descriptor.depth_toJson_of_components fun e he => (h e he).components
  rw [ReadsBack, Descriptor.ofJsonText_toJsonText_iff hdepth,
    Schema.noRepetition_iff fun e he => (h e he).kind_eq, and_comm]
  refine and_congr_right fun _ => forall₂_congr fun e he => ?_
  exact (h e he).conforms_iff

/-- A batch of displays. -/
theorem readsBack_iff_of_display {mode : Mode} {declarations : List String} {es : List Entry}
    (hdisplay : es.map Entry.display = declarations)
    (h : ∀ e ∈ es, e.Declarable ∧ e.KeepsMutability mode) :
    (ofDeclarations mode declarations).ReadsBack ↔
      es.countP (·.kind = .constructor) ≤ 1 ∧
        ∀ e ∈ es, ∀ p ∈ e.inputs ++ e.outputs, Text.trimBlanks p.type ≠ "" ∧ ¬p.isTuple := by
  have hread : ∀ e ∈ es, Entry.ofDeclaration mode e.display = .ok e := fun e he =>
    (Entry.ofDeclaration_display (h e he).1).2 (h e he).2
  have hdescriptor : (ofDeclarations mode declarations).descriptor = ⟨es⟩ :=
    hdisplay ▸ (ofDeclarations_display hread).2
  rw [readsBack_iff_of_declarable, hdescriptor]
  rw [hdescriptor]
  exact fun e he => (h e he).1

/-- A function of one input, whose type is any word. -/
theorem readsBack_iff_of_type {mode : Mode} {declaration type : String}
    (hdisplay :
      Entry.display (.function ⟨"f", [.plain type "a"], [], .nonpayable⟩) = declaration)
    (htype : Text.IsWord type) :
    (ofDeclarations mode [declaration]).ReadsBack ↔
      Text.trimBlanks type ≠ "" ∧ ¬(Parameter.plain type "a").isTuple := by
  let p : Parameter := .plain type "a"
  let f : Function := ⟨"f", [p], [], .nonpayable⟩
  have hp : p.Declarable :=
    ⟨htype, .inr (by decide : Text.IsWord "a"), (by decide : Modifier.ofText? "a" = none), rfl, rfl⟩
  have hf : Entry.Declarable (.function f) :=
    .function (by decide : isIdentifier "f") (.inr (List.forall_mem_singleton.2 hp))
      (.inr (List.forall_mem_nil _)) (List.forall_mem_singleton.2 rfl)
  have hkeeps : Entry.KeepsMutability mode (.function f) := by
    cases mode <;>
      simp [Entry.KeepsMutability, Function.KeepsMutability, Parameter.looseKeywords, f]
  rw [@readsBack_iff_of_display _ _ [.function f] (congrArg (List.cons · []) hdisplay)
    (List.forall_mem_singleton.2 ⟨hf, hkeeps⟩)]
  simp [Entry.inputs, Entry.outputs, Entry.kind, f, p, Parameter.plain]

/-! ### Main statement -/

/-- The interface of a batch reads back exactly if it has one constructor at most and all its types
are neither blank nor tuples. -/
theorem readsBack_iff (mode : Mode) (declarations : List String) :
    (ofDeclarations mode declarations).ReadsBack ↔
      let entries := (ofDeclarations mode declarations).descriptor.entries
      entries.countP (·.kind = .constructor) ≤ 1 ∧
        ∀ e ∈ entries, ∀ p ∈ e.inputs ++ e.outputs, Text.trimBlanks p.type ≠ "" ∧ ¬p.isTuple := by
  apply readsBack_iff_of_declarable
  intro e he
  obtain ⟨declaration, -, hread⟩ := exists_declaration he
  exact Entry.declarable_of_ofDeclaration hread

/-- Two constructors, a tuple, and a type that is a tabulator. -/
theorem not_readsBack :
    (¬(ofDeclarations .strict ["constructor()", "constructor()"]).ReadsBack ∧
      ¬(ofDeclarations .strict ["function f(tuple a)"]).ReadsBack ∧
      ¬(ofDeclarations .strict ["function f(\t a)"]).ReadsBack) ∧
    ¬(ofDeclarations .relaxed ["constructor()", "constructor()"]).ReadsBack ∧
      ¬(ofDeclarations .relaxed ["function f(tuple a)"]).ReadsBack ∧
      ¬(ofDeclarations .relaxed ["function f(\t a)"]).ReadsBack := by
  have hconstructors : ∀ mode,
      ¬(ofDeclarations mode ["constructor()", "constructor()"]).ReadsBack := by
    intro mode
    let c : Entry := .constructor ⟨[], .nonpayable⟩
    have hc : c.Declarable := .constructor (.inr (by simp)) (by simp) rfl
    rw [@readsBack_iff_of_display mode _ [c, c] (by decide) (by simpa using ⟨hc, trivial⟩)]
    decide
  have htuple : ∀ mode, ¬(ofDeclarations mode ["function f(tuple a)"]).ReadsBack := by
    intro mode
    rw [@readsBack_iff_of_type mode _ "tuple" (by decide) (by decide)]
    decide
  have htab : ∀ mode, ¬(ofDeclarations mode ["function f(\t a)"]).ReadsBack := by
    intro mode
    rw [@readsBack_iff_of_type mode _ "\t" (by decide) (by decide)]
    decide
  exact ⟨⟨hconstructors .strict, htuple .strict, htab .strict⟩,
    hconstructors .relaxed, htuple .relaxed, htab .relaxed⟩

end Report

end ContractAbi
