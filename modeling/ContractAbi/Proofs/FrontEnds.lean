import ContractAbi.Proofs.Declaration.Batch
import ContractAbi.Proofs.Shape.PlainType

/-!
# Declarations and JSON agree

What a declaration can express has two written forms, a declaration and a JSON object. Main
statement: a list of entries is read from each of them as it was.
-/

namespace ContractAbi

/-! ### What both forms express -/

/-- A parameter that both forms express: a type with a shape of its own and a name that a
declaration does not take for a modifier. -/
structure Parameter.Expressible (p : Parameter) : Prop where
  type : ∃ s, (plain p.type "").shape = .ok s
  name : p.name = "" ∨ isIdentifier p.name ∧ Modifier.ofText? p.name = none
  internalType : p.internalType = none
  components : p.components = none

/-- An entry that both forms express. -/
inductive Entry.Expressible : Entry → Prop
  | function {f : Function} : isIdentifier f.name →
      (∀ p ∈ f.inputs ++ f.outputs, p.Expressible ∧ p.indexed = false) → Expressible (.function f)
  | event {e : Event} : isIdentifier e.name → (∀ p ∈ e.inputs, p.Expressible) →
      Expressible (.event e)
  | error {e : CustomError} : isIdentifier e.name →
      (∀ p ∈ e.inputs, p.Expressible ∧ p.indexed = false) → Expressible (.error e)
  | constructor {c : Constructor} : (∀ p ∈ c.inputs, p.Expressible ∧ p.indexed = false) →
      c.mutability = .payable ∨ c.mutability = .nonpayable → Expressible (.constructor c)

namespace Parameter

theorem Expressible.declarable {p : Parameter} (h : p.Expressible) : p.Declarable := by
  obtain ⟨⟨s, hs⟩, hname, hinternal, hcomponents⟩ := h
  refine ⟨isWord_of_shape hs, ?_, ?_, hinternal, hcomponents⟩
  · exact hname.imp_right fun hn => isWord_of_isIdentifier hn.1
  · rcases hname with hn | hn
    · rw [hn]
      decide
    · exact hn.2

/-- A type that has a shape on its own is neither blank nor a tuple. -/
theorem Expressible.standsAlone {p : Parameter} (h : p.Expressible) :
    Text.trimBlanks p.type ≠ "" ∧ ¬p.isTuple := by
  obtain ⟨type, name, indexed, internalType, components⟩ := p
  obtain ⟨⟨s, hs⟩, -, -, rfl⟩ := h
  exact ⟨trimBlanks_of_shape hs, not_isTuple_of_shape hs⟩

theorem declarableList_of_expressible {ps : List Parameter} (h : ∀ p ∈ ps, p.Expressible) :
    DeclarableList ps :=
  .inr fun p hp => (h p hp).declarable

/-- No type that has a shape is a loose keyword. -/
theorem looseKeywords_of_expressible {ps : List Parameter} (h : ∀ p ∈ ps, p.Expressible) :
    looseKeywords ps = [] := by
  rw [looseKeywords, List.filterMap_eq_nil_iff]
  intro p hp
  obtain ⟨s, hs⟩ := (h p (List.mem_of_mem_tail hp)).type
  rw [keyword?, ofText?_of_shape hs, ite_self]

end Parameter

namespace Entry

theorem Expressible.declarable {e : Entry} (h : e.Expressible) : e.Declarable := by
  cases h with
  | function hname hps =>
    exact .function hname
      (Parameter.declarableList_of_expressible fun p hp => (hps p (by simp [hp])).1)
      (Parameter.declarableList_of_expressible fun p hp => (hps p (by simp [hp])).1)
      fun p hp => (hps p hp).2
  | event hname hps => exact .event hname (Parameter.declarableList_of_expressible hps)
  | error hname hps =>
    exact .error hname (Parameter.declarableList_of_expressible fun p hp => (hps p hp).1)
      fun p hp => (hps p hp).2
  | constructor hps hm =>
    refine .constructor (Parameter.declarableList_of_expressible fun p hp => (hps p hp).1)
      (fun p hp => (hps p hp).2) ?_
    rcases hm with hm | hm <;> rw [hm] <;> rfl

theorem Expressible.parameters {e : Entry} (h : e.Expressible) :
    ∀ p ∈ e.inputs ++ e.outputs, p.Expressible := by
  cases h with
  | function _ hps => exact fun p hp => (hps p hp).1
  | event _ hps => simpa [inputs, outputs] using hps
  | error _ hps => exact fun p hp => (hps p (by simpa [inputs, outputs] using hp)).1
  | constructor hps => exact fun p hp => (hps p (by simpa [inputs, outputs] using hp)).1

theorem Expressible.conforms {e : Entry} (h : e.Expressible) : e.Conforms :=
  h.declarable.conforms_iff.2 fun p hp => (h.parameters p hp).standsAlone

theorem Expressible.keepsMutability {e : Entry} (h : e.Expressible) (mode : Mode) :
    e.KeepsMutability mode := by
  cases h with
  | @function f hname hps =>
    have hloose : Parameter.looseKeywords f.outputs = [] :=
      Parameter.looseKeywords_of_expressible fun p hp => (hps p (by simp [hp])).1
    cases mode <;> simp [KeepsMutability, Function.KeepsMutability, hloose]
  | event | error | constructor => trivial

/-- The display of an entry that both forms express is a declaration of it. -/
theorem ofDeclaration_display_of_expressible {e : Entry} (h : e.Expressible) (mode : Mode) :
    ofDeclaration mode e.display = .ok e :=
  (ofDeclaration_display h.declarable).2 (h.keepsMutability mode)

end Entry

/-! ### Main statement -/

/-- A list of entries is read as it was from its declarations, in both modes, and from its JSON. -/
theorem Descriptor.read_both_forms {es : List Entry} (h : ∀ e ∈ es, e.Expressible)
    (hone : es.countP (·.kind = .constructor) ≤ 1) :
    (∀ mode, (Report.ofDeclarations mode (es.map Entry.display)).rejected = [] ∧
      (Report.ofDeclarations mode (es.map Entry.display)).descriptor = ⟨es⟩) ∧
    ofJsonText (toJsonText ⟨es⟩) = .ok ⟨es⟩ := by
  constructor
  · intro mode
    apply Report.ofDeclarations_display
    intro e he
    exact Entry.ofDeclaration_display_of_expressible (h e he) mode
  · apply ofJsonText_toJsonText
    · intro e he
      exact (h e he).conforms
    · exact (Schema.noRepetition_iff fun e he => (h e he).declarable.kind_eq).2 hone
    · exact depth_toJson_of_components fun e he => (h e he).declarable.components

/-- Entries and parameters whose names are words of the grammar. -/
theorem Descriptor.read_both_forms_of_keywords :
    let es : List Entry := [
      .function ⟨"event", [.plain "uint" "pure"],
        [.plain "uint" "", .plain "int8[2]" "returns"], .view⟩,
      .function ⟨"constructor", [], [.plain "uint" "view", .plain "uint" "view"], .nonpayable⟩,
      .event ⟨"error", [⟨"int8[2]", "anonymous", true, none, none⟩, .plain "uint" ""], true⟩,
      .error ⟨"function", [.plain "uint" "event"]⟩,
      .constructor ⟨[.plain "int8[2]" "payable"], .payable⟩]
    (∀ e ∈ es, e.Expressible) ∧ es.countP (·.kind = .constructor) ≤ 1 ∧
      (∀ mode, (Report.ofDeclarations mode (es.map Entry.display)).rejected = [] ∧
        (Report.ofDeclarations mode (es.map Entry.display)).descriptor = ⟨es⟩) ∧
      ofJsonText (toJsonText ⟨es⟩) = .ok ⟨es⟩ := by
  intro es
  have hname : ∀ name ∈ ["", "pure", "returns", "view", "event", "payable", "anonymous"],
      name = "" ∨ isIdentifier name ∧ Modifier.ofText? name = none := by
    decide
  have huint : ∃ s, (Parameter.plain "uint" "").shape = .ok s :=
    ⟨.elementary (.integer false 256), by with_unfolding_all rfl⟩
  have hint : ∃ s, (Parameter.plain "int8[2]" "").shape = .ok s :=
    ⟨.fixedArray (.elementary (.integer true 8)) 2, by with_unfolding_all rfl⟩
  have hexpressible : ∀ e ∈ es, e.Expressible := by
    simp only [es, List.forall_mem_cons, List.not_mem_nil, false_implies, implies_true, and_true]
    refine ⟨.function (by decide) ?_, .function (by decide) ?_, .event (by decide) ?_,
      .error (by decide) ?_, .constructor ?_ (.inl rfl)⟩
    · simpa using ⟨⟨⟨huint, hname _ (by decide), rfl, rfl⟩, rfl⟩,
        ⟨⟨huint, hname _ (by decide), rfl, rfl⟩, rfl⟩, ⟨⟨hint, hname _ (by decide), rfl, rfl⟩, rfl⟩⟩
    · simpa using ⟨⟨huint, hname _ (by decide), rfl, rfl⟩, rfl⟩
    · simpa using ⟨⟨hint, hname _ (by decide), rfl, rfl⟩, ⟨huint, hname _ (by decide), rfl, rfl⟩⟩
    · simpa using ⟨⟨huint, hname _ (by decide), rfl, rfl⟩, rfl⟩
    · simpa using ⟨⟨hint, hname _ (by decide), rfl, rfl⟩, rfl⟩
  have hone : es.countP (·.kind = .constructor) ≤ 1 := by decide
  exact ⟨hexpressible, hone, Descriptor.read_both_forms hexpressible hone⟩

end ContractAbi
