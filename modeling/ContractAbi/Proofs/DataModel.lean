import ContractAbi.Proofs.Declaration.Batch

/-!
# The data model

What holds of every interface, whether it was declared or read from JSON: names are not empty, only
inputs of events are indexed and never their components, and what a contract runs without being
called by name does not promise to keep the state. Of what was read from JSON it holds besides that
the tuples, at every depth, are the parameters with components, and that constructor, fallback and
receive are single.

Neither front end checks this as a whole. What they do check is known as `Entry.Declarable` and
`Entry.Conforms`, and the data model follows from each of the two. Main statement:
`Descriptor.entries_inDataModel`.
-/

namespace ContractAbi

/-! ### Parameters at every depth -/

namespace Parameter

/-- Whether a parameter occurs in a list: as one of its parameters or, at any depth, as a component
of one of them. -/
inductive Occurs (q : Parameter) : List Parameter → Prop
  | here {ps} : q ∈ ps → Occurs q ps
  | within {p ps qs} : p ∈ ps → p.components = some qs → Occurs q qs → Occurs q ps

theorem occurs_append {q : Parameter} {ps qs : List Parameter} :
    q.Occurs (ps ++ qs) ↔ q.Occurs ps ∨ q.Occurs qs := by
  constructor
  · rintro (h | ⟨h, hparts, hq⟩)
    · exact (List.mem_append.1 h).imp .here .here
    · exact (List.mem_append.1 h).imp (.within · hparts hq) (.within · hparts hq)
  · rintro (h | h)
    · cases h with
      | here h => exact .here (List.mem_append_left _ h)
      | within h hparts hq => exact .within (List.mem_append_left _ h) hparts hq
    · cases h with
      | here h => exact .here (List.mem_append_right _ h)
      | within h hparts hq => exact .within (List.mem_append_right _ h) hparts hq

theorem conformAll_iff_forall {inEvent : Bool} {ps : List Parameter} :
    ConformAll inEvent ps ↔ ∀ p ∈ ps, p.Conforms inEvent := by
  induction ps with
  | nil => simp [ConformAll]
  | cons p ps ih => rw [ConformAll, ih, List.forall_mem_cons]

/-- What the check says of a parameter itself and of its components. -/
theorem Conforms.parts {inEvent : Bool} {p : Parameter} (h : p.Conforms inEvent) :
    (p.indexed = true → inEvent = true) ∧ (p.components.isSome ↔ p.rootType = "tuple") ∧
      ∀ ps ∈ p.components, ConformAll false ps := by
  obtain ⟨type, name, indexed, internalType, components⟩ := p
  cases components with
  | none =>
    rw [Conforms] at h
    obtain ⟨-, hindexed, htuple⟩ := h
    exact ⟨hindexed, by simpa [isTuple] using htuple, nofun⟩
  | some ps =>
    rw [Conforms] at h
    obtain ⟨-, hindexed, htuple, hps⟩ := h
    refine ⟨hindexed, by simpa [isTuple] using htuple, ?_⟩
    rintro _ ⟨⟩
    exact hps

/-- What occurs in components passes the check of a parameter that is no input of an event. -/
theorem Occurs.conforms {q : Parameter} {ps : List Parameter} (hq : q.Occurs ps)
    (h : ConformAll false ps) : q.Conforms false := by
  -- `false` is what every list of components is checked with, so the induction stays within it
  induction hq with
  | here hmem => exact conformAll_iff_forall.1 h q hmem
  | within hmem hparts _ ih =>
    have hp := (conformAll_iff_forall.1 h _ hmem).parts
    exact ih (hp.2.2 _ hparts)

theorem Conforms.indexed_eq_false {p : Parameter} (h : p.Conforms false) : p.indexed = false := by
  rw [Bool.eq_false_iff]
  intro hp
  exact Bool.false_ne_true (h.parts.1 hp)

/-- Components are not indexed, whatever list they are checked in. -/
theorem ConformAll.indexed_eq_false {inEvent : Bool} {p q : Parameter} {ps qs : List Parameter}
    (h : ConformAll inEvent ps) (hp : p ∈ ps) (hqs : qs ∈ p.components) (hq : q.Occurs qs) :
    q.indexed = false := by
  have hparts := (conformAll_iff_forall.1 h p hp).parts.2.2 qs hqs
  exact (hq.conforms hparts).indexed_eq_false

/-- At every depth the tuples are the parameters with components. -/
theorem ConformAll.isSome_components_iff {inEvent : Bool} {q : Parameter} {ps : List Parameter}
    (h : ConformAll inEvent ps) (hq : q.Occurs ps) :
    q.components.isSome ↔ q.rootType = "tuple" := by
  rw [conformAll_iff_forall] at h
  cases hq with
  | here hmem => exact (h q hmem).parts.2.1
  | within hmem hparts hq =>
    have hqs := (h _ hmem).parts.2.2 _ hparts
    exact (hq.conforms hqs).parts.2.1

end Parameter

/-! ### Entries -/

theorem Mutability.isReadOnly_eq_false_iff {m : Mutability} :
    m.isReadOnly = false ↔ m = .payable ∨ m = .nonpayable := by
  cases m <;> simp [isReadOnly]

namespace Entry

/-- Whether the mutability is one that an entry of the kind may have. -/
def MayHaveMutability : Entry → Prop
  | constructor c => c.mutability = .payable ∨ c.mutability = .nonpayable
  | fallback m => m = .payable ∨ m = .nonpayable
  | receive m => m = .payable
  | function _ | event _ | error _ => True

/-- Whether an entry is what interfaces are made of: it has no empty name, a parameter of it is
indexed only as an input of an event, and its mutability is one that its kind may have. -/
structure InDataModel (e : Entry) : Prop where
  name : ∀ name ∈ e.name?, name ≠ ""
  inputs : ∀ p ∈ e.inputs, p.indexed = true → e.kind = .event
  outputs : ∀ p ∈ e.outputs, p.indexed = false
  components : ∀ p ∈ e.inputs ++ e.outputs, ∀ qs ∈ p.components, ∀ q : Parameter,
    q.Occurs qs → q.indexed = false
  mutability : e.MayHaveMutability

/-- An event gives nothing back. -/
theorem outputs_eq_nil_of_event {e : Entry} (h : e.kind = .event) : e.outputs = [] := by
  cases e with
  | event => rfl
  | _ => cases h

/-! ### What was declared -/

theorem Declarable.isIdentifier {e : Entry} (h : e.Declarable) :
    ∀ name ∈ e.name?, isIdentifier name := by
  rintro name hname
  cases h with
  | function h => exact Option.some.inj hname ▸ h
  | event h => exact Option.some.inj hname ▸ h
  | error h => exact Option.some.inj hname ▸ h
  | constructor => cases hname

theorem Declarable.indexed_eq_false {e : Entry} (h : e.Declarable) (hkind : e.kind ≠ .event) :
    ∀ p ∈ e.inputs ++ e.outputs, p.indexed = false := by
  cases h with
  | function _ _ _ hi => exact hi
  | event => exact absurd rfl hkind
  | error _ _ hi => simpa [inputs, outputs] using hi
  | constructor _ hi => simpa [inputs, outputs] using hi

theorem Declarable.mayHaveMutability {e : Entry} (h : e.Declarable) : e.MayHaveMutability := by
  cases h with
  | function => trivial
  | event => trivial
  | error => trivial
  | constructor _ _ hread => exact Mutability.isReadOnly_eq_false_iff.1 hread

/-- Nothing that was declared has components. -/
theorem Declarable.inDataModel {e : Entry} (h : e.Declarable) : e.InDataModel where
  name := fun name hname => (isWord_of_isIdentifier (h.isIdentifier name hname)).1
  inputs := by
    intro p hp hindexed
    by_contra hkind
    have hfalse := h.indexed_eq_false hkind p (List.mem_append_left _ hp)
    exact Bool.false_ne_true (hfalse.symm.trans hindexed)
  outputs := by
    intro p hp
    by_cases hkind : e.kind = .event
    · rw [outputs_eq_nil_of_event hkind] at hp
      cases hp
    · exact h.indexed_eq_false hkind p (List.mem_append_right _ hp)
  components := by
    intro p hp qs hqs
    rw [h.components p hp] at hqs
    cases hqs
  mutability := h.mayHaveMutability

/-! ### What was read from JSON -/

theorem Conforms.conformAll_inputs {e : Entry} (h : e.Conforms) :
    Parameter.ConformAll (e.kind = .event) e.inputs := by
  cases e with
  | function f => exact h.2.1
  | event e => exact h.2
  | error e => exact h.2
  | constructor c => exact h.1
  | fallback | receive => trivial

theorem Conforms.conformAll_outputs {e : Entry} (h : e.Conforms) :
    Parameter.ConformAll false e.outputs := by
  cases e with
  | function f => exact h.2.2
  | _ => trivial

theorem Conforms.name_ne_empty {e : Entry} (h : e.Conforms) : ∀ name ∈ e.name?, name ≠ "" := by
  intro name hname
  cases e with
  | function f => exact Option.some.inj hname ▸ h.1
  | event e => exact Option.some.inj hname ▸ h.1
  | error e => exact Option.some.inj hname ▸ h.1
  | _ => cases hname

theorem Conforms.mayHaveMutability {e : Entry} (h : e.Conforms) : e.MayHaveMutability := by
  cases e with
  | constructor c => exact Mutability.isReadOnly_eq_false_iff.1 h.2
  | fallback m => exact Mutability.isReadOnly_eq_false_iff.1 h
  | receive m => exact h
  | _ => trivial

theorem Conforms.inDataModel {e : Entry} (h : e.Conforms) : e.InDataModel where
  name := h.name_ne_empty
  inputs := by
    intro p hp hindexed
    have hp := Parameter.conformAll_iff_forall.1 h.conformAll_inputs p hp
    exact of_decide_eq_true (hp.parts.1 hindexed)
  outputs := by
    intro p hp
    exact (Parameter.conformAll_iff_forall.1 h.conformAll_outputs p hp).indexed_eq_false
  components := by
    intro p hp qs hqs q hq
    rcases List.mem_append.1 hp with hp | hp
    · exact h.conformAll_inputs.indexed_eq_false hp hqs hq
    · exact h.conformAll_outputs.indexed_eq_false hp hqs hq
  mutability := h.mayHaveMutability

theorem Conforms.isSome_components_iff {e : Entry} (h : e.Conforms) {q : Parameter}
    (hq : q.Occurs (e.inputs ++ e.outputs)) : q.components.isSome ↔ q.rootType = "tuple" := by
  rcases Parameter.occurs_append.1 hq with hq | hq
  · exact h.conformAll_inputs.isSome_components_iff hq
  · exact h.conformAll_outputs.isSome_components_iff hq

end Entry

/-- Of a kind that must not be repeated there is one entry at most. -/
theorem Schema.NoRepetition.length_ofKind_le {d : Descriptor} {kind : EntryKind}
    (h : NoRepetition d.entries) (hs : isSingular kind) : (d.ofKind kind).length ≤ 1 := by
  have hkind : ∀ e ∈ d.ofKind kind, e.kind = kind := by
    intro e he
    exact of_decide_eq_true (List.mem_filter.1 he).2
  have hsub : NoRepetition (d.ofKind kind) := h.sublist List.filter_sublist
  rcases hes : d.ofKind kind with _ | ⟨first, _ | ⟨second, rest⟩⟩
  · exact Nat.zero_le 1
  · exact Nat.le_refl 1
  · rw [hes] at hsub hkind
    have hfirst : first.kind = kind := hkind first (by simp)
    have hsecond : second.kind = kind := hkind second (by simp)
    have hne : first.kind ≠ second.kind :=
      (List.pairwise_cons.1 hsub).1 second (by simp) (hsecond ▸ hs)
    exact absurd (hfirst.trans hsecond.symm) hne

/-! ### Main statement -/

namespace Descriptor

/-- Entries of interfaces are in the data model, however the interface came about. -/
theorem entries_inDataModel :
    (∀ mode declarations, ∀ e ∈ (Report.ofDeclarations mode declarations).descriptor.entries,
      e.InDataModel ∧ ∀ name ∈ e.name?, isIdentifier name) ∧
    ∀ v d, ofJson v = .ok d →
      (∀ e ∈ d.entries, e.InDataModel ∧ ∀ q : Parameter, q.Occurs (e.inputs ++ e.outputs) →
        (q.components.isSome ↔ q.rootType = "tuple")) ∧
      (d.ofKind .constructor).length ≤ 1 ∧ (d.ofKind .fallback).length ≤ 1 ∧
        (d.ofKind .receive).length ≤ 1 := by
  constructor
  · intro mode declarations e he
    obtain ⟨declaration, -, hread⟩ := Report.exists_declaration he
    have hdeclarable := Entry.declarable_of_ofDeclaration hread
    exact ⟨hdeclarable.inDataModel, hdeclarable.isIdentifier⟩
  · intro v d h
    obtain ⟨elements, rfl, hread, hsingular⟩ := ofJson_eq_ok_iff.1 h
    refine ⟨?_, hsingular.length_ofKind_le rfl, hsingular.length_ofKind_le rfl,
      hsingular.length_ofKind_le rfl⟩
    intro e he
    obtain ⟨element, -, hentry⟩ :=
      Except.exists_of_mem_mapM (Except.mapM_eq_ok_iff.2 hread) he
    have hconforms := Schema.conforms_of_entry hentry
    exact ⟨hconforms.inDataModel, fun q hq => hconforms.isSome_components_iff hq⟩

/-- A declared event with an indexed input, and one read from JSON whose indexed input has nested
components, beside a constructor. -/
theorem entries_inDataModel_of_indexed :
    let declared : Entry := .event ⟨"E", [⟨"uint", "a", true, none, none⟩], false⟩
    let e : Entry := .event ⟨"E",
      [⟨"tuple[]", "t", true, none, some [⟨"tuple", "", false, none, some []⟩]⟩], false⟩
    let d : Descriptor := ⟨[e, .constructor ⟨[], .payable⟩]⟩
    let v : Json := .array [
      .object [("name", .string "E"), ("type", .string "event"), ("inputs", .array [
        .object [("type", .string "tuple[]"), ("name", .string "t"), ("indexed", .bool true),
          ("components",
            .array [.object [("components", .array []), ("type", .string "tuple")]])]])],
      .object [("payable", .bool true), ("type", .string "constructor"), ("name", .null)]]
    let batch := Report.ofDeclarations .strict ["event E(uint indexed a)"]
    (batch.descriptor.entries = [declared] ∧ declared.InDataModel ∧
      ∀ name ∈ declared.name?, isIdentifier name) ∧
    ofJson v = .ok d ∧ (∀ e ∈ d.entries, e.InDataModel ∧
      ∀ q : Parameter, q.Occurs (e.inputs ++ e.outputs) →
        (q.components.isSome ↔ q.rootType = "tuple")) ∧
      (d.ofKind .constructor).length ≤ 1 ∧ (d.ofKind .fallback).length ≤ 1 ∧
        (d.ofKind .receive).length ≤ 1 := by
  intro declared e d v batch
  have ha : Parameter.Declarable ⟨"uint", "a", true, none, none⟩ :=
    ⟨by decide, .inr (by decide), by decide, rfl, rfl⟩
  have hdeclared : ∀ e ∈ [declared], Entry.ofDeclaration .strict e.display = .ok e :=
    List.forall_mem_singleton.2 <|
      Entry.ofDeclaration_display_event (by decide) (.inr (List.forall_mem_singleton.2 ha))
  have hbatch : batch.descriptor = ⟨[declared]⟩ := (Report.ofDeclarations_display hdeclared).2
  have hmem : declared ∈ batch.descriptor.entries := by
    rw [hbatch]
    exact List.mem_singleton_self declared
  have hread : ofJson v = .ok d := rfl
  refine ⟨⟨congrArg entries hbatch, entries_inDataModel.1 _ _ declared hmem⟩, hread, ?_⟩
  exact entries_inDataModel.2 v d hread

end Descriptor

end ContractAbi
