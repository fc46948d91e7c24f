import ContractAbi.Proofs.Except
import ContractAbi.Proofs.Schema.RoundTrip

/-!
# Interfaces element by element

An interface is read from its first element on, and fails at the first one that is not an entry or
that repeats an entry of a singular kind. So a failure is settled by the elements up to there, and
where nothing fails each element is read as it would be by itself. Main statement:
`Descriptor.ofJson_elementwise`.
-/

namespace ContractAbi

namespace Schema

variable {before : List Entry} {element : Json}

/-! ### Single elements -/

/-- What speaks against an element behind elements that gave the entries `before`. -/
def refusal? (before : List Entry) (element : Json) : Option SchemaFault :=
  match entry element with
  | .error fault => some fault
  | .ok e =>
    if isSingular e.kind && before.any (·.kind = e.kind) then some (.repeated e.kind) else none

/-- Nothing is read behind an element that is refused. -/
theorem ingestFrom_of_refusal {fault : SchemaFault} (h : refusal? before element = some fault)
    (index : Nat) (rest : List Json) :
    ingestFrom index before (element :: rest) = ⟨[], some (.schemaViolation index fault)⟩ := by
  rw [refusal?] at h
  rw [ingestFrom]
  cases hentry : entry element with
  | error fault' =>
    rw [hentry] at h
    obtain rfl := Option.some.inj h
    rfl
  | ok e =>
    rw [hentry] at h
    dsimp only at h ⊢
    split at h
    · next hrepeated =>
      obtain rfl := Option.some.inj h
      rw [if_pos hrepeated]
    · cases h

/-- Behind an element that is not refused the next ones decide. -/
theorem fault_of_refusal_eq_none (h : refusal? before element = none) :
    ∃ e, ∀ index rest, (ingestFrom index before (element :: rest)).fault =
      (ingestFrom (index + 1) (e :: before) rest).fault := by
  rw [refusal?] at h
  cases hentry : entry element with
  | error fault =>
    rw [hentry] at h
    cases h
  | ok e =>
    rw [hentry] at h
    dsimp only at h
    split at h
    · cases h
    · next hfree =>
      refine ⟨e, fun index rest => ?_⟩
      rw [ingestFrom, hentry]
      dsimp only
      rw [if_neg hfree]

/-! ### Elements in a row -/

/-- A fault is that of the first element that is refused, whatever stands behind it. -/
theorem exists_of_fault {elements : List Json} {index : Nat} {error : AbiError}
    (h : (ingestFrom index before elements).fault = some error) :
    ∃ front element rest fault, elements = front ++ element :: rest ∧
      error = .schemaViolation (index + front.length) fault ∧
      (ingestFrom index before front).fault = none ∧
      ∀ others, (ingestFrom index before (front ++ element :: others)).fault = some error := by
  -- an element that is not refused is one more in front
  induction elements generalizing index before with
  | nil => cases h
  | cons element elements ih =>
    cases hrefusal : refusal? before element with
    | some fault =>
      rw [ingestFrom_of_refusal hrefusal] at h
      obtain rfl := Option.some.inj h
      refine ⟨[], element, elements, fault, rfl, rfl, rfl, fun others => ?_⟩
      rw [List.nil_append, ingestFrom_of_refusal hrefusal]
    | none =>
      obtain ⟨e, hstep⟩ := fault_of_refusal_eq_none hrefusal
      rw [hstep] at h
      obtain ⟨front, refused, rest, fault, rfl, rfl, hfront, hothers⟩ := ih h
      refine ⟨element :: front, refused, rest, fault, rfl, ?_, ?_, fun others => ?_⟩
      · rw [List.length_cons, Nat.add_right_comm, Nat.add_assoc]
      · rw [hstep, hfront]
      · rw [List.cons_append, hstep, hothers]

end Schema

namespace Descriptor

/-! ### Interfaces -/

/-- Whether an array fails at the element in place `i` for what stands up to there: the elements
before it are an interface, and all arrays that begin like this one fail alike. -/
structure FailsAt (elements : List Json) (i : Nat) (fault : SchemaFault) : Prop where
  lt_length : i < elements.length
  accepted : ∃ d, ofJson (.array (elements.take i)) = .ok d
  fails : ∀ others, others.take (i + 1) = elements.take (i + 1) →
    ofJson (.array others) = .error (.schemaViolation i fault)

/-- Whether no two elements are, each by itself, entries of one singular kind. -/
def Compatible (elements : List Json) : Prop :=
  elements.Pairwise fun v w => ∀ e e', ofJson (.array [v]) = .ok ⟨[e]⟩ →
    ofJson (.array [w]) = .ok ⟨[e']⟩ → Schema.isSingular e'.kind → e.kind ≠ e'.kind

variable {elements : List Json}

theorem ofJson_array_eq_error_iff {error : AbiError} :
    ofJson (.array elements) = .error error ↔
      (Schema.ingestFrom 0 [] elements).fault = some error := by
  rw [ofJson, Schema.ingest]
  cases (Schema.ingestFrom 0 [] elements).fault <;> simp

theorem exists_ofJson_array_eq_ok (h : (Schema.ingestFrom 0 [] elements).fault = none) :
    ∃ d, ofJson (.array elements) = .ok d := by
  rw [ofJson, Schema.ingest]
  simp only [h]
  exact ⟨_, rfl⟩

/-- An array of one element is an interface of the entry that it is. -/
theorem ofJson_singleton_eq_ok_iff {v : Json} {d : Descriptor} :
    ofJson (.array [v]) = .ok d ↔ ∃ e, Schema.entry v = .ok e ∧ d = ⟨[e]⟩ := by
  obtain ⟨es⟩ := d
  rw [ofJson_eq_ok_iff]
  constructor
  · rintro ⟨_, ⟨rfl⟩, hread, -⟩
    obtain ⟨e, es, he, hnone, rfl⟩ := List.forall₂_cons_left_iff.1 hread
    obtain rfl := List.forall₂_nil_left_iff.1 hnone
    exact ⟨e, he, rfl⟩
  · rintro ⟨e, he, ⟨rfl⟩⟩
    exact ⟨[v], rfl, .cons he .nil, List.pairwise_singleton _ e⟩

theorem ofJson_singleton_iff {v : Json} {e : Entry} :
    ofJson (.array [v]) = .ok ⟨[e]⟩ ↔ Schema.entry v = .ok e := by
  simp [ofJson_singleton_eq_ok_iff]

/-- The entries of elements repeat none of a singular kind exactly if no two elements clash. -/
theorem compatible_iff {es : List Entry}
    (h : List.Forall₂ (fun v e => Schema.entry v = .ok e) elements es) :
    Compatible elements ↔ Schema.NoRepetition es := by
  rw [Compatible, Schema.NoRepetition]
  simp only [ofJson_singleton_iff]
  induction h with
  | nil => simp
  | @cons v e elements es he hes ih =>
    rw [List.pairwise_cons, List.pairwise_cons, ih]
    refine and_congr_left fun _ => ?_
    constructor
    · intro hfirst later hl
      obtain ⟨w, hw, hlater⟩ := hes.exists_of_mem_right hl
      exact hfirst w hw e later he hlater
    · intro hfirst w hw e₁ e₂ he₁ he₂
      obtain ⟨later, hl, hlater⟩ := hes.exists_of_mem_left hw
      obtain rfl := Except.ok.inj (he.symm.trans he₁)
      obtain rfl := Except.ok.inj (hlater.symm.trans he₂)
      exact hfirst later hl

/-- An array is an interface exactly if each element is an entry by itself and no two clash. -/
theorem ofJson_array_eq_ok_iff {d : Descriptor} : ofJson (.array elements) = .ok d ↔
    List.Forall₂ (fun v e => ofJson (.array [v]) = .ok ⟨[e]⟩) elements d.entries ∧
      Compatible elements := by
  rw [ofJson_eq_ok_iff]
  simp only [ofJson_singleton_iff]
  constructor
  · rintro ⟨_, ⟨rfl⟩, hread, hsingular⟩
    exact ⟨hread, (compatible_iff hread).2 hsingular⟩
  · rintro ⟨hread, hcompatible⟩
    exact ⟨elements, rfl, hread, (compatible_iff hread).1 hcompatible⟩

/-- Elements that are entries by themselves are an interface unless two of them clash. -/
theorem exists_ofJson_array (h : ∀ v ∈ elements, ∃ d, ofJson (.array [v]) = .ok d)
    (hcompatible : Compatible elements) : ∃ d, ofJson (.array elements) = .ok d := by
  have hread : ∃ es, List.Forall₂ (fun v e => ofJson (.array [v]) = .ok ⟨[e]⟩) elements es := by
    rw [List.exists_forall₂_iff]
    intro v hv
    obtain ⟨d, hd⟩ := h v hv
    obtain ⟨e, -, rfl⟩ := ofJson_singleton_eq_ok_iff.1 hd
    exact ⟨e, hd⟩
  obtain ⟨es, hes⟩ := hread
  exact ⟨⟨es⟩, ofJson_array_eq_ok_iff.2 ⟨hes, hcompatible⟩⟩

/-- An array that is no interface fails at the first element that is to blame. -/
theorem exists_failsAt {error : AbiError} (h : ofJson (.array elements) = .error error) :
    ∃ i fault, error = .schemaViolation i fault ∧ FailsAt elements i fault := by
  obtain ⟨front, element, rest, fault, rfl, rfl, hfront, hothers⟩ :=
    Schema.exists_of_fault (ofJson_array_eq_error_iff.1 h)
  rw [Nat.zero_add] at hothers ⊢
  have htake : ∀ others : List Json,
      (front ++ element :: others).take (front.length + 1) = front ++ [element] := by
    intro others
    rw [List.take_append, List.take_of_length_le (Nat.le_succ _), Nat.add_sub_cancel_left]
    rfl
  refine ⟨_, fault, rfl, ?_, ?_, fun others hsame => ?_⟩
  · simp
  · rw [List.take_left]
    exact exists_ofJson_array_eq_ok hfront
  · -- an array that begins alike is the front, the element and what it has behind them
    have hothers' : others = front ++ element :: others.drop (front.length + 1) := by
      rw [htake] at hsame
      calc others = others.take (front.length + 1) ++ others.drop (front.length + 1) :=
            (List.take_append_drop _ _).symm
        _ = front ++ element :: others.drop (front.length + 1) := by
            rw [hsame, List.append_assoc, List.singleton_append]
    rw [hothers', ofJson_array_eq_error_iff, hothers]

theorem ofJson_of_ne_array {v : Json} (h : ∀ elements, v ≠ .array elements) :
    ofJson v = .error (.schemaViolation 0 .notAnArray) := by
  cases v with
  | array elements => exact absurd rfl (h elements)
  | _ => rfl

/-! ### Main statement -/

/-- An array that is no interface fails at its first element that is not an entry or repeats one of
a singular kind, and what stands behind has no bearing on it. One that is an interface has the
entries that its elements are by themselves, and it is one if they all are and no two of them clash.
Anything but an array fails at once. -/
theorem ofJson_elementwise :
    (∀ elements error, ofJson (.array elements) = .error error →
      ∃ i fault, error = .schemaViolation i fault ∧ FailsAt elements i fault) ∧
    (∀ elements d, ofJson (.array elements) = .ok d →
      List.Forall₂ (fun v e => ofJson (.array [v]) = .ok ⟨[e]⟩) elements d.entries ∧
        Compatible elements) ∧
    (∀ elements, (∀ v ∈ elements, ∃ d, ofJson (.array [v]) = .ok d) → Compatible elements →
      ∃ d, ofJson (.array elements) = .ok d) ∧
    ∀ v, (∀ elements, v ≠ .array elements) → ofJson v = .error (.schemaViolation 0 .notAnArray) :=
  ⟨fun _ _ => exists_failsAt, fun _ _ => ofJson_array_eq_ok_iff.1, fun _ => exists_ofJson_array,
    fun _ => ofJson_of_ne_array⟩

/-- A second fallback is refused where it stands, and what stands behind it is not looked at. -/
theorem ofJson_elementwise_of_fallback :
    let fallback : Json := .object [("type", .string "fallback")]
    let receive : Json := .object [("type", .string "receive")]
    (ofJson (.array [fallback, receive, fallback, .null]) =
        .error (.schemaViolation 2 (.repeated .fallback)) ∧
      FailsAt [fallback, receive, fallback, .null] 2 (.repeated .fallback)) ∧
    (ofJson (.array [fallback, receive]) = .ok ⟨[.fallback .nonpayable, .receive .payable]⟩ ∧
      Compatible [fallback, receive]) ∧
    ((∀ v ∈ [fallback, receive], ∃ d, ofJson (.array [v]) = .ok d) ∧
      ∃ d, ofJson (.array [fallback, receive]) = .ok d) ∧
    (∀ elements, fallback ≠ .array elements) ∧
      ofJson fallback = .error (.schemaViolation 0 .notAnArray) := by
  intro fallback receive
  obtain ⟨hfails, hread, hconverse, hother⟩ := ofJson_elementwise
  have herror : ofJson (.array [fallback, receive, fallback, .null]) =
      .error (.schemaViolation 2 (.repeated .fallback)) := rfl
  have hok : ofJson (.array [fallback, receive]) =
      .ok ⟨[.fallback .nonpayable, .receive .payable]⟩ := rfl
  have hcompatible : Compatible [fallback, receive] := (hread _ _ hok).2
  have hsingle : ∀ v ∈ [fallback, receive], ∃ d, ofJson (.array [v]) = .ok d := by
    rw [List.forall_mem_cons, List.forall_mem_singleton]
    exact ⟨⟨⟨[.fallback .nonpayable]⟩, rfl⟩, ⟨⟨[.receive .payable]⟩, rfl⟩⟩
  have hshape : ∀ elements, Json.object [("type", .string "fallback")] ≠ .array elements := by
    intro elements h
    cases h
  refine ⟨⟨herror, ?_⟩, ⟨hok, hcompatible⟩, ⟨hsingle, hconverse _ hsingle hcompatible⟩, hshape,
    hother fallback hshape⟩
  obtain ⟨i, fault, hsame, h⟩ := hfails _ _ herror
  obtain ⟨rfl, rfl⟩ := AbiError.schemaViolation.inj hsame
  exact h

end Descriptor

end ContractAbi
