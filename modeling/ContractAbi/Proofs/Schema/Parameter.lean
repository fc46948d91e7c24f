import ContractAbi.Proofs.Except
import ContractAbi.Proofs.Json.RoundTrip
import ContractAbi.Schema

/-!
# Parameters in JSON

A parameter is written with the members that say something and read back from these in any order;
here they come in the order of their names. What is read is checked, and `Parameter.Conforms` tells
which parameters pass.
-/

namespace ContractAbi

open Json (normal normalItems normalMembers)

/-- The members of a written parameter in the order of their names. -/
theorem Parameter.normal_toJson (p : Parameter) : p.toJson.normal = .object (
    (match p.components with
      | some ps => [("components", .array (normalItems (toJsonList ps)))]
      | none => []) ++
    (if p.indexed then [("indexed", .bool true)] else []) ++
    (match p.internalType with
      | some t => [("internalType", .string t)]
      | none => []) ++
    [("name", .string p.name), ("type", .string p.type)]) := by
  obtain ⟨type, name, indexed, internalType, components⟩ := p
  cases indexed <;> cases internalType <;> cases components <;>
    simp only [toJson, normal, normalMembers, Json.Members.sorted, Json.Members.insert, ↓reduceIte,
      Bool.false_eq_true, String.reduceEq, String.reduceLT, List.append_nil, List.nil_append,
      List.cons_append, List.foldl_cons, List.foldl_nil]

namespace Schema

/-! ### Reading -/

theorem parameter_object (members : Json.Members) : parameter (.object members) =
    (parameterMembers .empty members >>= ParameterDraft.finish) := rfl

mutual

/-- A written parameter reads back. -/
theorem parameter_toJson : ∀ p : Parameter, parameter p.toJson.normal = .ok p
  | ⟨type, name, indexed, internalType, none⟩ => by
    rw [Parameter.normal_toJson]
    cases indexed <;> cases internalType <;> rfl
  | ⟨type, name, indexed, internalType, some ps⟩ => by
    have hps : components (.array (normalItems (Parameter.toJsonList ps))) = .ok (some ps) :=
      Except.bind_eq_ok_iff.2 ⟨ps, parameterList_toJsonList ps, rfl⟩
    rw [Parameter.normal_toJson, parameter_object]
    cases indexed <;> cases internalType <;> simp [parameterMembers, hps] <;> rfl
termination_by structural p => p

theorem parameterList_toJsonList : ∀ ps : List Parameter,
    parameterList (normalItems (Parameter.toJsonList ps)) = .ok ps
  | [] => rfl
  | p :: ps => by
    refine Except.bind_eq_ok_iff.2 ⟨p, parameter_toJson p, ?_⟩
    exact Except.bind_eq_ok_iff.2 ⟨ps, parameterList_toJsonList ps, rfl⟩
termination_by structural ps => ps

end

end Schema

/-! ### The check -/

namespace Parameter

mutual

/-- Whether a parameter has a type, is indexed only as an input of an event, and has components
exactly if it is a tuple. -/
def Conforms (inEvent : Bool) : Parameter → Prop
  | ⟨type, name, indexed, internalType, components⟩ =>
    Text.trimBlanks type ≠ "" ∧ (indexed = true → inEvent = true) ∧
      match components with
      | none => ¬(mk type name indexed internalType none).isTuple
      | some ps => (mk type name indexed internalType (some ps)).isTuple ∧ ConformAll false ps

/-- Whether the parameters of a list conform. -/
def ConformAll (inEvent : Bool) : List Parameter → Prop
  | [] => True
  | p :: ps => Conforms inEvent p ∧ ConformAll inEvent ps

end

end Parameter

namespace Schema

mutual

theorem checkParameter_eq_ok_iff : ∀ {inEvent : Bool} {p : Parameter},
    checkParameter inEvent p = .ok () ↔ p.Conforms inEvent
  | inEvent, ⟨type, name, indexed, internalType, none⟩ => by
    rw [checkParameter, Parameter.Conforms]
    by_cases ht : Text.trimBlanks type = ""
    · simp [ht, Except.throw_bind_ne_ok]
    by_cases hi : indexed = true ∧ inEvent = false
    · simp [ht, hi, Except.throw_bind_ne_ok]
    by_cases htuple : (Parameter.mk type name indexed internalType none).isTuple
    · simp [ht, hi, htuple]
    · have hi' : indexed = true → inEvent = true := by simpa using hi
      simpa [ht, hi, htuple, Except.pure_eq_ok_iff] using hi'
  | inEvent, ⟨type, name, indexed, internalType, some ps⟩ => by
    rw [checkParameter, Parameter.Conforms, ← checkParameters_eq_ok_iff]
    by_cases ht : Text.trimBlanks type = ""
    · simp [ht, Except.throw_bind_ne_ok]
    by_cases hi : indexed = true ∧ inEvent = false
    · simp [ht, hi, Except.throw_bind_ne_ok]
    by_cases htuple : (Parameter.mk type name indexed internalType (some ps)).isTuple
    · have hi' : checkParameters false ps = .ok () → indexed = true → inEvent = true := by
        simpa using fun _ => hi
      simpa [ht, hi, htuple] using hi'
    · simp [ht, hi, htuple]
termination_by structural _ p => p

theorem checkParameters_eq_ok_iff : ∀ {inEvent : Bool} {ps : List Parameter},
    checkParameters inEvent ps = .ok () ↔ Parameter.ConformAll inEvent ps
  | _, [] => by simp [checkParameters, Parameter.ConformAll, Except.pure_eq_ok_iff]
  | inEvent, p :: ps => by
    rw [checkParameters, Parameter.ConformAll, Except.bind_eq_ok_iff, ← checkParameter_eq_ok_iff,
      ← checkParameters_eq_ok_iff]
    constructor
    · rintro ⟨_, hp, hps⟩
      exact ⟨hp, hps⟩
    · rintro ⟨hp, hps⟩
      exact ⟨(), hp, hps⟩
termination_by structural _ ps => ps

end

end Schema

/-! ### The extent of a written parameter -/

mutual

theorem Parameter.numberFree_toJson : ∀ p : Parameter, p.toJson.NumberFree
  | ⟨type, name, indexed, internalType, none⟩ => by
    cases indexed <;> cases internalType <;>
      simp [toJson, Json.NumberFree, Json.NumberFreeMembers]
  | ⟨type, name, indexed, internalType, some ps⟩ => by
    have := numberFreeItems_toJsonList ps
    cases indexed <;> cases internalType <;>
      simp [toJson, Json.NumberFree, Json.NumberFreeMembers, this]
termination_by structural p => p

theorem Parameter.numberFreeItems_toJsonList : ∀ ps : List Parameter,
    Json.NumberFreeItems (toJsonList ps)
  | [] => trivial
  | p :: ps => ⟨numberFree_toJson p, numberFreeItems_toJsonList ps⟩
termination_by structural ps => ps

end

/-- A parameter without components is an object of texts. -/
theorem Parameter.depth_toJson {p : Parameter} (h : p.components = none) : p.toJson.depth = 1 := by
  obtain ⟨type, name, indexed, internalType, components⟩ := p
  obtain rfl : components = none := h
  cases indexed <;> cases internalType <;> simp [toJson, Json.depth, Json.depthOfMembers]

theorem Parameter.depthOfItems_toJsonList {ps : List Parameter}
    (h : ∀ p ∈ ps, p.components = none) : Json.depthOfItems (toJsonList ps) ≤ 1 := by
  induction ps with
  | nil => simp [toJsonList, Json.depthOfItems]
  | cons p ps ih =>
    rw [List.forall_mem_cons] at h
    rw [toJsonList, Json.depthOfItems, depth_toJson h.1]
    exact Nat.max_le.2 ⟨Nat.le_refl 1, ih h.2⟩

end ContractAbi
