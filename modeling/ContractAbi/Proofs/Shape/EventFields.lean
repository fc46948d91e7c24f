import ContractAbi.Proofs.Shape.Grammar

/-!
# The two halves of an event

The fields of an event are named and checked as one list, and then told apart by the flags of the
inputs. Nothing is lost by that: with the flags the two halves are merged into the list again. Main
statement: `Event.shape_merges`.
-/

namespace ContractAbi

namespace Fields

/-- The fields of some parameters, merged from those of the indexed ones and those of the others.
Each parameter takes the next field of the list that its flag chooses, and none may be left over. -/
def merge? : List Parameter → (indexed data : Fields) → Option Fields
  | [], [], [] => some []
  | p :: ps, indexed, data =>
    match p.indexed, indexed, data with
    | true, field :: indexed, data => (merge? ps indexed data).map (field :: ·)
    | false, indexed, field :: data => (merge? ps indexed data).map (field :: ·)
    | _, _, _ => none
  | _, _, _ => none

theorem select_cons (chosen : Bool) (field : String × Shape) (fields : Fields) (p : Parameter)
    (ps : List Parameter) : select chosen (field :: fields) (p :: ps) =
      if p.indexed = chosen then field :: select chosen fields ps
      else select chosen fields ps := by
  unfold select
  rw [List.zip_cons_cons, List.filter_cons]
  by_cases h : p.indexed = chosen
  · rw [if_pos (decide_eq_true h), if_pos h, List.map_cons]
  · rw [if_neg (by simpa using h), if_neg h]

/-- The two halves of some fields are merged into these. -/
theorem merge?_select {fields : Fields} {ps : List Parameter} (h : fields.length = ps.length) :
    merge? ps (select true fields ps) (select false fields ps) = some fields := by
  induction ps generalizing fields with
  | nil =>
    obtain rfl := List.length_eq_zero_iff.1 h
    rfl
  | cons p ps ih =>
    cases fields with
    | nil => cases h
    | cons field fields =>
      have ih := ih (Nat.succ.inj h)
      rw [select_cons, select_cons]
      -- the flag leaves the field at the front of one half and out of the other
      cases hp : p.indexed with
      | true =>
        rw [if_pos rfl, if_neg (by decide)]
        unfold merge?
        rw [hp]
        dsimp only
        rw [ih, Option.map_some]
      | false =>
        rw [if_neg (by decide), if_pos rfl]
        unfold merge?
        rw [hp]
        dsimp only
        rw [ih, Option.map_some]

end Fields

namespace Parameter

theorem getElem?_fieldNamesFrom (position : Nat) (ps : List Parameter) (i : Nat) :
    (fieldNamesFrom position ps)[i]? = ps[i]?.map (·.fieldName (position + i)) := by
  induction ps generalizing position i with
  | nil => rfl
  | cons p ps ih =>
    unfold fieldNamesFrom
    cases i with
    | zero => rfl
    | succ i =>
      rw [List.getElem?_cons_succ, List.getElem?_cons_succ, ih, Nat.add_right_comm]
      rfl

/-- The name of each field is that of its parameter, or else its position. -/
theorem getElem?_fieldNames (ps : List Parameter) (i : Nat) :
    (fieldNames ps)[i]? = ps[i]?.map (·.fieldName i) := by
  rw [fieldNames, getElem?_fieldNamesFrom, Nat.zero_add]

/-- The names of the fields, in one list over all parameters. -/
theorem fieldNames_eq_mapIdx (ps : List Parameter) :
    fieldNames ps = ps.mapIdx fun i p => p.fieldName i := by
  apply List.ext_getElem?
  intro i
  rw [getElem?_fieldNames, List.getElem?_mapIdx]

/-- Parameters have fields exactly if each has a shape and no two have one name. -/
theorem exists_fields_iff (owner : String) (ps : List Parameter) :
    (∃ fields, Parameter.fields owner ps = .ok fields) ↔
      (∀ p ∈ ps, ∃ s, p.shape = .ok s) ∧ (ps.mapIdx fun i p => p.fieldName i).Nodup := by
  rw [← List.exists_forall₂_iff, ← fieldNames_eq_mapIdx]
  unfold Parameter.fields
  simp only [fieldsFrom_zero_eq_ok_iff]
  constructor
  · rintro ⟨fields, ss, hss, hnodup, -⟩
    exact ⟨⟨ss, hss⟩, hnodup⟩
  · rintro ⟨⟨ss, hss⟩, hnodup⟩
    exact ⟨_, ss, hss, hnodup, rfl⟩

/-- The fields of parameters are as many as these, and each has the name and the shape of its
parameter. -/
theorem getElem?_fields {owner : String} {ps : List Parameter} {fields : Fields}
    (h : Parameter.fields owner ps = .ok fields) :
    fields.length = ps.length ∧ ∀ (i : Nat) (p : Parameter), ps[i]? = some p →
      ∃ s, p.shape = .ok s ∧ fields[i]? = some (p.fieldName i, s) := by
  unfold Parameter.fields at h
  obtain ⟨ss, hss, -, rfl⟩ := fieldsFrom_zero_eq_ok_iff.1 h
  have hlength : (fieldNames ps).length = ps.length := by
    rw [fieldNames_eq_mapIdx, List.length_mapIdx]
  obtain ⟨hshapes, hget⟩ := List.forall₂_iff_get.1 hss
  refine ⟨by rw [List.length_zip, hlength, ← hshapes, Nat.min_self], ?_⟩
  intro i p hp
  obtain ⟨hi, rfl⟩ := List.getElem?_eq_some_iff.1 hp
  have hshape := hget i hi (hshapes ▸ hi)
  refine ⟨_, hshape, List.getElem?_zip_eq_some.2 ⟨?_, ?_⟩⟩
  · rw [getElem?_fieldNames, hp, Option.map_some]
  · exact List.getElem?_eq_getElem _

end Parameter

namespace Event

/-- The shape of an event is made of the two halves of its fields. -/
theorem shape_eq_ok_iff {e : Event} {s : EventShape} :
    e.shape = .ok s ↔ ∃ fields, Parameter.fields e.name e.inputs = .ok fields ∧
      s = ⟨Fields.select true fields e.inputs, Fields.select false fields e.inputs⟩ := by
  unfold Event.shape
  rw [Except.bind_eq_ok_iff]
  simp only [Except.pure_eq_ok_iff, eq_comm (b := s)]

/-! ### Main statement -/

/-- An event has a shape exactly if all its inputs have one and no two of its fields share a name,
whichever half they are in. The halves are then merged into one field for each input: of its name,
or else its position among all inputs, and of its shape. -/
theorem shape_merges (e : Event) :
    ((∃ s, e.shape = .ok s) ↔ (∀ p ∈ e.inputs, ∃ s, p.shape = .ok s) ∧
      (e.inputs.mapIdx fun i p => p.fieldName i).Nodup) ∧
    ∀ s, e.shape = .ok s → ∃ fields, Fields.merge? e.inputs s.indexed s.data = some fields ∧
      fields.length = e.inputs.length ∧ ∀ (i : Nat) (p : Parameter), e.inputs[i]? = some p →
        ∃ t, p.shape = .ok t ∧ fields[i]? = some (p.fieldName i, t) := by
  constructor
  · rw [← Parameter.exists_fields_iff e.name]
    constructor
    · rintro ⟨s, hs⟩
      obtain ⟨fields, hfields, -⟩ := shape_eq_ok_iff.1 hs
      exact ⟨fields, hfields⟩
    · rintro ⟨fields, hfields⟩
      exact ⟨_, shape_eq_ok_iff.2 ⟨fields, hfields, rfl⟩⟩
  · intro s hs
    obtain ⟨fields, hfields, rfl⟩ := shape_eq_ok_iff.1 hs
    obtain ⟨hlength, hget⟩ := Parameter.getElem?_fields hfields
    exact ⟨fields, Fields.merge?_select hlength, hlength, hget⟩

/-- An event in which the halves alternate and the field without a name is the third one. -/
theorem shape_merges_of_alternating :
    let e : Event := ⟨"Sale", [⟨"address", "seller", true, none, none⟩, .plain "uint" "price",
      ⟨"bytes32", "", true, none, none⟩, .plain "uint8[2]" "sizes"], false⟩
    let s : EventShape := ⟨
      [("seller", .elementary .address), ("2", .elementary (.bytes (some 32)))],
      [("price", .elementary (.integer false 256)),
        ("sizes", .fixedArray (.elementary (.integer false 8)) 2)]⟩
    e.shape = .ok s ∧ ∃ fields, Fields.merge? e.inputs s.indexed s.data = some fields ∧
      fields.length = 4 ∧ ∀ (i : Nat) (p : Parameter), e.inputs[i]? = some p →
        ∃ t, p.shape = .ok t ∧ fields[i]? = some (p.fieldName i, t) := by
  intro e s
  have hshape : e.shape = .ok s := by with_unfolding_all rfl
  exact ⟨hshape, (shape_merges e).2 s hshape⟩

end Event

end ContractAbi
