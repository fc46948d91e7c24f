import ContractAbi.Binding
import ContractAbi.Proofs.Except
import ContractAbi.Proofs.Shape.WellFormed

/-!
# Where binding fails

A value that does not bind has a first part that does not fit by itself: an atom that is refused, a
value of another kind, or a tuple or an array without the right items. The error tells this part
and the shape that it should have, and the parts before it bind. Main statement:
`Shape.bind_eq_error_iff_firstMisfit`.
-/

namespace ContractAbi

namespace Shape

/-- Whether a value binds to a shape. -/
def Binds (s : Shape) (v : Json) : Prop :=
  ∃ a, s.bind v = .ok a

/-! ### The parts of a value -/

/-- The items of the fields before the first one whose name is missing, with their shapes. -/
def memberParts (members : Json.Members) : Fields → List (Shape × Json)
  | [] => []
  | (name, s) :: rest =>
    match members.get? name with
    | some item => (s, item) :: memberParts members rest
    | none => []

/-- The elements of an array or the items of the fields of a tuple, in their order and with their
shapes. There are none where the value has another kind or another number of them, and only those
before the first field that is missing. -/
def parts : Shape → Json → List (Shape × Json)
  | fixedArray element length, .array items =>
    if items.length = length then items.map (element, ·) else []
  | dynamicArray element, .array items => items.map (element, ·)
  | struct fields, .array items =>
    if items.length = fields.length then (fields.map Prod.snd).zip items else []
  | struct fields, .object members =>
    if members.length = fields.length then memberParts members fields else []
  | _, _ => []

/-- Whether a value does not fit a shape by itself, whatever its parts are. -/
inductive Misfit : Shape → Json → Prop
  | atom {kind v} : kind.bind? v = none → Misfit (.elementary kind) v
  | notFixedArray {element length v} : (∀ items, v ≠ .array items) →
      Misfit (.fixedArray element length) v
  | elementCount {element length items} : items.length ≠ length →
      Misfit (.fixedArray element length) (.array items)
  | notDynamicArray {element v} : (∀ items, v ≠ .array items) → Misfit (.dynamicArray element) v
  | notTuple {fields v} : (∀ items, v ≠ .array items) → (∀ members, v ≠ .object members) →
      Misfit (.struct fields) v
  | itemCount {fields items} : items.length ≠ fields.length → Misfit (.struct fields) (.array items)
  | memberCount {fields members} : members.length ≠ fields.length →
      Misfit (.struct fields) (.object members)
  | missingField {fields members field} : field ∈ fields →
      Json.Members.get? members field.1 = none → Misfit (.struct fields) (.object members)

/-- Whether `w` is the first part of `v`, at any depth, that does not fit by itself, and `t` is the
shape that stands in `s` where `w` stands in `v`. The parts before it bind. -/
inductive FirstMisfit : Shape → Json → Shape → Json → Prop
  | here {s v} : Misfit s v → (∀ part ∈ s.parts v, part.1.Binds part.2) → FirstMisfit s v s v
  | inside {s v before t w after t' w'} : s.parts v = before ++ (t, w) :: after →
      (∀ part ∈ before, part.1.Binds part.2) → FirstMisfit t w t' w' → FirstMisfit s v t' w'

/-! ### Misfits of the values of the right kind -/

theorem misfit_elementary_iff {kind : Elementary} {v : Json} :
    (elementary kind).Misfit v ↔ kind.bind? v = none := by
  constructor
  · intro h
    cases h with
    | atom h => exact h
  · exact .atom

theorem misfit_fixedArray_iff {element : Shape} {length : Nat} {items : List Json} :
    (fixedArray element length).Misfit (.array items) ↔ items.length ≠ length := by
  constructor
  · intro h
    cases h with
    | notFixedArray h => exact absurd rfl (h _)
    | elementCount h => exact h
  · exact .elementCount

theorem not_misfit_dynamicArray {element : Shape} {items : List Json} :
    ¬(dynamicArray element).Misfit (.array items) := by
  intro h
  cases h with
  | notDynamicArray h => exact h _ rfl

theorem misfit_positions_iff {fields : Fields} {items : List Json} :
    (struct fields).Misfit (.array items) ↔ items.length ≠ fields.length := by
  constructor
  · intro h
    cases h with
    | notTuple h _ => exact absurd rfl (h _)
    | itemCount h => exact h
  · exact .itemCount

theorem misfit_members_iff {fields : Fields} {members : Json.Members}
    (hlength : members.length = fields.length) :
    (struct fields).Misfit (.object members) ↔
      ∃ field ∈ fields, members.get? field.1 = none := by
  constructor
  · intro h
    cases h with
    | notTuple _ h => exact absurd rfl (h _)
    | memberCount h => exact absurd hlength h
    | missingField hfield hnone => exact ⟨_, hfield, hnone⟩
  · rintro ⟨field, hfield, hnone⟩
    exact .missingField hfield hnone

/-! ### Parts and the shapes in a shape -/

theorem mem_of_mem_memberParts {members : Json.Members} {fields : Fields} {s : Shape} {v : Json}
    (h : (s, v) ∈ memberParts members fields) : ∃ name, (name, s) ∈ fields := by
  induction fields with
  | nil => cases h
  | cons field rest ih =>
    obtain ⟨name, t⟩ := field
    rw [memberParts] at h
    split at h
    · rcases List.mem_cons.1 h with h | h
      · obtain ⟨rfl, -⟩ := Prod.mk.inj h
        exact ⟨name, List.mem_cons_self⟩
      · exact (ih h).imp fun _ => List.mem_cons_of_mem _
    · cases h

/-- A part has the shape of the elements or of a field. -/
theorem of_mem_parts {s t : Shape} {v w : Json} (h : (t, w) ∈ s.parts v) :
    (∃ length, s = .fixedArray t length) ∨ s = .dynamicArray t ∨
      ∃ fields name, s = .struct fields ∧ (name, t) ∈ fields := by
  unfold parts at h
  split at h
  · split at h
    · obtain ⟨item, -, hitem⟩ := List.mem_map.1 h
      obtain ⟨rfl, -⟩ := Prod.mk.inj hitem
      exact .inl ⟨_, rfl⟩
    · cases h
  · obtain ⟨item, -, hitem⟩ := List.mem_map.1 h
    obtain ⟨rfl, -⟩ := Prod.mk.inj hitem
    exact .inr (.inl rfl)
  · split at h
    · obtain ⟨⟨name, t⟩, hfield, rfl⟩ := List.mem_map.1 (List.of_mem_zip h).1
      exact .inr (.inr ⟨_, name, rfl, hfield⟩)
    · cases h
  · split at h
    · obtain ⟨name, hname⟩ := mem_of_mem_memberParts h
      exact .inr (.inr ⟨_, name, rfl, hname⟩)
    · cases h
  · cases h

theorem OccursIn.of_part {s t u : Shape} {v w : Json} (ht : t.OccursIn u)
    (h : (u, w) ∈ s.parts v) : t.OccursIn s := by
  rcases of_mem_parts h with ⟨length, rfl⟩ | rfl | ⟨fields, name, rfl, hmem⟩
  · exact .fixedArray ht
  · exact .dynamicArray ht
  · exact .field hmem ht

theorem sizeOf_lt_of_mem_parts {s t : Shape} {v w : Json} (h : (t, w) ∈ s.parts v) :
    sizeOf t < sizeOf s := by
  rcases of_mem_parts h with ⟨length, rfl⟩ | rfl | ⟨fields, name, rfl, hmem⟩
  · simp; omega
  · simp
  · have := List.sizeOf_lt_of_mem hmem
    simp at this ⊢
    omega

theorem FirstMisfit.occursIn {s t : Shape} {v w : Json} (h : s.FirstMisfit v t w) :
    t.OccursIn s := by
  induction h with
  | here => exact .self
  | @inside s v before t w after t' w' hparts _ _ ih =>
    have hmem : (t, w) ∈ s.parts v := by rw [hparts]; simp
    exact ih.of_part hmem

/-! ### Failing at a part -/

/-- Whether of some parts, taken in order, one fails with an error and those before it bind. -/
def FirstFails (parts : List (Shape × Json)) (e : AbiError) : Prop :=
  ∃ before s v after, parts = before ++ (s, v) :: after ∧
    (∀ part ∈ before, part.1.Binds part.2) ∧ s.bind v = .error e

theorem not_firstFails_nil {e : AbiError} : ¬FirstFails [] e := by
  rintro ⟨before, s, v, after, h, -⟩
  exact List.append_ne_nil_of_right_ne_nil before (List.cons_ne_nil _ _) h.symm

theorem firstFails_cons {s : Shape} {v : Json} {rest : List (Shape × Json)} {e : AbiError} :
    FirstFails ((s, v) :: rest) e ↔ s.bind v = .error e ∨ s.Binds v ∧ FirstFails rest e := by
  constructor
  · rintro ⟨_ | ⟨part, before⟩, t, w, after, h, hbefore, hfails⟩
    · obtain ⟨⟨rfl, rfl⟩, rfl⟩ : (s = t ∧ v = w) ∧ rest = after := by simpa using h
      exact .inl hfails
    · obtain ⟨rfl, rfl⟩ := List.cons.inj h
      rw [List.forall_mem_cons] at hbefore
      exact .inr ⟨hbefore.1, before, t, w, after, rfl, hbefore.2, hfails⟩
  · rintro (h | ⟨hbinds, before, t, w, after, rfl, hbefore, hfails⟩)
    · exact ⟨[], s, v, rest, rfl, by simp, h⟩
    · exact ⟨(s, v) :: before, t, w, after, rfl, List.forall_mem_cons.2 ⟨hbinds, hbefore⟩, hfails⟩

theorem mapM_bind_eq_error_iff {element : Shape} {items : List Json} {e : AbiError} :
    items.mapM element.bind = .error e ↔ FirstFails (items.map (element, ·)) e := by
  induction items with
  | nil => exact iff_of_false nofun not_firstFails_nil
  | cons item items ih =>
    rw [List.map_cons, firstFails_cons, ← ih, List.mapM_cons, Except.bind_bind_pure_eq_error_iff]
    rfl

theorem bindPositions_eq_error_iff {items : List Json} {fields : Fields} {e : AbiError}
    (hlength : items.length = fields.length) :
    bindPositions items fields = .error e ↔ FirstFails ((fields.map Prod.snd).zip items) e := by
  induction fields generalizing items with
  | nil =>
    obtain rfl := List.length_eq_zero_iff.1 hlength
    exact iff_of_false nofun not_firstFails_nil
  | cons field fields ih =>
    match items with
    | item :: items =>
      rw [List.map_cons, List.zip_cons_cons, firstFails_cons, ← ih (Nat.succ.inj hlength),
        bindPositions, Except.bind_bind_pure_eq_error_iff]
      rfl

/-- An object fails at the first item that does not bind, if no field before it is missing, and
else because a field is missing. -/
theorem bindMembers_eq_error_iff {members : Json.Members} {fields : Fields} {missing e : AbiError} :
    bindMembers missing members fields = .error e ↔
      FirstFails (memberParts members fields) e ∨
        (∀ part ∈ memberParts members fields, part.1.Binds part.2) ∧
          (∃ field ∈ fields, members.get? field.1 = none) ∧ e = missing := by
  induction fields with
  | nil =>
    refine iff_of_false nofun ?_
    rintro (h | ⟨-, ⟨field, hfield, -⟩, -⟩)
    · exact not_firstFails_nil h
    · cases hfield
  | cons field fields ih =>
    obtain ⟨name, s⟩ := field
    rw [bindMembers, memberParts]
    cases hitem : members.get? name with
    | none =>
      -- the field itself is the one that is missing
      have hmissing : ∃ field ∈ (name, s) :: fields, members.get? field.1 = none :=
        ⟨_, List.mem_cons_self, hitem⟩
      show Except.error missing = .error e ↔ FirstFails [] e ∨ _
      rw [Except.error.injEq, or_iff_right not_firstFails_nil, and_iff_right (by simp),
        and_iff_right hmissing, eq_comm]
    | some item =>
      have hrest : (∃ field ∈ (name, s) :: fields, members.get? field.1 = none) ↔
          ∃ field ∈ fields, members.get? field.1 = none := by
        simp [hitem]
      dsimp only
      rw [Except.bind_bind_pure_eq_error_iff, ih, firstFails_cons, List.forall_mem_cons, hrest,
        and_or_left, or_assoc, and_assoc]
      rfl

/-! ### Failing by itself or at a part -/

theorem error_iff_of_misfit {s : Shape} {v : Json} {e : AbiError}
    (hbind : s.bind v = .error (s.mismatch v)) (hmisfit : s.Misfit v) (hparts : s.parts v = []) :
    s.bind v = .error e ↔ FirstFails (s.parts v) e ∨
      (∀ part ∈ s.parts v, part.1.Binds part.2) ∧ s.Misfit v ∧ e = s.mismatch v := by
  rw [hbind, hparts, Except.error.injEq, or_iff_right not_firstFails_nil, and_iff_right (by simp),
    and_iff_right hmisfit, eq_comm]

theorem error_iff_of_not_misfit {s : Shape} {v : Json} {e : AbiError}
    (hbind : s.bind v = .error e ↔ FirstFails (s.parts v) e) (hmisfit : ¬s.Misfit v) :
    s.bind v = .error e ↔ FirstFails (s.parts v) e ∨
      (∀ part ∈ s.parts v, part.1.Binds part.2) ∧ s.Misfit v ∧ e = s.mismatch v :=
  hbind.trans (or_iff_left fun h => hmisfit h.2.1).symm

/-- Binding fails at the first part that does not bind; where all parts bind, it fails if the value
does not fit by itself. -/
theorem bind_eq_error_iff_parts {s : Shape} {v : Json} {e : AbiError} :
    s.bind v = .error e ↔ FirstFails (s.parts v) e ∨
      (∀ part ∈ s.parts v, part.1.Binds part.2) ∧ s.Misfit v ∧ e = s.mismatch v := by
  cases s with
  | elementary kind =>
    cases hkind : kind.bind? v with
    | none => exact error_iff_of_misfit (by rw [bind, hkind]; rfl) (.atom hkind) rfl
    | some a =>
      apply error_iff_of_not_misfit
      · rw [bind, hkind]
        exact iff_of_false nofun not_firstFails_nil
      · rw [misfit_elementary_iff, hkind]
        exact Option.some_ne_none a
  | fixedArray element length =>
    cases v with
    | array items =>
      by_cases hlength : items.length = length
      · apply error_iff_of_not_misfit
        · rw [bind, if_neg (not_not_intro hlength), parts, if_pos hlength,
            Except.bind_pure_eq_error_iff, mapM_bind_eq_error_iff]
        · rw [misfit_fixedArray_iff]
          exact not_not_intro hlength
      · exact error_iff_of_misfit (by rw [bind, if_pos hlength]; rfl) (.elementCount hlength)
          (if_neg hlength)
    | _ => exact error_iff_of_misfit rfl (.notFixedArray nofun) rfl
  | dynamicArray element =>
    cases v with
    | array items =>
      refine error_iff_of_not_misfit ?_ not_misfit_dynamicArray
      rw [bind, parts, Except.bind_pure_eq_error_iff, mapM_bind_eq_error_iff]
    | _ => exact error_iff_of_misfit rfl (.notDynamicArray nofun) rfl
  | struct fields =>
    cases v with
    | array items =>
      by_cases hlength : items.length = fields.length
      · apply error_iff_of_not_misfit
        · rw [bind, if_neg (not_not_intro hlength), parts, if_pos hlength,
            Except.bind_pure_eq_error_iff, bindPositions_eq_error_iff hlength]
        · rw [misfit_positions_iff]
          exact not_not_intro hlength
      · exact error_iff_of_misfit (by rw [bind, if_pos hlength]; rfl) (.itemCount hlength)
          (if_neg hlength)
    | object members =>
      by_cases hlength : members.length = fields.length
      · -- a field may be missing behind parts that bind, so both ways to fail are open here
        rw [misfit_members_iff hlength, bind, if_neg (not_not_intro hlength), parts,
          if_pos hlength, Except.bind_pure_eq_error_iff, bindMembers_eq_error_iff]
      · exact error_iff_of_misfit (by rw [bind, if_pos hlength]; rfl) (.memberCount hlength)
          (if_neg hlength)
    | _ => exact error_iff_of_misfit rfl (.notTuple nofun nofun) rfl

theorem exists_firstMisfit {s : Shape} {v : Json} {e : AbiError} (h : s.bind v = .error e) :
    ∃ t w, s.FirstMisfit v t w ∧ e = t.mismatch w := by
  rcases bind_eq_error_iff_parts.1 h with ⟨before, t, w, after, hparts, hbefore, hfails⟩ |
    ⟨hparts, hmisfit, rfl⟩
  · have hmem : (t, w) ∈ s.parts v := by rw [hparts]; simp
    have := sizeOf_lt_of_mem_parts hmem
    obtain ⟨t', w', hfirst, he⟩ := exists_firstMisfit hfails
    exact ⟨t', w', .inside hparts hbefore hfirst, he⟩
  · exact ⟨s, v, .here hmisfit hparts, rfl⟩
termination_by sizeOf s

theorem bind_of_firstMisfit {s t : Shape} {v w : Json} (h : s.FirstMisfit v t w) :
    s.bind v = .error (t.mismatch w) := by
  induction h with
  | here hmisfit hparts => exact bind_eq_error_iff_parts.2 (.inr ⟨hparts, hmisfit, rfl⟩)
  | inside hparts hbefore _ ih =>
    exact bind_eq_error_iff_parts.2 (.inl ⟨_, _, _, _, hparts, hbefore, ih⟩)

/-! ### Main statement -/

/-- Binding fails exactly if some part is the first that does not fit by itself. The error tells
this part and the shape that it should have. -/
theorem bind_eq_error_iff_firstMisfit {s : Shape} {v : Json} {e : AbiError} :
    s.bind v = .error e ↔ ∃ t w, s.FirstMisfit v t w ∧ t.OccursIn s ∧ e = .valueMismatch t w ∧
      e.message = "expected " ++ t.display ++ ", found " ++ w.compact := by
  constructor
  · intro h
    obtain ⟨t, w, hfirst, rfl⟩ := exists_firstMisfit h
    exact ⟨t, w, hfirst, hfirst.occursIn, rfl, rfl⟩
  · rintro ⟨t, w, hfirst, -, rfl, -⟩
    exact bind_of_firstMisfit hfirst

/-- A number too large in the second of two tuples, which is given in the order of the fields. A
later item of the array and a later field do not bind either; in the object this field stands
first. -/
theorem bind_eq_error_of_late :
    let uint8 : Shape := .elementary (.integer false 8)
    let pair : Shape := .struct [("x", uint8), ("y", .elementary .bool)]
    let s : Shape := .struct [("pairs", .dynamicArray pair), ("flag", .elementary .bool)]
    let large : Json := .number (.integer 300)
    let first : Json := .object [("x", .number (.integer 3)), ("y", .bool true)]
    let second : Json := .array [large, .null]
    let v : Json := .object [("flag", .null), ("pairs", .array [first, second, .null])]
    s.bind v = .error (.valueMismatch uint8 large) ∧
      (AbiError.valueMismatch uint8 large).message = "expected uint8, found 300" := by
  intro uint8 pair s large first second v
  have hfirst : pair.Binds first :=
    ⟨.struct [("x", .atom (.uint 8 3)), ("y", .atom (.bool true))], rfl⟩
  have hlarge : uint8.FirstMisfit large uint8 large := .here (.atom rfl) (List.forall_mem_nil _)
  have hsecond : pair.FirstMisfit second uint8 large := by
    have hparts : pair.parts second = [] ++ (uint8, large) :: [(.elementary .bool, .null)] := rfl
    exact .inside hparts (List.forall_mem_nil _) hlarge
  have hpairs :
      (Shape.dynamicArray pair).FirstMisfit (.array [first, second, .null]) uint8 large := by
    have hparts : (Shape.dynamicArray pair).parts (.array [first, second, .null]) =
        [(pair, first)] ++ (pair, second) :: [(pair, .null)] := rfl
    exact .inside hparts (by simpa using hfirst) hsecond
  have hv : s.FirstMisfit v uint8 large := by
    have hparts : s.parts v =
        [] ++ (.dynamicArray pair, .array [first, second, .null]) ::
          [(.elementary .bool, .null)] := rfl
    exact .inside hparts (List.forall_mem_nil _) hpairs
  have hmessage : (AbiError.valueMismatch uint8 large).message = "expected uint8, found 300" := by
    decide +kernel
  exact ⟨bind_eq_error_iff_firstMisfit.2 ⟨uint8, large, hv, hv.occursIn, rfl, rfl⟩, hmessage⟩

end Shape

end ContractAbi
