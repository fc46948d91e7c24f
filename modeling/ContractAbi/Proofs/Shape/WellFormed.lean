import ContractAbi.Proofs.Except
import ContractAbi.Proofs.Shape.Notation

/-!
# Resolved shapes are well formed

A parameter that has a shape has one in which, at every depth, widths and lengths are such as the
notation can express and no two fields of a tuple share a name. Main statement:

    p.shape = .ok s → s.WellFormed
-/

namespace ContractAbi

namespace Shape

mutual

/-- Whether the widths, the lengths and the names of the fields are proper at every depth. -/
def WellFormed : Shape → Prop
  | elementary kind => kind.WellFormed
  | fixedArray element length => element.WellFormed ∧ (Suffix.fixed length).WellFormed
  | dynamicArray element => element.WellFormed
  | struct fields => (fields.map Prod.fst).Nodup ∧ WellFormedFields fields

/-- Whether the shapes of some fields are well formed. -/
def WellFormedFields : Fields → Prop
  | [] => True
  | (_, shape) :: rest => shape.WellFormed ∧ WellFormedFields rest

end

theorem wellFormed_wrap {s : Shape} {x : Suffix} (hs : s.WellFormed) (hx : x.WellFormed) :
    (x.wrap s).WellFormed := by
  cases x with
  | dynamic => exact hs
  | fixed n => exact ⟨hs, hx⟩

theorem wellFormed_wrapAll {s : Shape} {xs : List Suffix} (hs : s.WellFormed)
    (hxs : ∀ x ∈ xs, x.WellFormed) : (s.wrapAll xs).WellFormed := by
  induction xs generalizing s with
  | nil => exact hs
  | cons x xs ih =>
    exact ih (wellFormed_wrap hs (hxs x (by simp))) fun y hy => hxs y (by simp [hy])

theorem wellFormed_of_mem {fields : Fields} {name : String} {s : Shape}
    (h : WellFormedFields fields) (hmem : (name, s) ∈ fields) : s.WellFormed := by
  induction fields with
  | nil => cases hmem
  | cons field fields ih =>
    rcases List.mem_cons.1 hmem with rfl | hmem
    · exact h.1
    · exact ih h.2 hmem

/-- Whether a shape occurs in another: as that shape itself, or at any depth as the shape of its
elements or of a field of it. -/
inductive OccursIn (t : Shape) : Shape → Prop
  | self : OccursIn t t
  | fixedArray {element length} : OccursIn t element → OccursIn t (.fixedArray element length)
  | dynamicArray {element} : OccursIn t element → OccursIn t (.dynamicArray element)
  | field {name s fields} : (name, s) ∈ fields → OccursIn t s → OccursIn t (.struct fields)

/-- What occurs in a well-formed shape is well formed. -/
theorem OccursIn.wellFormed {s t : Shape} (h : t.OccursIn s) (hs : s.WellFormed) :
    t.WellFormed := by
  induction h with
  | self => exact hs
  | fixedArray _ ih => exact ih hs.1
  | dynamicArray _ ih => exact ih hs
  | field hmem _ ih => exact ih (wellFormed_of_mem hs.2 hmem)

end Shape

namespace Parameter

/-! ### What a resolved parameter consists of -/

/-- The base, the suffixes and the shape of the base of a parameter that has a shape. -/
theorem shape_eq_ok_iff {type name : String} {indexed : Bool} {internalType : Option String}
    {components : Option (List Parameter)} {s : Shape} :
    Parameter.shape ⟨type, name, indexed, internalType, components⟩ = .ok s ↔
      ∃ base xs, Suffix.split type = .ok (base, xs) ∧
        ((base = "tuple" ∧ ∃ ps fields, components = some ps ∧
            fieldsFrom type 0 [] ps = .ok fields ∧ s = (Shape.struct fields).wrapAll xs) ∨
          (base ≠ "tuple" ∧ ∃ kind, Elementary.ofName base = .ok kind ∧
            s = (Shape.elementary kind).wrapAll xs)) := by
  rw [Parameter.shape, Except.bind_eq_ok_iff]
  constructor
  · rintro ⟨⟨base, xs⟩, hsplit, h⟩
    refine ⟨base, xs, hsplit, ?_⟩
    dsimp only at h
    split at h
    · next hb =>
      cases components with
      | none => exact absurd h Except.throw_ne_ok
      | some ps =>
        obtain ⟨fields, hf, h⟩ := Except.bind_eq_ok_iff.1 h
        exact .inl ⟨hb, ps, fields, rfl, hf, (Except.pure_eq_ok_iff.1 h).symm⟩
    · next hb =>
      obtain ⟨kind, hk, h⟩ := Except.bind_eq_ok_iff.1 h
      exact .inr ⟨hb, kind, hk, (Except.pure_eq_ok_iff.1 h).symm⟩
  · rintro ⟨base, xs, hsplit, ⟨hb, ps, fields, rfl, hf, rfl⟩ | ⟨hb, kind, hk, rfl⟩⟩
    · refine ⟨(base, xs), hsplit, ?_⟩
      simp only [hb, if_true, hf]
      rfl
    · refine ⟨(base, xs), hsplit, ?_⟩
      simp only [hb, if_false, hk]
      rfl

/-- The fields of a list of parameters: names that are not taken, and the shapes in order. -/
theorem fieldsFrom_cons_eq_ok_iff {owner : String} {position : Nat} {taken : List String}
    {p : Parameter} {ps : List Parameter} {fields : Fields} :
    fieldsFrom owner position taken (p :: ps) = .ok fields ↔
      p.fieldName position ∉ taken ∧ ∃ s rest, p.shape = .ok s ∧
        fieldsFrom owner (position + 1) (p.fieldName position :: taken) ps = .ok rest ∧
        fields = (p.fieldName position, s) :: rest := by
  rw [fieldsFrom]
  dsimp only
  constructor
  · intro h
    split at h
    · exact absurd h Except.throw_bind_ne_ok
    · next hn =>
      obtain ⟨s, hs, h⟩ := Except.bind_eq_ok_iff.1 h
      obtain ⟨rest, hr, h⟩ := Except.bind_eq_ok_iff.1 h
      exact ⟨hn, s, rest, hs, hr, (Except.pure_eq_ok_iff.1 h).symm⟩
  · rintro ⟨hn, s, rest, hs, hr, rfl⟩
    rw [if_neg hn, hs]
    apply Except.bind_eq_ok_iff.2
    refine ⟨s, rfl, ?_⟩
    rw [Except.bind_eq_ok_iff]
    exact ⟨rest, hr, rfl⟩

theorem shapes_cons_eq_ok_iff {p : Parameter} {ps : List Parameter} {ss : List Shape} :
    shapes (p :: ps) = .ok ss ↔
      ∃ s rest, p.shape = .ok s ∧ shapes ps = .ok rest ∧ ss = s :: rest := by
  rw [shapes]
  constructor
  · intro h
    obtain ⟨s, hs, h⟩ := Except.bind_eq_ok_iff.1 h
    obtain ⟨rest, hr, h⟩ := Except.bind_eq_ok_iff.1 h
    exact ⟨s, rest, hs, hr, (Except.pure_eq_ok_iff.1 h).symm⟩
  · rintro ⟨s, rest, hs, hr, rfl⟩
    rw [Except.bind_eq_ok_iff]
    refine ⟨s, hs, ?_⟩
    rw [Except.bind_eq_ok_iff]
    exact ⟨rest, hr, rfl⟩

theorem length_of_shapes {ps : List Parameter} {ss : List Shape}
    (h : shapes ps = .ok ss) : ss.length = ps.length := by
  induction ps generalizing ss with
  | nil =>
    obtain rfl := Except.pure_eq_ok_iff.1 h
    rfl
  | cons p ps ih =>
    obtain ⟨s, rest, -, hrest, rfl⟩ := shapes_cons_eq_ok_iff.1 h
    exact congrArg Nat.succ (ih hrest)

/-! ### The invariant of resolving -/

mutual

theorem wellFormed_of_shape : ∀ {p : Parameter} {s : Shape}, p.shape = .ok s → s.WellFormed
  | ⟨type, _, _, _, components⟩, s, h => by
    obtain ⟨base, xs, hsplit, h⟩ := shape_eq_ok_iff.1 h
    have hxs := (Suffix.split_eq_ok_iff.1 hsplit).2.1
    rcases h with ⟨-, ps, fields, hps, hf, rfl⟩ | ⟨-, kind, hk, rfl⟩
    · cases components with
      | none => cases hps
      | some qs =>
        obtain rfl := Option.some.inj hps
        have hfields := wellFormed_of_fieldsFrom hf
        exact Shape.wellFormed_wrapAll ⟨hfields.1, hfields.2.2⟩ hxs
    · exact Shape.wellFormed_wrapAll (Elementary.ofName_eq_ok_iff.1 hk).1 hxs
termination_by structural p => p

theorem wellFormed_of_fieldsFrom : ∀ {ps : List Parameter} {owner : String} {position : Nat}
    {taken : List String} {fields : Fields}, fieldsFrom owner position taken ps = .ok fields →
      (fields.map Prod.fst).Nodup ∧ (∀ f ∈ fields, f.1 ∉ taken) ∧ Shape.WellFormedFields fields
  | [], _, _, _, fields, h => by
    obtain rfl := Except.pure_eq_ok_iff.1 h
    exact ⟨List.nodup_nil, by simp, trivial⟩
  | p :: ps, owner, position, taken, fields, h => by
    obtain ⟨hn, s, rest, hs, hr, rfl⟩ := fieldsFrom_cons_eq_ok_iff.1 h
    -- the later names avoid this one because it counts as taken from here on
    obtain ⟨hnodup, hnot, hwf⟩ := wellFormed_of_fieldsFrom hr
    refine ⟨?_, ?_, wellFormed_of_shape hs, hwf⟩
    · rw [List.map_cons, List.nodup_cons]
      refine ⟨?_, hnodup⟩
      intro hm
      obtain ⟨f, hf, e⟩ := List.mem_map.1 hm
      exact hnot f hf (by simp [e])
    · intro f hf
      rcases List.mem_cons.1 hf with rfl | hf
      · exact hn
      · intro ht
        exact hnot f hf (by simp [ht])
termination_by structural ps => ps

end

theorem wellFormed_of_shapes {ps : List Parameter} {ss : List Shape} (h : shapes ps = .ok ss) :
    ∀ s ∈ ss, s.WellFormed := by
  induction ps generalizing ss with
  | nil =>
    obtain rfl := Except.pure_eq_ok_iff.1 h
    simp
  | cons p ps ih =>
    obtain ⟨s, rest, hs, hr, rfl⟩ := shapes_cons_eq_ok_iff.1 h
    intro t ht
    rcases List.mem_cons.1 ht with rfl | ht
    · exact wellFormed_of_shape hs
    · exact ih hr t ht

end Parameter

end ContractAbi
