import ContractAbi.Proofs.Shape.Canonical

/-!
# What a signature identifies

A signature tells the name of a function and the shapes of its inputs, but not the names of fields
in them, and nothing else: two functions have one signature exactly if they agree in these.
-/

namespace ContractAbi

namespace Shape

theorem map_canonicalChars_eq_iff {ss ts : List Shape} (hs : ∀ s ∈ ss, s.WellFormed)
    (ht : ∀ t ∈ ts, t.WellFormed) :
    ss.map canonicalChars = ts.map canonicalChars ↔ ss.map eraseNames = ts.map eraseNames := by
  induction ss generalizing ts with
  | nil => cases ts <;> simp
  | cons s ss ih =>
    cases ts with
    | nil => simp
    | cons t ts =>
      rw [List.forall_mem_cons] at hs ht
      simp only [List.map_cons, List.cons.injEq, canonicalChars_eq_iff hs.1 ht.1, ih hs.2 ht.2]

theorem intercalate_canonicalChars_eq_iff {ss ts : List Shape} (hs : ∀ s ∈ ss, s.WellFormed)
    (ht : ∀ t ∈ ts, t.WellFormed) :
    List.intercalate [','] (ss.map canonicalChars) =
        List.intercalate [','] (ts.map canonicalChars) ↔
      ss.map eraseNames = ts.map eraseNames := by
  have hmem : ∀ us : List Shape, ∀ x ∈ us.map canonicalChars, Text.IsMember x ∧ x ≠ [] := by
    intro us x hx
    obtain ⟨u, -, rfl⟩ := List.mem_map.1 hx
    exact ⟨isMember_canonicalChars u, canonicalChars_ne_nil u⟩
  rw [← map_canonicalChars_eq_iff hs ht]
  constructor
  · exact Text.intercalate_injective (hmem ss) (hmem ts)
  · intro h
    rw [h]

end Shape

theorem Parameter.canonicalType_eq_iff {p q : Parameter} {s t : Shape} (hp : p.shape = .ok s)
    (hq : q.shape = .ok t) : p.canonicalType = q.canonicalType ↔ s.eraseNames = t.eraseNames := by
  rw [← String.toList_inj, canonicalType_of_shape hp, canonicalType_of_shape hq]
  exact Shape.canonicalChars_eq_iff (wellFormed_of_shape hp) (wellFormed_of_shape hq)

theorem Parameter.toList_canonicalList {ps : List Parameter} {ss : List Shape}
    (h : shapes ps = .ok ss) :
    (canonicalList ps).toList = List.intercalate [','] (ss.map Shape.canonicalChars) := by
  rw [canonicalList, String.toList_intercalate, canonicalTypes_of_shapes h]
  rfl

theorem Function.toList_signature {f : Function} {ss : List Shape}
    (h : Parameter.shapes f.inputs = .ok ss) :
    f.signature.toList =
      f.name.toList ++ '(' :: (List.intercalate [','] (ss.map Shape.canonicalChars) ++ [')']) := by
  simp [signature, Parameter.toList_canonicalList h]

/-- Signatures identify names and shapes of inputs, canonical types identify shapes. -/
theorem Function.signature_eq_iff :
    (∀ {f g : Function} {ss ts : List Shape}, '(' ∉ f.name.toList → '(' ∉ g.name.toList →
      Parameter.shapes f.inputs = .ok ss → Parameter.shapes g.inputs = .ok ts →
      (f.signature = g.signature ↔
        f.name = g.name ∧ ss.map Shape.eraseNames = ts.map Shape.eraseNames)) ∧
    ∀ {p q : Parameter} {s t : Shape}, p.shape = .ok s → q.shape = .ok t →
      (p.canonicalType = q.canonicalType ↔ s.eraseNames = t.eraseNames) := by
  refine ⟨?_, Parameter.canonicalType_eq_iff⟩
  intro f g ss ts hf hg hfs hgs
  have hlist := Shape.intercalate_canonicalChars_eq_iff (Parameter.wellFormed_of_shapes hfs)
    (Parameter.wellFormed_of_shapes hgs)
  rw [← String.toList_inj, toList_signature hfs, toList_signature hgs, ← hlist,
    ← @String.toList_inj f.name]
  constructor
  · intro h
    -- the name ends at the first parenthesis
    have hcut := Text.cutChars_eq_some_iff.2 ⟨h, hg⟩
    rw [Text.cutChars_eq_some_iff.2 ⟨rfl, hf⟩] at hcut
    obtain ⟨hn, hl⟩ := Prod.mk.inj (Option.some.inj hcut)
    exact ⟨hn, List.append_cancel_right hl⟩
  · rintro ⟨hn, hl⟩
    rw [hn, hl]

/-- Two functions that differ in the names of fields and in how a width is written. -/
theorem Function.signature_eq_iff_of_tuples :
    let p : Parameter :=
      ⟨"tuple[2]", "", false, none, some [.plain "uint" "a", .plain "int8[]" "b"]⟩
    let q : Parameter :=
      ⟨"tuple[2]", "t", true, none, some [.plain "uint256" "x", .plain "int8[]" ""]⟩
    let f : Function := ⟨"transfer", [p], [], .view⟩
    let g : Function := ⟨"transfer", [q], [p], .pure⟩
    '(' ∉ f.name.toList ∧ '(' ∉ g.name.toList ∧ ∃ s t, p.shape = .ok s ∧ q.shape = .ok t ∧
      Parameter.shapes f.inputs = .ok [s] ∧ Parameter.shapes g.inputs = .ok [t] ∧
      (f.signature = g.signature ↔
        f.name = g.name ∧ [s].map Shape.eraseNames = [t].map Shape.eraseNames) ∧
      (p.canonicalType = q.canonicalType ↔ s.eraseNames = t.eraseNames) ∧
      s.eraseNames = t.eraseNames := by
  intro p q f g
  have hp : p.shape = .ok (.fixedArray (.struct [("a", .elementary (.integer false 256)),
      ("b", .dynamicArray (.elementary (.integer true 8)))]) 2) := by
    with_unfolding_all rfl
  have hq : q.shape = .ok (.fixedArray (.struct [("x", .elementary (.integer false 256)),
      ("1", .dynamicArray (.elementary (.integer true 8)))]) 2) := by
    with_unfolding_all rfl
  have hone : ∀ {p : Parameter} {s : Shape}, p.shape = .ok s → Parameter.shapes [p] = .ok [s] :=
    fun h => Parameter.shapes_cons_eq_ok_iff.2 ⟨_, _, h, rfl, rfl⟩
  have hname : '(' ∉ "transfer".toList := by decide
  exact ⟨hname, hname, _, _, hp, hq, hone hp, hone hq,
    Function.signature_eq_iff.1 hname hname (hone hp) (hone hq),
    Function.signature_eq_iff.2 hp hq, by simp [Shape.eraseNames, Shape.eraseFieldNames]⟩

end ContractAbi
