import ContractAbi.Canonical
import ContractAbi.Proofs.Shape.WellFormed
import ContractAbi.Proofs.Text.Parens

/-!
# Canonical types of shapes

The canonical type of a parameter depends on its shape only, and on that only up to the names of
fields. `Shape.canonicalChars` writes it from the shape. What is written for two well-formed
shapes is the same exactly if the shapes are, once their names are erased:

    p.shape = .ok s → p.canonicalType.toList = s.canonicalChars
    s.canonicalChars = t.canonicalChars ↔ s.eraseNames = t.eraseNames
-/

namespace ContractAbi

namespace Shape

mutual

/-- The shape with the names of its fields erased at every depth. -/
def eraseNames : Shape → Shape
  | elementary kind => .elementary kind
  | fixedArray element length => .fixedArray element.eraseNames length
  | dynamicArray element => .dynamicArray element.eraseNames
  | struct fields => .struct (eraseFieldNames fields)

/-- The fields without their names. -/
def eraseFieldNames : Fields → Fields
  | [] => []
  | (_, s) :: rest => ("", s.eraseNames) :: eraseFieldNames rest

end

mutual

/-- The canonical type of the parameters that have this shape. -/
def canonicalChars : Shape → List Char
  | elementary kind => kind.display.toList
  | fixedArray element length =>
    element.canonicalChars ++ '[' :: ((Suffix.fixed length).size ++ [']'])
  | dynamicArray element => element.canonicalChars ++ '[' :: (Suffix.dynamic.size ++ [']'])
  | struct fields => '(' :: (List.intercalate [','] (canonicalFields fields) ++ [')'])

/-- The canonical types of the fields of a tuple. -/
def canonicalFields : Fields → List (List Char)
  | [] => []
  | (_, s) :: rest => s.canonicalChars :: canonicalFields rest

end

theorem canonicalChars_wrap (s : Shape) (x : Suffix) :
    (x.wrap s).canonicalChars = s.canonicalChars ++ '[' :: (x.size ++ [']']) := by
  cases x <;> simp [Suffix.wrap, canonicalChars]

theorem canonicalChars_wrapAll (s : Shape) (xs : List Suffix) :
    (s.wrapAll xs).canonicalChars = s.canonicalChars ++ Suffix.chars xs := by
  induction xs generalizing s with
  | nil => simp [wrapAll, Suffix.chars]
  | cons x xs ih =>
    have ih := ih (x.wrap s)
    rw [wrapAll] at ih ⊢
    rw [List.foldl_cons, ih, canonicalChars_wrap]
    simp [Suffix.chars]

end Shape

/-! ### Parameters -/

theorem Elementary.display_full (signed : Bool) :
    (integer signed 256).display = if signed then "int256" else "uint256" := by
  have hdigits : Decimal.digits 256 = ['2', '5', '6'] := by
    rw [Decimal.digits_of_le (by decide), Decimal.digits_of_le (by decide),
      Decimal.digits_of_lt (by decide)]
    rfl
  have h256 : Decimal.text 256 = "256" := by rw [Decimal.text, hdigits]
  rw [display_integer, h256]
  cases signed <;> rfl

theorem canonicalRoot_of_ofName {base : String} {kind : Elementary}
    (h : Elementary.ofName base = .ok kind) : canonicalRoot base = kind.display := by
  rw [canonicalRoot]
  split
  · next hb =>
    subst hb
    obtain rfl : Elementary.integer false 256 = kind := Except.ok.inj h
    exact (Elementary.display_full false).symm
  split
  · next hb =>
    subst hb
    obtain rfl : Elementary.integer true 256 = kind := Except.ok.inj h
    exact (Elementary.display_full true).symm
  · next hu hi =>
    obtain ⟨-, hd | hs⟩ := Elementary.ofName_eq_ok_iff.1 h
    · exact hd
    · -- the only names that are not displayed are the two that were dealt with
      cases kind with
      | integer signed bits =>
        rw [Elementary.shortName?] at hs
        split at hs
        · cases signed
          · exact absurd (Option.some.inj hs).symm hu
          · exact absurd (Option.some.inj hs).symm hi
        · cases hs
      | _ => cases hs

/-- The root of a type ends where the first bracket is. -/
theorem splitRoot_append {root rest : List Char} (hroot : '[' ∉ root)
    (hrest : ∀ c ∈ rest.head?, c = '[') : splitRoot (root ++ rest) = (root, rest) := by
  have hne : ∀ c ∈ root, decide (c ≠ '[') = true := by
    intro c hc
    refine decide_eq_true ?_
    rintro rfl
    exact hroot hc
  rw [splitRoot, List.takeWhile_append_of_pos hne, List.dropWhile_append_of_pos hne]
  cases rest with
  | nil => simp
  | cons c cs =>
    obtain rfl := hrest c rfl
    simp

theorem splitRoot_of_split {type base : String} {xs : List Suffix}
    (h : Suffix.split type = .ok (base, xs)) :
    splitRoot type.toList = (base.toList, Suffix.chars xs) := by
  obtain ⟨hb, -, e⟩ := Suffix.split_eq_ok_iff.1 h
  rw [e]
  apply splitRoot_append
  · intro hc
    cases hb _ hc
  · cases xs <;> simp [Suffix.chars]

namespace Parameter

mutual

theorem canonicalType_of_shape : ∀ {p : Parameter} {s : Shape}, p.shape = .ok s →
    p.canonicalType.toList = s.canonicalChars
  | ⟨type, _, _, _, components⟩, s, h => by
    obtain ⟨base, xs, hsplit, h⟩ := shape_eq_ok_iff.1 h
    have hroot := splitRoot_of_split hsplit
    rcases h with ⟨rfl, ps, fields, hps, hf, rfl⟩ | ⟨hb, kind, hk, rfl⟩
    · cases components with
      | none => cases hps
      | some qs =>
        obtain rfl := Option.some.inj hps
        have hfields := canonicalTypes_of_fieldsFrom hf
        rw [canonicalType, hroot, Shape.canonicalChars_wrapAll]
        simp [Shape.canonicalChars, hfields]
    · have hk := canonicalRoot_of_ofName hk
      rw [canonicalType.eq_def]
      simp only [hroot, Shape.canonicalChars_wrapAll]
      cases components <;> simp [Shape.canonicalChars, hk, hb]
termination_by structural p => p

theorem canonicalTypes_of_fieldsFrom : ∀ {ps : List Parameter} {owner : String} {position : Nat}
    {taken : List String} {fields : Fields}, fieldsFrom owner position taken ps = .ok fields →
    (canonicalTypes ps).map String.toList = Shape.canonicalFields fields
  | [], _, _, _, fields, h => by
    obtain rfl := Except.pure_eq_ok_iff.1 h
    rfl
  | p :: ps, owner, position, taken, fields, h => by
    obtain ⟨-, s, rest, hs, hr, rfl⟩ := fieldsFrom_cons_eq_ok_iff.1 h
    rw [canonicalTypes, List.map_cons, canonicalType_of_shape hs, canonicalTypes_of_fieldsFrom hr,
      Shape.canonicalFields]
termination_by structural ps => ps

end

theorem canonicalTypes_of_shapes {ps : List Parameter} {ss : List Shape}
    (h : shapes ps = .ok ss) :
    (canonicalTypes ps).map String.toList = ss.map Shape.canonicalChars := by
  induction ps generalizing ss with
  | nil =>
    obtain rfl := Except.pure_eq_ok_iff.1 h
    rfl
  | cons p ps ih =>
    obtain ⟨s, rest, hs, hr, rfl⟩ := shapes_cons_eq_ok_iff.1 h
    rw [canonicalTypes, List.map_cons, canonicalType_of_shape hs, ih hr, List.map_cons]

end Parameter

/-! ### What is written determines the shape -/

theorem Elementary.display_injective {k l : Elementary} (hk : k.WellFormed) (hl : l.WellFormed)
    (h : k.display = l.display) : k = l := by
  have hok := Elementary.ofName_eq_ok_iff.2 ⟨hk, .inl rfl⟩
  rw [h, Elementary.ofName_eq_ok_iff.2 ⟨hl, .inl rfl⟩] at hok
  exact (Except.ok.inj hok).symm

theorem Elementary.isAlphanum_of_mem_display {k : Elementary} {c : Char}
    (h : c ∈ k.display.toList) : c.isAlphanum = true := by
  have hdigit : ∀ {n : Nat}, c ∈ Decimal.digits n → c.isAlphanum = true := by
    intro n hc
    simp [Char.isAlphanum, Decimal.isDigit_of_mem_digits hc]
  have hword : ∀ w ∈ ["address", "bool", "string", "bytes", "int", "uint", "function"],
      ∀ c ∈ w.toList, c.isAlphanum = true := by simp
  cases k with
  | address => exact hword "address" (by simp) c h
  | bool => exact hword "bool" (by simp) c h
  | string => exact hword "string" (by simp) c h
  | function => exact hword "function" (by simp) c h
  | bytes width =>
    cases width with
    | none => exact hword "bytes" (by simp) c h
    | some n =>
      rw [display, String.toList_append, Decimal.toList_text, List.mem_append] at h
      rcases h with h | h
      · exact hword "bytes" (by simp) c h
      · exact hdigit h
  | integer signed bits =>
    rw [display_integer, String.toList_append, Decimal.toList_text, List.mem_append] at h
    rcases h with h | h
    · cases signed
      · exact hword "uint" (by simp) c h
      · exact hword "int" (by simp) c h
    · exact hdigit h

/-- No bracket, parenthesis or comma is in the name of an elementary type. -/
theorem Elementary.not_mem_display {k : Elementary} {c : Char} (h : c.isAlphanum = false) :
    c ∉ k.display.toList := by
  intro hc
  rw [isAlphanum_of_mem_display hc] at h
  cases h

theorem Elementary.display_ne_nil (k : Elementary) : k.display.toList ≠ [] := by
  cases k with
  | bytes width => cases width <;> simp [display]
  | integer signed bits => cases signed <;> simp [display]
  | _ => simp [display]

theorem Text.not_mark_of_isAlphanum {c : Char} (h : c.isAlphanum = true) :
    c ≠ '(' ∧ c ≠ ')' ∧ c ≠ ',' := by
  refine ⟨?_, ?_, ?_⟩ <;>
  · rintro rfl
    cases h

theorem Text.isMember_of_isAlphanum {cs : List Char} (h : ∀ c ∈ cs, c.isAlphanum = true) :
    IsMember cs :=
  isMember_of_forall fun c hc => not_mark_of_isAlphanum (h c hc)

theorem Elementary.isMember_display (k : Elementary) : Text.IsMember k.display.toList :=
  Text.isMember_of_isAlphanum fun _ hc => isAlphanum_of_mem_display hc

namespace Suffix

theorem isMember_size (x : Suffix) : Text.IsMember x.size := by
  cases x with
  | dynamic => exact .nil
  | fixed n =>
    apply Text.isMember_of_isAlphanum
    intro c hc
    rw [Char.isAlphanum, Decimal.isDigit_of_mem_digits hc, Bool.or_true]

theorem size_injective {x y : Suffix} (h : x.size = y.size) : x = y := by
  cases x with
  | dynamic =>
    cases y with
    | dynamic => rfl
    | fixed n => exact absurd h.symm (Decimal.digits_ne_nil n)
  | fixed m =>
    cases y with
    | dynamic => exact absurd h (Decimal.digits_ne_nil m)
    | fixed n => rw [Decimal.digits_injective h]

theorem isMember_brackets (x : Suffix) : Text.IsMember ('[' :: (x.size ++ [']'])) :=
  .char (by decide) (by decide) (by decide)
    ((isMember_size x).append (.char (by decide) (by decide) (by decide) .nil))

/-- The last suffix of a text and what stands before it. -/
theorem append_injective {as bs : List Char} {x y : Suffix}
    (h : as ++ '[' :: (x.size ++ [']']) = bs ++ '[' :: (y.size ++ [']'])) : as = bs ∧ x = y := by
  -- read from the end, the size stops at the first opening bracket
  have hcut : ∀ (cs : List Char) (z : Suffix),
      Text.cutChars '[' (z.size.reverse ++ '[' :: cs.reverse) =
        some (z.size.reverse, cs.reverse) := by
    intro cs z
    rw [Text.cutChars_eq_some_iff]
    exact ⟨rfl, by simpa using not_mem_size (by decide) z⟩
  have h := congrArg List.reverse h
  simp only [List.reverse_append, List.reverse_cons, List.reverse_nil, List.nil_append,
    List.append_assoc, List.cons_append, List.cons.injEq, true_and] at h
  have e := hcut as x
  rw [h, hcut] at e
  obtain ⟨hs, ha⟩ := Prod.mk.inj (Option.some.inj e)
  exact ⟨(List.reverse_injective ha).symm, (size_injective (List.reverse_injective hs)).symm⟩

end Suffix

namespace Shape

mutual

theorem isMember_canonicalChars : ∀ s : Shape, Text.IsMember s.canonicalChars
  | elementary kind => kind.isMember_display
  | fixedArray element _ =>
    (isMember_canonicalChars element).append (Suffix.isMember_brackets _)
  | dynamicArray element =>
    (isMember_canonicalChars element).append (Suffix.isMember_brackets _)
  | struct fields => by
    -- the commas of the list are inside the parentheses of the tuple
    have hlist := Text.balanced_intercalate fun x hx =>
      (isMember_canonicalFields fields x hx).balanced
    exact .group hlist .nil
termination_by structural s => s

theorem isMember_canonicalFields : ∀ fields : Fields,
    ∀ x ∈ canonicalFields fields, Text.IsMember x
  | [], x, hx => by simp [canonicalFields] at hx
  | (_, s) :: rest, x, hx => by
    rcases List.mem_cons.1 hx with rfl | hx
    · exact isMember_canonicalChars s
    · exact isMember_canonicalFields rest x hx
termination_by structural fields => fields

end

theorem canonicalChars_ne_nil (s : Shape) : s.canonicalChars ≠ [] := by
  cases s with
  | elementary kind => exact kind.display_ne_nil
  | _ => simp [canonicalChars]

theorem canonicalFields_ne_nil {fields : Fields} : ∀ x ∈ canonicalFields fields, x ≠ [] := by
  induction fields with
  | nil => simp [canonicalFields]
  | cons f rest ih =>
    intro x hx
    rcases List.mem_cons.1 hx with rfl | hx
    · exact canonicalChars_ne_nil f.2
    · exact ih x hx

/-- What ends with a suffix is the canonical type of an array. -/
theorem exists_wrap_of_canonicalChars {t : Shape} {x : Suffix} {cs : List Char}
    (h : t.canonicalChars = cs ++ '[' :: (x.size ++ [']'])) :
    ∃ u : Shape, t = x.wrap u ∧ u.canonicalChars = cs := by
  cases t with
  | elementary kind =>
    have hmem : ']' ∈ kind.display.toList := by
      rw [canonicalChars] at h
      simp [h]
    exact absurd hmem (Elementary.not_mem_display (by decide))
  | fixedArray u n =>
    obtain ⟨rfl, rfl⟩ := Suffix.append_injective h
    exact ⟨u, rfl, rfl⟩
  | dynamicArray u =>
    obtain ⟨rfl, rfl⟩ := Suffix.append_injective h
    exact ⟨u, rfl, rfl⟩
  | struct fields =>
    have hlast : ('(' :: List.intercalate [','] (canonicalFields fields)) ++ [')'] =
        (cs ++ '[' :: x.size) ++ [']'] := by simpa [canonicalChars] using h
    exact absurd (List.append_inj_right' hlast rfl) (by decide)

mutual

theorem eraseNames_of_canonicalChars : ∀ {s t : Shape}, s.WellFormed → t.WellFormed →
    s.canonicalChars = t.canonicalChars → s.eraseNames = t.eraseNames
  | elementary kind, t, hs, ht, h => by
    have hnot : ∀ c : Char, c.isAlphanum = false → c ∉ t.canonicalChars := by
      intro c hc
      rw [← h]
      exact Elementary.not_mem_display hc
    cases t with
    | elementary other => rw [Elementary.display_injective hs ht (String.toList_inj.1 h)]
    | fixedArray u n => exact absurd (by simp [canonicalChars]) (hnot ']' (by decide))
    | dynamicArray u => exact absurd (by simp [canonicalChars]) (hnot ']' (by decide))
    | struct fields => exact absurd (by simp [canonicalChars]) (hnot '(' (by decide))
  | fixedArray element n, t, hs, ht, h => by
    obtain ⟨u, rfl, hu⟩ := exists_wrap_of_canonicalChars (x := .fixed n) h.symm
    simp only [Suffix.wrap, eraseNames, eraseNames_of_canonicalChars hs.1 ht.1 hu.symm]
  | dynamicArray element, t, hs, ht, h => by
    obtain ⟨u, rfl, hu⟩ := exists_wrap_of_canonicalChars (x := .dynamic) h.symm
    have hu := eraseNames_of_canonicalChars (s := element) (t := u) hs ht hu.symm
    simp only [Suffix.wrap, eraseNames, hu]
  | struct fields, t, hs, ht, h => by
    cases t with
    | elementary kind =>
      have hmem : '(' ∈ kind.display.toList := by
        rw [canonicalChars, canonicalChars] at h
        simp [← h]
      exact absurd hmem (Elementary.not_mem_display (by decide))
    | fixedArray u n =>
      obtain ⟨w, hw, -⟩ := exists_wrap_of_canonicalChars (x := .fixed n) h
      cases hw
    | dynamicArray u =>
      obtain ⟨w, hw, -⟩ := exists_wrap_of_canonicalChars (x := .dynamic) h
      cases hw
    | struct others =>
      have hlist := List.append_cancel_right (List.cons.inj h).2
      have hfields := Text.intercalate_injective
        (fun x hx => ⟨isMember_canonicalFields fields x hx, canonicalFields_ne_nil x hx⟩)
        (fun x hx => ⟨isMember_canonicalFields others x hx, canonicalFields_ne_nil x hx⟩) hlist
      simp only [eraseNames, eraseFieldNames_of_canonicalFields hs.2 ht.2 hfields]
termination_by structural s => s

theorem eraseFieldNames_of_canonicalFields : ∀ {fs gs : Fields}, WellFormedFields fs →
    WellFormedFields gs → canonicalFields fs = canonicalFields gs →
    eraseFieldNames fs = eraseFieldNames gs
  | [], gs, _, _, h => by
    cases gs with
    | nil => rfl
    | cons g gs => cases h
  | (_, s) :: rest, gs, hs, ht, h => by
    cases gs with
    | nil => cases h
    | cons g gs =>
      obtain ⟨hhead, htail⟩ := List.cons.inj h
      rw [eraseFieldNames, eraseFieldNames, eraseNames_of_canonicalChars hs.1 ht.1 hhead,
        eraseFieldNames_of_canonicalFields hs.2 ht.2 htail]
termination_by structural fs => fs

end

mutual

theorem canonicalChars_eraseNames : ∀ s : Shape, s.eraseNames.canonicalChars = s.canonicalChars
  | elementary _ => rfl
  | fixedArray element _ => by
    rw [eraseNames, canonicalChars, canonicalChars_eraseNames element, canonicalChars]
  | dynamicArray element => by
    rw [eraseNames, canonicalChars, canonicalChars_eraseNames element, canonicalChars]
  | struct fields => by
    rw [eraseNames, canonicalChars, canonicalFields_eraseFieldNames fields, canonicalChars]
termination_by structural s => s

theorem canonicalFields_eraseFieldNames : ∀ fields : Fields,
    canonicalFields (eraseFieldNames fields) = canonicalFields fields
  | [] => rfl
  | (_, s) :: rest => by
    rw [eraseFieldNames, canonicalFields, canonicalChars_eraseNames s,
      canonicalFields_eraseFieldNames rest, canonicalFields]
termination_by structural fields => fields

end

/-- Of well-formed shapes the canonical type tells everything but the names of fields. -/
theorem canonicalChars_eq_iff {s t : Shape} (hs : s.WellFormed) (ht : t.WellFormed) :
    s.canonicalChars = t.canonicalChars ↔ s.eraseNames = t.eraseNames := by
  constructor
  · exact eraseNames_of_canonicalChars hs ht
  · intro h
    rw [← canonicalChars_eraseNames s, h, canonicalChars_eraseNames]

end Shape

end ContractAbi
