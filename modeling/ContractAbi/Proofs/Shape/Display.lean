import ContractAbi.Proofs.Shape.CanonicalText

/-!
# The display of a shape without tuples

The suffixes of a type make arrays from the inside out, and the display of an array writes its
suffix behind its element, so the display of a shape has the suffixes of the type it was read from,
in their order. Without tuples it is the canonical type, and reading it gives the shape again. Main
statement: `Parameter.display_eq_canonicalText`.
-/

namespace ContractAbi

namespace Shape

theorem display_wrap (s : Shape) (x : Suffix) : (x.wrap s).display = s.display ++ x.text := by
  cases x with
  | dynamic => rfl
  | fixed n =>
    show s.display ++ "[" ++ Decimal.text n ++ "]" = s.display ++ ("[" ++ Decimal.text n ++ "]")
    rw [String.append_assoc, String.append_assoc, String.append_assoc]

/-- The arrays around a shape are displayed as the suffixes that they stand for. -/
theorem display_wrapAll (s : Shape) (xs : List Suffix) :
    (s.wrapAll xs).display = Suffix.written s.display xs := by
  induction xs generalizing s with
  | nil => rfl
  | cons x xs ih =>
    show ((x.wrap s).wrapAll xs).display = Suffix.written (s.display ++ x.text) xs
    rw [ih, display_wrap]

end Shape

/-- A name of an elementary type is replaced by the one it is displayed with, and the suffixes
behind it are kept. -/
theorem canonicalText_written {name : String} {kind : Elementary}
    (h : Elementary.Names name kind) (xs : List Suffix) :
    canonicalText (Suffix.written name xs) = Suffix.written kind.display xs := by
  have hchars := Shape.canonicalChars_of_names h xs 0 0 0
  rw [Text.spaces, List.replicate_zero, List.append_nil, List.append_nil, List.nil_append] at hchars
  rw [← String.toList_inj, canonicalText, String.toList_ofList, Suffix.toList_written, hchars,
    Suffix.toList_written]

theorem Elementary.wellFormed_of_names {name : String} {kind : Elementary} (h : Names name kind) :
    kind.WellFormed :=
  (ofName_eq_ok_iff.1 (ofName_eq_ok_iff_names.2 h)).1

namespace Parameter

/-- Without components only an elementary type and arrays of it have a shape. -/
theorem exists_elementary_of_shape {type : String} {s : Shape}
    (h : (plain type "").shape = .ok s) :
    ∃ name kind xs, type = Suffix.written name xs ∧ Elementary.Names name kind ∧
      (∀ x ∈ xs, x.WellFormed) ∧ s = (Shape.elementary kind).wrapAll xs := by
  cases shape_iff_denotes.1 h with
  | @elementary _ name kind xs htype hname hxs => exact ⟨name, kind, xs, htype, hname, hxs, rfl⟩
  | tuple _ hps => cases hps

/-- The display of the shape of a type without components is the canonical type, to whichever of
the two ways, and it is a type of the same shape. -/
theorem display_eq_canonicalText {type : String} {s : Shape}
    (h : (plain type "").shape = .ok s) :
    s.display = canonicalText type ∧ canonicalText type = (plain type "").canonicalType ∧
      (plain s.display "").shape = .ok s := by
  have hcanonical := canonicalType_of_shape h
  obtain ⟨name, kind, xs, rfl, hname, hxs, rfl⟩ := exists_elementary_of_shape h
  have hdisplay : ((Shape.elementary kind).wrapAll xs).display =
      Suffix.written kind.display xs := Shape.display_wrapAll _ xs
  have htext := canonicalText_written hname xs
  refine ⟨hdisplay.trans htext.symm, ?_, ?_⟩
  · rw [htext, ← String.toList_inj, hcanonical, Shape.canonicalChars_wrapAll,
      Suffix.toList_written, Shape.canonicalChars]
  · apply shape_iff_denotes.2
    exact .elementary hdisplay (Elementary.names_display (Elementary.wellFormed_of_names hname)) hxs

/-- An array of arrays under the short name of an integer. -/
theorem display_eq_canonicalText_of_short :
    let s : Shape := .dynamicArray (.fixedArray (.elementary (.integer true 256)) 2)
    (plain "int[2][]" "").shape = .ok s ∧ s.display = "int256[2][]" ∧
      s.display = canonicalText "int[2][]" ∧
      canonicalText "int[2][]" = (plain "int[2][]" "").canonicalType ∧
      (plain s.display "").shape = .ok s := by
  intro s
  have hshape : (plain "int[2][]" "").shape = .ok s := by with_unfolding_all rfl
  exact ⟨hshape, by with_unfolding_all rfl, display_eq_canonicalText hshape⟩

end Parameter

end ContractAbi
