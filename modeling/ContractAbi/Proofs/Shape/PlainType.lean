import ContractAbi.Mutability
import ContractAbi.Proofs.Declaration.Parameter
import ContractAbi.Proofs.Shape.Canonical
import ContractAbi.Text.Blank

/-!
# Types without components

A type that has a shape without components is the name of an elementary type with suffixes. So it
is a word, it is not blank, and it is neither a tuple nor a keyword.
-/

namespace ContractAbi

theorem Text.isBlank_of_isAlphanum {c : Char} (h : c.isAlphanum = true) : isBlank c = false := by
  have hrange : 48 ≤ c.toNat ∧ c.toNat ≤ 122 := by
    change (decide (65 ≤ c.val ∧ c.val ≤ 90) || (decide (97 ≤ c.val) && decide (c.val ≤ 122)) ||
      (decide (48 ≤ c.val) && decide (c.val ≤ 57))) = true at h
    simp only [Bool.or_eq_true, Bool.and_eq_true, decide_eq_true_eq,
      UInt32.le_iff_toNat_le] at h
    change ((65 ≤ c.toNat ∧ c.toNat ≤ 90) ∨ (97 ≤ c.toNat ∧ c.toNat ≤ 122)) ∨
      (48 ≤ c.toNat ∧ c.toNat ≤ 57) at h
    omega
  -- letters and digits lie between two of the ranges
  have hranges : ∀ range ∈ blankRanges, range.2 < 48 ∨ 122 < range.1 := by decide
  rw [isBlank, isWithin, List.any_eq_false]
  rintro ⟨low, high⟩ hmem
  have := hranges _ hmem
  simp only [Bool.and_eq_true, decide_eq_true_eq]
  omega

/-- A text with a letter or digit in it is not blank. -/
theorem Text.trimBlanks_ne_empty {s : String} {c : Char} (hc : c ∈ s.toList)
    (h : c.isAlphanum = true) : trimBlanks s ≠ "" := by
  intro e
  have hall : ∀ c ∈ s.toList, isBlank c := by
    rw [← stripChars_eq_nil_iff]
    simpa [trimBlanks, strip] using e
  have hblank := hall c hc
  rw [isBlank_of_isAlphanum h] at hblank
  cases hblank

theorem Elementary.isAlphanum_of_ofName {name : String} {kind : Elementary}
    (h : ofName name = .ok kind) : ∀ c ∈ name.toList, c.isAlphanum = true := by
  obtain ⟨-, rfl | hshort⟩ := ofName_eq_ok_iff.1 h
  · exact fun c hc => isAlphanum_of_mem_display hc
  · cases kind with
    | integer signed bits =>
      rw [shortName?] at hshort
      split at hshort
      · obtain rfl := Option.some.inj hshort
        cases signed <;> simp
      · cases hshort
    | _ => cases hshort

theorem Suffix.mem_chars {xs : List Suffix} {c : Char} (h : c ∈ chars xs) :
    c.isDigit = true ∨ isBracket c = true := by
  obtain ⟨x, -, hc⟩ := List.mem_flatMap.1 h
  cases x with
  | dynamic => exact .inr (by simpa [size, isBracket] using hc)
  | fixed n =>
    simp only [size, List.mem_cons, List.mem_append, List.not_mem_nil, or_false] at hc
    rcases hc with rfl | hc | rfl
    · exact .inr rfl
    · exact .inl (Decimal.isDigit_of_mem_digits hc)
    · exact .inr rfl

namespace Parameter

/-- A type that has a shape without components is the name of an elementary type with suffixes. -/
theorem exists_base_of_shape {type : String} {s : Shape} (h : (plain type "").shape = .ok s) :
    ∃ base xs, Suffix.split type = .ok (base, xs) ∧ base ≠ "tuple" ∧
      ∃ kind, Elementary.ofName base = .ok kind := by
  obtain ⟨base, xs, hsplit, ⟨-, ps, -, hps, -⟩ | ⟨hb, kind, hk, -⟩⟩ := shape_eq_ok_iff.1 h
  · cases hps
  · exact ⟨base, xs, hsplit, hb, kind, hk⟩

/-- It begins with a letter or digit. -/
theorem exists_cons_of_shape {type : String} {s : Shape} (h : (plain type "").shape = .ok s) :
    ∃ c cs, type.toList = c :: cs ∧ c.isAlphanum = true := by
  obtain ⟨base, xs, hsplit, -, kind, hk⟩ := exists_base_of_shape h
  have hne : base.toList ≠ [] := by
    intro e
    obtain rfl : base = "" := by simpa using e
    cases hk
  obtain ⟨c, cs, hc⟩ := List.exists_cons_of_ne_nil hne
  refine ⟨c, cs ++ Suffix.chars xs, ?_, Elementary.isAlphanum_of_ofName hk c (by simp [hc])⟩
  rw [(Suffix.split_eq_ok_iff.1 hsplit).2.2, hc, List.cons_append]

theorem isWord_of_shape {type : String} {s : Shape} (h : (plain type "").shape = .ok s) :
    Text.IsWord type := by
  obtain ⟨first, rest, hfirst, -⟩ := exists_cons_of_shape h
  have hne : type ≠ "" := by
    rintro rfl
    cases hfirst
  refine ⟨hne, fun c hc => ?_⟩
  obtain ⟨base, xs, hsplit, -, kind, hk⟩ := exists_base_of_shape h
  rw [(Suffix.split_eq_ok_iff.1 hsplit).2.2, List.mem_append] at hc
  rcases hc with hc | hc
  · have := Elementary.isAlphanum_of_ofName hk c hc
    refine ⟨?_, ?_, ?_, ?_⟩ <;> rintro rfl <;> revert this <;> decide
  · have := Suffix.mem_chars hc
    refine ⟨?_, ?_, ?_, ?_⟩ <;> rintro rfl <;> revert this <;> decide

theorem trimBlanks_of_shape {type : String} {s : Shape} (h : (plain type "").shape = .ok s) :
    Text.trimBlanks type ≠ "" := by
  obtain ⟨c, cs, hc, halnum⟩ := exists_cons_of_shape h
  exact Text.trimBlanks_ne_empty (by simp [hc]) halnum

/-- The root of a type is its base if its suffixes can be taken off. -/
theorem rootType_of_split {p : Parameter} {base : String} {xs : List Suffix}
    (h : Suffix.split p.type = .ok (base, xs)) : p.rootType = base := by
  have hroot := congrArg Prod.fst (splitRoot_of_split h)
  rw [rootType, ← String.toList_inj, String.toList_ofList]
  exact hroot

theorem not_isTuple_of_shape {p : Parameter} {s : Shape} (h : (plain p.type "").shape = .ok s) :
    ¬p.isTuple := by
  obtain ⟨base, xs, hsplit, hb, -⟩ := exists_base_of_shape h
  simpa [isTuple, rootType_of_split hsplit] using hb

/-- A type that has a shape is no keyword. -/
theorem ofText?_of_shape {type : String} {s : Shape} (h : (plain type "").shape = .ok s) :
    Mutability.ofText? type = none := by
  rw [Option.eq_none_iff_forall_ne_some]
  rintro m hm
  obtain rfl := Mutability.ofText?_eq_some_iff.1 hm
  have hunknown : (plain m.text "").shape = .error (.unknownAbiType m.text) := by
    cases m <;> with_unfolding_all rfl
  rw [hunknown] at h
  cases h

end Parameter

end ContractAbi
