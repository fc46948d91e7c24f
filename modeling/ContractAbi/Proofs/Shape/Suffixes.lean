import ContractAbi.Proofs.Shape.Grammar

/-!
# Suffixes and how they are written

Taking the suffixes off a type is the inverse of writing them behind a base, whatever the base is,
as long as it has no brackets. It does not matter from which end the suffixes are read: what is
between two brackets is a size or nothing, so brackets do not nest. Main statement:
`Suffix.split_iff_isSplit`.
-/

namespace ContractAbi

namespace Suffix

/-! ### Suffixes from the end -/

/-- Take suffixes off a type whose characters are given from the last to the first; those in
`behind` have been taken off before. What is left is the base. -/
def takeOff? (reversed : List Char) (behind : List Suffix) : Option (List Char × List Suffix) :=
  match reversed with
  | ']' :: stripped =>
    match _h : Text.cutChars '[' stripped with
    | none => none
    | some (size, rest) =>
      match ofSize? size.reverse with
      | none => none
      | some x => takeOff? rest (x :: behind)
  | base => if base.any isBracket then none else some (base.reverse, behind)
termination_by reversed.length
decreasing_by
  have := (Text.cutChars_eq_some_iff.1 _h).1
  simp [this]; omega

/-- The base of a type and its suffixes, taken off from the last to the first. -/
def splitFromEnd (type : String) : Except AbiError (String × List Suffix) :=
  match takeOff? type.toList.reverse [] with
  | some (base, xs) => .ok (String.ofList base, xs)
  | none => .error (.invalidArraySuffix type)

theorem eq_of_split_eq_error {type : String} {e : AbiError} (h : split type = .error e) :
    e = .invalidArraySuffix type := by
  rw [split] at h
  split at h
  · cases h
  · exact (Except.error.inj h).symm

theorem chars_concat (xs : List Suffix) (x : Suffix) :
    chars (xs ++ [x]) = chars xs ++ '[' :: (x.size ++ [']']) := by
  simp [chars]

theorem of_takeOff? {reversed base : List Char} {behind ys : List Suffix}
    (h : takeOff? reversed behind = some (base, ys)) :
    (∀ c ∈ base, isBracket c = false) ∧ ∃ xs, (∀ x ∈ xs, x.WellFormed) ∧ ys = xs ++ behind ∧
      reversed.reverse = base ++ chars xs := by
  fun_induction takeOff? reversed behind with
  | case1 => cases h
  | case2 => cases h
  | case3 behind stripped size rest hcut x hx ih =>
    obtain ⟨hbase, xs, hxs, rfl, hrest⟩ := ih h
    obtain ⟨hwf, hsize⟩ := ofSize?_eq_some_iff.1 hx
    obtain ⟨rfl, -⟩ := Text.cutChars_eq_some_iff.1 hcut
    refine ⟨hbase, xs ++ [x], ?_, by simp, ?_⟩
    · rw [List.forall_mem_append, List.forall_mem_singleton]
      exact ⟨hxs, hwf⟩
    · rw [chars_concat, ← List.append_assoc, ← hrest, ← hsize]
      simp
  | case4 => cases h
  | case5 behind reversed hlast hbrackets =>
    cases h
    refine ⟨?_, [], by simp, rfl, by simp [chars]⟩
    intro c hc
    rw [Bool.not_eq_true, List.any_eq_false] at hbrackets
    simpa using hbrackets c (List.mem_reverse.1 hc)

theorem takeOff?_written {base : List Char} {xs : List Suffix} (behind : List Suffix)
    (hbase : ∀ c ∈ base, isBracket c = false) (hxs : ∀ x ∈ xs, x.WellFormed) :
    takeOff? (base ++ chars xs).reverse behind = some (base, xs ++ behind) := by
  -- from the end, since the last suffix is the first to be taken off
  induction xs using List.reverseRecOn generalizing behind with
  | nil =>
    have hany : base.reverse.any isBracket = false := by
      rw [List.any_reverse, List.any_eq_false]
      intro c hc
      rw [hbase c hc, Bool.not_eq_true]
    show takeOff? (base ++ []).reverse behind = _
    rw [List.append_nil, takeOff?.eq_def]
    split
    · next stripped hstripped =>
      rw [hstripped] at hany
      cases hany
    · rw [if_neg (by rw [hany]; decide), List.reverse_reverse]
      rfl
  | append_singleton xs x ih =>
    rw [List.forall_mem_append, List.forall_mem_singleton] at hxs
    obtain ⟨hxs, hx⟩ := hxs
    have hcut : Text.cutChars '[' (x.size.reverse ++ '[' :: (base ++ chars xs).reverse) =
        some (x.size.reverse, (base ++ chars xs).reverse) := by
      apply Text.cutChars_eq_some_iff.2
      refine ⟨rfl, ?_⟩
      rw [List.mem_reverse]
      exact not_mem_size (by decide) x
    have hreversed : (base ++ chars (xs ++ [x])).reverse =
        ']' :: (x.size.reverse ++ '[' :: (base ++ chars xs).reverse) := by
      simp [chars_concat]
    have hsize : ofSize? x.size.reverse.reverse = some x := by
      rw [List.reverse_reverse]
      exact ofSize?_eq_some_iff.2 ⟨hx, rfl⟩
    rw [hreversed, takeOff?]
    split
    · next h => cases hcut.symm.trans h
    · next size rest h =>
      obtain ⟨rfl, rfl⟩ := Prod.mk.inj (Option.some.inj (hcut.symm.trans h))
      rw [hsize, ← List.append_cons]
      exact ih (x :: behind) hxs

/-- It does not matter from which end suffixes are read. -/
theorem splitFromEnd_eq_split (type : String) : splitFromEnd type = split type := by
  unfold splitFromEnd
  -- both accept what is written for well-formed suffixes, and they fail alike
  cases htake : takeOff? type.toList.reverse [] with
  | some parts =>
    obtain ⟨base, ys⟩ := parts
    obtain ⟨hbase, xs, hxs, rfl, htype⟩ := of_takeOff? htake
    rw [List.reverse_reverse] at htype
    rw [List.append_nil]
    apply Eq.symm
    apply split_eq_ok_iff.2
    unfold IsBase
    rw [String.toList_ofList]
    exact ⟨hbase, hxs, htype⟩
  | none =>
    cases hsplit : split type with
    | ok parts =>
      obtain ⟨hbase, hxs, htype⟩ := split_eq_ok_iff.1 hsplit
      have hwritten := takeOff?_written [] hbase hxs
      rw [← htype, htake] at hwritten
      cases hwritten
    | error e => rw [eq_of_split_eq_error hsplit]

/-! ### Main statement -/

/-- Whether a type is written as a base without brackets and suffixes behind it, the lengths of
which are positive and below `2 ^ 64`. -/
structure IsSplit (type base : String) (xs : List Suffix) : Prop where
  isBase : IsBase base
  wellFormed : ∀ x ∈ xs, x.WellFormed
  written_eq : written base xs = type

theorem split_eq_ok_iff_isSplit {type base : String} {xs : List Suffix} :
    split type = .ok (base, xs) ↔ IsSplit type base xs := by
  rw [split_eq_ok_iff_written]
  exact ⟨fun ⟨hbase, hxs, h⟩ => ⟨hbase, hxs, h.symm⟩, fun ⟨hbase, hxs, h⟩ => ⟨hbase, hxs, h.symm⟩⟩

/-- A type is taken apart into the base and the suffixes that it is written with, and refused if it
is not written in this way, from whichever end it is read. -/
theorem split_iff_isSplit (type : String) :
    (∀ base xs, split type = .ok (base, xs) ↔ IsSplit type base xs) ∧
    (split type = .error (.invalidArraySuffix type) ↔ ∀ base xs, ¬IsSplit type base xs) ∧
    splitFromEnd type = split type := by
  refine ⟨fun base xs => split_eq_ok_iff_isSplit, ⟨?_, ?_⟩, splitFromEnd_eq_split type⟩
  · intro herror base xs h
    rw [split_eq_ok_iff_isSplit.2 h] at herror
    cases herror
  · intro hnone
    cases hsplit : split type with
    | ok parts =>
      obtain ⟨base, xs⟩ := parts
      exact absurd (split_eq_ok_iff_isSplit.1 hsplit) (hnone base xs)
    | error e => rw [eq_of_split_eq_error hsplit]

/-- An array of arrays of what is no type, an empty base, and brackets that do not make suffixes. -/
theorem split_iff_isSplit_of_brackets :
    (IsSplit "ñ,(x[18446744073709551615][]" "ñ,(x" [.fixed (2 ^ 64 - 1), .dynamic] ∧
      split "ñ,(x[18446744073709551615][]" = .ok ("ñ,(x", [.fixed (2 ^ 64 - 1), .dynamic])) ∧
    (split "[2]" = .ok ("", [.fixed 2]) ∧ IsSplit "[2]" "" [.fixed 2]) ∧
    ∀ type ∈ ["x[[2]]", "]x[", "x[0]", "x[03]", "x[ 2]", "x[2]y"],
      split type = .error (.invalidArraySuffix type) ∧ ∀ base xs, ¬IsSplit type base xs := by
  have hnested : IsSplit "ñ,(x[18446744073709551615][]" "ñ,(x" [.fixed (2 ^ 64 - 1), .dynamic] :=
    ⟨by simp [IsBase, isBracket], by simp [WellFormed], by with_unfolding_all rfl⟩
  have hempty : split "[2]" = .ok ("", [.fixed 2]) := by with_unfolding_all rfl
  refine ⟨⟨hnested, ((split_iff_isSplit _).1 _ _).2 hnested⟩,
    ⟨hempty, ((split_iff_isSplit _).1 _ _).1 hempty⟩, ?_⟩
  have herror : ∀ type ∈ ["x[[2]]", "]x[", "x[0]", "x[03]", "x[ 2]", "x[2]y"],
      split type = .error (.invalidArraySuffix type) := by
    simp only [List.forall_mem_cons]
    refine ⟨?_, ?_, ?_, ?_, ?_, ?_, List.forall_mem_nil _⟩ <;> with_unfolding_all rfl
  intro type htype
  exact ⟨herror type htype, (split_iff_isSplit type).2.1.1 (herror type htype)⟩

end Suffix

end ContractAbi
