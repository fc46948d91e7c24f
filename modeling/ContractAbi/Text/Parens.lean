import ContractAbi.Text.Basic

/-!
# Parentheses

Matching a closing parenthesis and splitting a list at the commas that no parenthesis encloses.
-/

namespace ContractAbi.Text

/-- What stands before and after the parenthesis that closes the innermost of `depth + 1` groups
that are open before the text, if the text closes them all. -/
def closeChars : (depth : Nat) → List Char → Option (List Char × List Char)
  | _, [] => none
  | depth, '(' :: cs => (closeChars (depth + 1) cs).map (consLeft '(')
  | 0, ')' :: cs => some ([], cs)
  | depth + 1, ')' :: cs => (closeChars depth cs).map (consLeft ')')
  | depth, c :: cs => (closeChars depth cs).map (consLeft c)

theorem append_of_closeChars {depth : Nat} {cs l r : List Char}
    (h : closeChars depth cs = some (l, r)) : cs = l ++ ')' :: r := by
  fun_induction closeChars depth cs generalizing l with
  | case1 => simp at h
  | case2 depth cs ih =>
    obtain ⟨l', h', rfl⟩ := map_consLeft_eq_some_iff.1 h
    simp [ih h']
  | case3 => simp_all
  | case4 depth cs ih =>
    obtain ⟨l', h', rfl⟩ := map_consLeft_eq_some_iff.1 h
    simp [ih h']
  | case5 depth c cs _ _ _ ih =>
    obtain ⟨l', h', rfl⟩ := map_consLeft_eq_some_iff.1 h
    simp [ih h']

/-- The pieces of a list between the commas outside all parentheses, read inside `depth` open
ones. A closing parenthesis too many closes nothing. -/
def topLevelPieces : (depth : Nat) → List Char → List (List Char)
  | _, [] => [[]]
  | depth, c :: cs =>
    if c = '(' then consFirst c (topLevelPieces (depth + 1) cs)
    else if c = ')' then consFirst c (topLevelPieces (depth - 1) cs)
    else if c = ',' ∧ depth = 0 then [] :: topLevelPieces 0 cs
    else consFirst c (topLevelPieces depth cs)

/-- The members of a comma-separated list. A list of spaces only has none. -/
def topLevel (list : List Char) : List (List Char) :=
  if trimmed list = [] then [] else topLevelPieces 0 list

theorem length_le_of_mem_consFirst {c : Char} {ps : List (List Char)} {p : List Char} {n : Nat}
    (hp : p ∈ consFirst c ps) (hn : ∀ q ∈ ps, q.length ≤ n) : p.length ≤ n + 1 := by
  cases ps with
  | nil => simp [consFirst] at hp; simp [hp]
  | cons q qs =>
    simp only [consFirst, List.mem_cons] at hp
    rcases hp with rfl | hp
    · simpa using hn q (by simp)
    · exact Nat.le_succ_of_le (hn p (by simp [hp]))

theorem length_le_of_mem_topLevelPieces {depth : Nat} {cs p : List Char}
    (h : p ∈ topLevelPieces depth cs) : p.length ≤ cs.length := by
  induction cs generalizing depth p with
  | nil => simp_all [topLevelPieces]
  | cons c cs ih =>
    rw [topLevelPieces] at h
    split at h
    · exact length_le_of_mem_consFirst h fun q hq => ih hq
    · split at h
      · exact length_le_of_mem_consFirst h fun q hq => ih hq
      · split at h
        · rcases List.mem_cons.1 h with rfl | h
          · simp
          · exact Nat.le_succ_of_le (ih h)
        · exact length_le_of_mem_consFirst h fun q hq => ih hq

theorem length_le_of_mem_topLevel {list p : List Char} (h : p ∈ topLevel list) :
    p.length ≤ list.length := by
  rw [topLevel] at h
  split at h
  · simp at h
  · exact length_le_of_mem_topLevelPieces h

end ContractAbi.Text
