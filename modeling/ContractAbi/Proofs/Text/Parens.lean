import ContractAbi.Proofs.Text.Basic
import ContractAbi.Text.Parens

/-!
# Balanced texts

A text is balanced if its parentheses match, and a member of a list if besides no comma stands
outside them. Both are described by how they are written, and the splitter of lists is shown to
take a list of members apart where they were joined:

    topLevelPieces 0 (members with commas between them) = members
-/

namespace ContractAbi.Text

/-- A text whose parentheses match. -/
inductive Balanced : List Char → Prop
  | nil : Balanced []
  | char {c cs} : c ≠ '(' → c ≠ ')' → Balanced cs → Balanced (c :: cs)
  | group {inner cs} : Balanced inner → Balanced cs → Balanced ('(' :: (inner ++ ')' :: cs))

/-- A text whose parentheses match and which has no comma outside them. -/
inductive IsMember : List Char → Prop
  | nil : IsMember []
  | char {c cs} : c ≠ '(' → c ≠ ')' → c ≠ ',' → IsMember cs → IsMember (c :: cs)
  | group {inner cs} : Balanced inner → IsMember cs → IsMember ('(' :: (inner ++ ')' :: cs))

theorem group_append (inner cs rest : List Char) :
    '(' :: (inner ++ ')' :: cs) ++ rest = '(' :: (inner ++ ')' :: (cs ++ rest)) := by
  simp

theorem IsMember.balanced {cs : List Char} (h : IsMember cs) : Balanced cs := by
  induction h with
  | nil => exact .nil
  | char ho hc _ _ ih => exact .char ho hc ih
  | group hi _ ih => exact .group hi ih

theorem Balanced.append {as bs : List Char} (ha : Balanced as) (hb : Balanced bs) :
    Balanced (as ++ bs) := by
  induction ha with
  | nil => exact hb
  | char ho hc _ ih => exact .char ho hc ih
  | group hi _ _ ih =>
    rw [group_append]
    exact .group hi ih

theorem IsMember.append {as bs : List Char} (ha : IsMember as) (hb : IsMember bs) :
    IsMember (as ++ bs) := by
  induction ha with
  | nil => exact hb
  | char ho hc hs _ ih => exact .char ho hc hs ih
  | group hi _ ih =>
    rw [group_append]
    exact .group hi ih

/-- A text without parentheses and commas is a member. -/
theorem isMember_of_forall {cs : List Char} (h : ∀ c ∈ cs, c ≠ '(' ∧ c ≠ ')' ∧ c ≠ ',') :
    IsMember cs := by
  induction cs with
  | nil => exact .nil
  | cons c cs ih =>
    obtain ⟨ho, hc, hs⟩ := h c (by simp)
    exact .char ho hc hs (ih fun d hd => h d (by simp [hd]))

theorem balanced_intercalate {xs : List (List Char)} (h : ∀ x ∈ xs, Balanced x) :
    Balanced (List.intercalate [','] xs) := by
  induction xs with
  | nil => exact .nil
  | cons x xs ih =>
    have ih := ih fun y hy => h y (by simp [hy])
    cases xs with
    | nil => simpa using h x (by simp)
    | cons y ys =>
      rw [List.intercalate_cons_cons, List.append_assoc]
      exact (h x (by simp)).append (.char (by decide) (by decide) ih)

/-- Without parentheses no comma is inside any. -/
theorem IsMember.comma_not_mem {cs : List Char} (h : IsMember cs) (ho : '(' ∉ cs) : ',' ∉ cs := by
  induction h with
  | nil => simp
  | char _ _ hs _ ih =>
    rw [List.mem_cons, not_or] at ho ⊢
    exact ⟨Ne.symm hs, ih ho.2⟩
  | group => simp at ho

/-! ### The parenthesis that closes a group -/

/-- Put a text in front of the first of two texts. -/
def appendLeft (cs : List Char) (parts : List Char × List Char) : List Char × List Char :=
  (cs ++ parts.1, parts.2)

theorem closeChars_char {depth : Nat} {c : Char} {cs : List Char} (ho : c ≠ '(') (hc : c ≠ ')') :
    closeChars depth (c :: cs) = (closeChars depth cs).map (consLeft c) := by
  rw [closeChars.eq_def]
  split <;> simp_all

/-- A balanced text is passed over whatever groups are open. -/
theorem closeChars_of_balanced {cs : List Char} (h : Balanced cs) (depth : Nat)
    (rest : List Char) :
    closeChars depth (cs ++ rest) = (closeChars depth rest).map (appendLeft cs) := by
  induction h generalizing depth rest with
  | nil =>
    show closeChars depth rest = (closeChars depth rest).map id
    rw [Option.map_id, id]
  | char ho hc _ ih =>
    rw [List.cons_append, closeChars_char ho hc, ih, Option.map_map]
    rfl
  | @group inner cs _ _ ihi ih =>
    -- the group opens one more, which its closing parenthesis takes back
    rw [group_append, closeChars, ihi, closeChars, ih]
    simp only [Option.map_map]
    congr 1
    funext parts
    simp [appendLeft, consLeft]

/-- The group around a balanced text is closed behind it. -/
theorem closeChars_group {cs : List Char} (h : Balanced cs) (rest : List Char) :
    closeChars 0 (cs ++ ')' :: rest) = some (cs, rest) := by
  rw [closeChars_of_balanced h, closeChars, Option.map_some, appendLeft, List.append_nil]

/-! ### Splitting at the commas outside parentheses -/

/-- Put a text in front of the first piece. -/
def appendFirst (cs : List Char) (pieces : List (List Char)) : List (List Char) :=
  cs.foldr consFirst pieces

theorem appendFirst_append (as bs : List Char) (pieces : List (List Char)) :
    appendFirst (as ++ bs) pieces = appendFirst as (appendFirst bs pieces) :=
  List.foldr_append

theorem appendFirst_cons (cs piece : List Char) (pieces : List (List Char)) :
    appendFirst cs (piece :: pieces) = (cs ++ piece) :: pieces := by
  induction cs with
  | nil => rfl
  | cons c cs ih =>
    show consFirst c (appendFirst cs (piece :: pieces)) = _
    rw [ih]
    rfl

theorem appendFirst_group (inner cs : List Char) (pieces : List (List Char)) :
    appendFirst ('(' :: (inner ++ ')' :: cs)) pieces =
      consFirst '(' (appendFirst inner (consFirst ')' (appendFirst cs pieces))) := by
  show consFirst '(' (appendFirst (inner ++ ')' :: cs) pieces) = _
  rw [appendFirst_append]
  rfl

theorem topLevelPieces_char {depth : Nat} {c : Char} {cs : List Char} (ho : c ≠ '(') (hc : c ≠ ')')
    (hs : c ≠ ',' ∨ depth ≠ 0) :
    topLevelPieces depth (c :: cs) = consFirst c (topLevelPieces depth cs) := by
  have hsep : ¬ (c = ',' ∧ depth = 0) := by
    rintro ⟨h1, h2⟩
    rcases hs with hs | hs
    · exact hs h1
    · exact hs h2
  rw [topLevelPieces, if_neg ho, if_neg hc, if_neg hsep]

/-- Inside parentheses a balanced text stays in one piece. -/
theorem topLevelPieces_of_balanced {cs : List Char} (h : Balanced cs) (depth : Nat)
    (rest : List Char) : topLevelPieces (depth + 1) (cs ++ rest) =
      appendFirst cs (topLevelPieces (depth + 1) rest) := by
  induction h generalizing depth rest with
  | nil => rfl
  | char ho hc _ ih =>
    rw [List.cons_append, topLevelPieces_char ho hc (.inr (by omega)), ih]
    rfl
  | @group inner cs _ _ ihi ih =>
    -- the inner text is read one level deeper, and the closing parenthesis leads back
    rw [group_append, topLevelPieces, if_pos rfl, ihi, topLevelPieces, if_neg (by decide),
      if_pos rfl, Nat.add_sub_cancel, ih, appendFirst_group]

/-- A member stays in one piece. -/
theorem topLevelPieces_of_isMember {cs : List Char} (h : IsMember cs) (depth : Nat)
    (rest : List Char) : topLevelPieces depth (cs ++ rest) =
      appendFirst cs (topLevelPieces depth rest) := by
  induction h generalizing depth rest with
  | nil => rfl
  | char ho hc hs _ ih =>
    rw [List.cons_append, topLevelPieces_char ho hc (.inl hs), ih]
    rfl
  | @group inner cs hi _ ih =>
    rw [group_append, topLevelPieces, if_pos rfl, topLevelPieces_of_balanced hi, topLevelPieces,
      if_neg (by decide), if_pos rfl, Nat.add_sub_cancel, ih, appendFirst_group]

/-- Members that are joined by commas are found again. -/
theorem topLevelPieces_intercalate {x : List Char} {xs : List (List Char)}
    (h : ∀ y ∈ x :: xs, IsMember y) :
    topLevelPieces 0 (List.intercalate [','] (x :: xs)) = x :: xs := by
  -- each member goes to the front of its own piece, and the comma behind it opens the next
  induction xs generalizing x with
  | nil =>
    have hx := topLevelPieces_of_isMember (h x (by simp)) 0 []
    simpa [topLevelPieces, appendFirst_cons] using hx
  | cons y ys ih =>
    have ih := ih fun z hz => h z (List.mem_cons_of_mem _ hz)
    rw [List.intercalate_cons_cons, List.append_assoc,
      topLevelPieces_of_isMember (h x (by simp)), List.singleton_append, topLevelPieces,
      if_neg (by decide), if_neg (by decide), if_pos ⟨rfl, rfl⟩, ih, appendFirst_cons,
      List.append_nil]

/-- The list of members has these members, if none consists of spaces only. -/
theorem topLevel_intercalate {xs : List (List Char)}
    (h : ∀ x ∈ xs, IsMember x ∧ trimmed x ≠ []) : topLevel (List.intercalate [','] xs) = xs := by
  cases xs with
  | nil => rfl
  | cons x xs =>
    have hne : trimmed (List.intercalate [','] (x :: xs)) ≠ [] := by
      intro e
      apply (h x List.mem_cons_self).2
      apply stripChars_eq_nil_iff.2
      intro c hc
      exact stripChars_eq_nil_iff.1 e c (mem_intercalate List.mem_cons_self hc)
    rw [topLevel, if_neg hne]
    exact topLevelPieces_intercalate fun y hy => (h y hy).1

/-- Lists of members that are not empty are told apart by how they are written. -/
theorem intercalate_injective {xs ys : List (List Char)} (hx : ∀ x ∈ xs, IsMember x ∧ x ≠ [])
    (hy : ∀ y ∈ ys, IsMember y ∧ y ≠ [])
    (h : List.intercalate [','] xs = List.intercalate [','] ys) : xs = ys := by
  have hne : ∀ {zs : List (List Char)}, (∀ z ∈ zs, IsMember z ∧ z ≠ []) → zs ≠ [] →
      List.intercalate [','] zs ≠ [] := by
    intro zs hz hzs
    cases zs with
    | nil => exact absurd rfl hzs
    | cons z zs =>
      have hz0 : z ≠ [] := (hz z (by simp)).2
      cases zs with
      | nil => simpa using hz0
      | cons w ws => simp [List.intercalate_cons_cons]
  cases xs with
  | nil =>
    cases ys with
    | nil => rfl
    | cons y ys => exact absurd h.symm (hne hy (by simp))
  | cons x xs =>
    cases ys with
    | nil => exact absurd h (hne hx (by simp))
    | cons y ys =>
      calc x :: xs = topLevelPieces 0 (List.intercalate [','] (x :: xs)) :=
            (topLevelPieces_intercalate fun z hz => (hx z hz).1).symm
        _ = topLevelPieces 0 (List.intercalate [','] (y :: ys)) := by rw [h]
        _ = y :: ys := topLevelPieces_intercalate fun z hz => (hy z hz).1

end ContractAbi.Text
