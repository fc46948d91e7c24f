import Mathlib.Data.List.Basic
import Mathlib.Data.List.TakeWhile
import ContractAbi.Text.Basic

/-!
# Laws of the operations on text

A text is cut at every occurrence of a separator of one character, so splitting is the inverse of
joining, and its words do not change where spaces are added next to spaces or at the ends.
-/

namespace ContractAbi.Text

/-! ### Beginnings -/

theorem afterChars?_append (start rest : List Char) :
    afterChars? start (start ++ rest) = some rest := by
  induction start with
  | nil => simp [afterChars?]
  | cons c cs ih => simp [afterChars?, ih]

theorem after?_eq_some_iff {start s rest : String} :
    after? start s = some rest ↔ s = start ++ rest := by
  constructor
  · intro h
    obtain ⟨r, hr, rfl⟩ := Option.map_eq_some_iff.1 h
    rw [← String.toList_inj, String.toList_append, String.toList_ofList]
    exact eq_append_of_afterChars? hr
  · rintro rfl
    simp [after?, afterChars?_append]

/-! ### Dropping from both ends -/

section Strip

variable {p : Char → Bool} {cs : List Char}

theorem dropWhile_of_head? (h : ∀ c ∈ cs.head?, ¬p c) : cs.dropWhile p = cs := by
  cases cs with
  | nil => rfl
  | cons c cs => exact List.dropWhile_cons_of_neg (h c rfl)

theorem dropWhile_append_of_head? {as bs : List Char} (h : ∀ c ∈ bs.head?, ¬p c) :
    (as ++ bs).dropWhile p = as.dropWhile p ++ bs := by
  rw [List.dropWhile_append]
  split
  · next hnil => rw [List.isEmpty_iff.1 hnil, dropWhile_of_head? h, List.nil_append]
  · rfl

/-- What is dropped are characters satisfying `p`. -/
theorem exists_append_stripChars (p : Char → Bool) (cs : List Char) :
    ∃ l r, cs = l ++ stripChars p cs ++ r ∧ (∀ c ∈ l, p c) ∧ ∀ c ∈ r, p c := by
  -- the characters at the end are dropped from the front of the reverse
  refine ⟨cs.takeWhile p, ((cs.dropWhile p).reverse.takeWhile p).reverse, ?_, ?_, ?_⟩
  · rw [stripChars, List.append_assoc, ← List.reverse_append, List.takeWhile_append_dropWhile,
      List.reverse_reverse, List.takeWhile_append_dropWhile]
  · intro c hc
    exact (List.all_eq_true.1 List.all_takeWhile) c hc
  · intro c hc
    exact (List.all_eq_true.1 List.all_takeWhile) c (List.mem_reverse.1 hc)

theorem mem_stripChars_iff {c : Char} (hc : ¬p c) : c ∈ stripChars p cs ↔ c ∈ cs := by
  obtain ⟨l, r, e, hl, hr⟩ := exists_append_stripChars p cs
  constructor
  · intro h
    rw [e]
    simp [h]
  · intro h
    rw [e, List.mem_append, List.mem_append] at h
    rcases h with (h | h) | h
    · exact absurd (hl c h) hc
    · exact h
    · exact absurd (hr c h) hc

theorem stripChars_eq_nil_iff : stripChars p cs = [] ↔ ∀ c ∈ cs, p c := by
  obtain ⟨l, r, e, hl, hr⟩ := exists_append_stripChars p cs
  constructor
  · intro h c hc
    rw [e, h, List.append_nil, List.mem_append] at hc
    exact hc.elim (hl c) (hr c)
  · intro h
    have : cs.dropWhile p = [] := List.dropWhile_eq_nil_iff.2 h
    rw [stripChars, this]
    rfl

/-- Characters satisfying `p` that are put at the two ends are dropped again. -/
theorem stripChars_append_append {l r : List Char} (hl : ∀ c ∈ l, p c) (hr : ∀ c ∈ r, p c) :
    stripChars p (l ++ cs ++ r) = stripChars p cs := by
  have hreverse : ∀ c ∈ r.reverse, p c := by simpa using hr
  rw [stripChars, stripChars, List.append_assoc, List.dropWhile_append_of_pos hl,
    List.dropWhile_append]
  split
  · next hnil =>
    rw [List.isEmpty_iff.1 hnil, List.dropWhile_eq_nil_iff.2 hr]
  · rw [List.reverse_append, List.dropWhile_append_of_pos hreverse]

theorem not_of_mem_getLast?_stripChars {c : Char} (h : c ∈ (stripChars p cs).getLast?) : ¬p c := by
  have := List.head?_dropWhile_not p (cs.dropWhile p).reverse
  rw [stripChars, List.getLast?_reverse] at h
  rw [h] at this
  simpa using this

theorem not_of_mem_head?_stripChars {c : Char} (h : c ∈ (stripChars p cs).head?) : ¬p c := by
  have hkept : stripChars p cs <+: cs.dropWhile p := by
    rw [← List.reverse_suffix, stripChars, List.reverse_reverse]
    exact List.dropWhile_suffix p
  obtain ⟨rest, hrest⟩ := hkept
  have := List.head?_dropWhile_not p cs
  rw [← hrest, List.head?_append, h] at this
  simpa using this

theorem stripChars_eq_self (hfirst : ∀ c ∈ cs.head?, ¬p c) (hlast : ∀ c ∈ cs.getLast?, ¬p c) :
    stripChars p cs = cs := by
  rw [stripChars, dropWhile_of_head? hfirst,
    dropWhile_of_head? (by rwa [List.head?_reverse]), List.reverse_reverse]

/-- Nothing is left to drop. -/
theorem stripChars_stripChars (p : Char → Bool) (cs : List Char) :
    stripChars p (stripChars p cs) = stripChars p cs :=
  stripChars_eq_self (fun _ h => not_of_mem_head?_stripChars h)
    fun _ h => not_of_mem_getLast?_stripChars h

/-- A part that begins and ends with characters that stay is kept, and nothing is dropped but at the
ends of what stands before and behind it. -/
theorem stripChars_append_append_of_ne_nil {part : List Char} (l r : List Char) (hne : part ≠ [])
    (hfirst : ∀ c ∈ part.head?, ¬p c) (hlast : ∀ c ∈ part.getLast?, ¬p c) :
    stripChars p (l ++ part ++ r) = l.dropWhile p ++ part ++ (r.reverse.dropWhile p).reverse := by
  have hfront : (l ++ part ++ r).dropWhile p = l.dropWhile p ++ part ++ r := by
    rw [List.append_assoc, dropWhile_append_of_head? (by rwa [List.head?_append_of_ne_nil _ hne]),
      List.append_assoc]
  have hback : (l.dropWhile p ++ part ++ r).reverse.dropWhile p =
      r.reverse.dropWhile p ++ (l.dropWhile p ++ part).reverse := by
    rw [List.reverse_append]
    apply dropWhile_append_of_head?
    rwa [List.head?_reverse, List.getLast?_append_of_ne_nil _ hne]
  rw [stripChars, hfront, hback, List.reverse_append, List.reverse_reverse]

/-- What begins and ends with characters that stay is kept at the front. -/
theorem exists_stripChars_append {as bs : List Char} (hne : as ≠ [])
    (hfirst : ∀ c ∈ as.head?, ¬p c) (hlast : ∀ c ∈ as.getLast?, ¬p c) :
    ∃ rest, stripChars p (as ++ bs) = as ++ rest :=
  ⟨_, stripChars_append_append_of_ne_nil [] bs hne hfirst hlast⟩

end Strip

theorem trim_eq_empty_iff {s : String} : trim s = "" ↔ ∀ c ∈ s.toList, c = ' ' := by
  rw [← String.toList_inj, trim, String.toList_ofList, trimmed]
  simpa using @stripChars_eq_nil_iff (· = ' ') s.toList

theorem trim_eq_self {s : String} (hfirst : ∀ c ∈ s.toList.head?, c ≠ ' ')
    (hlast : ∀ c ∈ s.toList.getLast?, c ≠ ' ') : trim s = s := by
  rw [trim, trimmed, stripChars_eq_self (by simpa using hfirst) (by simpa using hlast),
    String.ofList_toList]

theorem trimmed_of_not_mem {cs : List Char} (h : ' ' ∉ cs) : trimmed cs = cs := by
  have hne : ∀ c ∈ cs, ¬decide (c = ' ') = true := by
    intro c hc e
    obtain rfl := of_decide_eq_true e
    exact h hc
  exact stripChars_eq_self (fun c hc => hne c (List.mem_of_mem_head? hc))
    (fun c hc => hne c (List.mem_of_getLast? hc))

theorem trimmed_trimmed (cs : List Char) : trimmed (trimmed cs) = trimmed cs :=
  stripChars_stripChars _ cs

theorem trimmed_ne_nil {cs : List Char} {c : Char} (hc : c ∈ cs) (h : c ≠ ' ') :
    trimmed cs ≠ [] := by
  intro e
  exact h (by simpa using stripChars_eq_nil_iff.1 e c hc)

theorem trim_of_not_mem {s : String} (h : ' ' ∉ s.toList) : trim s = s := by
  rw [trim, trimmed_of_not_mem h, String.ofList_toList]

/-! ### Splitting -/

theorem consFirst_ne_nil (c : Char) (ps : List (List Char)) : consFirst c ps ≠ [] := by
  cases ps <;> exact List.cons_ne_nil _ _

theorem intercalate_consFirst {sep : List Char} {ps : List (List Char)} (c : Char) (h : ps ≠ []) :
    List.intercalate sep (consFirst c ps) = c :: List.intercalate sep ps := by
  obtain ⟨p, ps, rfl⟩ := List.exists_cons_of_ne_nil h
  cases ps with
  | nil => simp [consFirst]
  | cons q ps => simp [consFirst, List.intercalate_cons_cons]

theorem pieces_eq_splitOn (d : Char) (cs : List Char) : pieces d [] cs = cs.splitOn d := by
  induction cs with
  | nil => simp [pieces, List.splitOn_nil]
  | cons c cs ih =>
    have hcons : consFirst c (cs.splitOn d) = (cs.splitOn d).modifyHead (c :: ·) := by
      obtain ⟨piece, rest, e⟩ := List.exists_cons_of_ne_nil (List.splitOn_ne_nil d cs)
      rw [e]
      rfl
    rw [pieces, List.splitOn_cons_eq_if_modifyHead]
    by_cases h : d = c
    · subst h
      simp [afterChars?, ih]
    · have hb : ¬(c == d) = true := by simpa using Ne.symm h
      rw [if_neg h, if_neg hb, ih, hcons]

/-- Splitting at a separator of one character, if there is more to split than the separator. -/
theorem split_eq_splitOn {s sep : String} {d : Char} (hsep : sep.toList = [d]) (hs : s ≠ sep) :
    split s sep = (s.toList.splitOn d).map String.ofList := by
  rw [split, hsep]
  dsimp only
  rw [if_neg hs, pieces_eq_splitOn]

/-- A piece has no separator in it, and only characters of the text. -/
theorem mem_splitOn {d : Char} {cs piece : List Char} (h : piece ∈ cs.splitOn d) :
    d ∉ piece ∧ ∀ c ∈ piece, c ∈ cs := by
  induction cs generalizing piece with
  | nil => simp_all [List.splitOn_nil]
  | cons c cs ih =>
    obtain ⟨first, rest, e⟩ := List.exists_cons_of_ne_nil (List.splitOn_ne_nil d cs)
    have hfirst : d ∉ first ∧ ∀ c ∈ first, c ∈ cs := ih (by simp [e])
    rw [List.splitOn_cons_eq_if_modifyHead] at h
    split at h
    · rcases List.mem_cons.1 h with rfl | h
      · simp
      · exact ⟨(ih h).1, fun x hx => List.mem_cons_of_mem _ ((ih h).2 x hx)⟩
    · next hc =>
      -- the first piece grows by a character that is no separator, and the others stay
      rw [e, List.modifyHead_cons] at h
      rcases List.mem_cons.1 h with rfl | h
      · grind
      · obtain ⟨hd, hmem⟩ : d ∉ piece ∧ ∀ c ∈ piece, c ∈ cs := ih (by simp [e, h])
        exact ⟨hd, fun x hx => List.mem_cons_of_mem _ (hmem x hx)⟩

/-- What holds of the characters of the separator and of the pieces holds of those of the text
that they are joined to. -/
theorem forall_mem_intercalate {P : Char → Prop} {sep : List Char} {pieces : List (List Char)}
    (hsep : ∀ c ∈ sep, P c) (h : ∀ piece ∈ pieces, ∀ c ∈ piece, P c) :
    ∀ c ∈ List.intercalate sep pieces, P c := by
  induction pieces with
  | nil => simp
  | cons piece pieces ih =>
    rw [List.forall_mem_cons] at h
    cases pieces with
    | nil => simpa using h.1
    | cons next pieces =>
      intro c hc
      rw [List.intercalate_cons_cons, List.mem_append, List.mem_append] at hc
      rcases hc with (hc | hc) | hc
      · exact h.1 c hc
      · exact hsep c hc
      · exact ih h.2 c hc

theorem mem_intercalate {c : Char} {sep piece : List Char} {pieces : List (List Char)}
    (hpiece : piece ∈ pieces) (hc : c ∈ piece) : c ∈ List.intercalate sep pieces := by
  induction pieces with
  | nil => simp at hpiece
  | cons first pieces ih =>
    cases pieces with
    | nil =>
      obtain rfl := List.mem_singleton.1 hpiece
      simpa using hc
    | cons next pieces =>
      rw [List.intercalate_cons_cons, List.mem_append]
      rcases List.mem_cons.1 hpiece with rfl | hpiece
      · exact .inl (List.mem_append_left _ hc)
      · exact .inr (ih hpiece)

theorem not_mem_intercalate {c : Char} {sep : List Char} {pieces : List (List Char)}
    (hsep : c ∉ sep) (h : ∀ piece ∈ pieces, c ∉ piece) : c ∉ List.intercalate sep pieces := by
  intro hc
  refine forall_mem_intercalate (P := (· ≠ c)) ?_ ?_ c hc rfl
  · rintro d hd rfl
    exact hsep hd
  · rintro piece hpiece d hd rfl
    exact h piece hpiece hd

/-! ### Words -/

/-- The maximal runs of characters other than the space. -/
def words (cs : List Char) : List (List Char) :=
  (cs.splitOn ' ').filter fun piece => piece ≠ []

@[simp]
theorem words_nil : words [] = [] := by simp [words, List.splitOn_nil]

@[simp]
theorem words_append_space (l r : List Char) : words (l ++ ' ' :: r) = words l ++ words r := by
  rw [words, List.splitOn_append_cons_self, List.filter_append, words, words]

@[simp]
theorem words_space (cs : List Char) : words (' ' :: cs) = words cs := by
  simpa using words_append_space [] cs

theorem words_of_not_mem {cs : List Char} (hne : cs ≠ []) (h : ' ' ∉ cs) : words cs = [cs] := by
  simp [words, List.splitOn_eq_singleton h, hne]

theorem mem_words {cs word : List Char} (h : word ∈ words cs) :
    word ≠ [] ∧ ' ' ∉ word ∧ ∀ c ∈ word, c ∈ cs := by
  obtain ⟨h, hne⟩ := List.mem_filter.1 h
  exact ⟨by simpa using hne, mem_splitOn h⟩

theorem words_of_forall_space {cs : List Char} (h : ∀ c ∈ cs, c = ' ') : words cs = [] := by
  induction cs with
  | nil => simp
  | cons c cs ih =>
    rw [List.forall_mem_cons] at h
    rw [h.1, words_space, ih h.2]

/-- Spaces at the two ends make no words. -/
theorem words_append_append {l cs r : List Char} (hl : ∀ c ∈ l, c = ' ') (hr : ∀ c ∈ r, c = ' ') :
    words (l ++ cs ++ r) = words cs := by
  have hright : words (cs ++ r) = words cs := by
    cases r with
    | nil => simp
    | cons c r =>
      rw [List.forall_mem_cons] at hr
      rw [hr.1, words_append_space, words_of_forall_space hr.2, List.append_nil]
  induction l with
  | nil => simpa using hright
  | cons c l ih =>
    rw [List.forall_mem_cons] at hl
    rw [hl.1, List.cons_append, List.cons_append, words_space, ih hl.2]

theorem words_trimmed (cs : List Char) : words (trimmed cs) = words cs := by
  obtain ⟨l, r, e, hl, hr⟩ := exists_append_stripChars (· = ' ') cs
  calc words (trimmed cs) = words (l ++ trimmed cs ++ r) :=
        (words_append_append (by simpa using hl) (by simpa using hr)).symm
    _ = words cs := congrArg words e.symm

theorem tokens_eq_words (s : String) : tokens s = (words s.toList).map String.ofList := by
  -- nothing is trimmed to a single space, so the text is not the separator itself
  have hsep : trim s ≠ " " := by
    intro h
    have hspace : trimmed s.toList = [' '] := by
      rw [← String.toList_ofList (l := trimmed s.toList), ← trim, h]
      rfl
    have hlast : ' ' ∈ (stripChars (· = ' ') s.toList).getLast? := by
      rw [← trimmed, hspace]
      rfl
    exact not_of_mem_getLast?_stripChars hlast (by simp)
  rw [tokens, split_eq_splitOn (d := ' ') (by decide) hsep, trim, String.toList_ofList,
    ← words_trimmed, words, List.filter_map]
  congr 2
  ext piece
  simp

theorem tokens_trim (s : String) : tokens (trim s) = tokens s := by
  rw [tokens_eq_words, tokens_eq_words, trim, String.toList_ofList, words_trimmed]

/-- Empty pieces between spaces that follow each other are passed over where they mean nothing. -/
theorem filterMap_split_space {α : Type} {f : String → Option α} (hempty : f "" = none)
    (hspace : f " " = none) (s : String) : (split s " ").filterMap f = (tokens s).filterMap f := by
  by_cases hs : s = " "
  · subst hs
    have : split " " " " = [" "] := by simp [split]
    simp [this, hspace, tokens_eq_words]
  · rw [split_eq_splitOn (d := ' ') (by decide) hs, tokens_eq_words, words, List.filterMap_map,
      List.filterMap_map, List.filterMap_filter]
    congr 1
    funext piece
    by_cases hp : piece = [] <;> simp [hp, hempty]

/-! ### Cutting -/

theorem cut_eq_some_iff {c : Char} {s l r : String} :
    cut c s = some (l, r) ↔ s.toList = l.toList ++ c :: r.toList ∧ c ∉ l.toList := by
  rw [cut, Option.map_eq_some_iff]
  constructor
  · rintro ⟨⟨l', r'⟩, h, e⟩
    obtain ⟨rfl, rfl⟩ := Prod.mk.inj e
    rw [String.toList_ofList, String.toList_ofList]
    exact cutChars_eq_some_iff.1 h
  · intro h
    exact ⟨(l.toList, r.toList), cutChars_eq_some_iff.2 h, by simp⟩

theorem cut_eq_none_iff {c : Char} {s : String} : cut c s = none ↔ c ∉ s.toList := by
  rw [cut, Option.map_eq_none_iff, cutChars_eq_none_iff]

end ContractAbi.Text
