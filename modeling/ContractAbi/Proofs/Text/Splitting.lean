import ContractAbi.Proofs.Text.Basic

/-!
# Pieces, words and cores

What the operations on text do, said without the way they scan it. A text cut at a separator is put
together again by joining the pieces, none of which has a separator in it. The words of a text are
its maximal runs of characters other than the space. Dropping characters from both ends leaves the
longest part that has none of them at its ends. Main statement: `split_tokens_trimChars_exact`.
-/

namespace ContractAbi.Text

/-! ### Pieces -/

theorem pieces_ne_nil (d : Char) (ds cs : List Char) : pieces d ds cs ≠ [] := by
  fun_cases pieces d ds cs with
  | case1 => exact List.cons_ne_nil _ _
  | case2 => exact List.cons_ne_nil _ _
  | case3 => exact consFirst_ne_nil _ _
  | case4 => exact consFirst_ne_nil _ _

/-- Joining the pieces gives the text back. -/
theorem intercalate_pieces (d : Char) (ds cs : List Char) :
    List.intercalate (d :: ds) (pieces d ds cs) = cs := by
  fun_induction pieces d ds cs with
  | case1 => simp
  | case2 cs rest hrest ih =>
    obtain ⟨p, ps, hps⟩ := List.exists_cons_of_ne_nil (pieces_ne_nil d ds rest)
    rw [hps, List.intercalate_cons_cons, ← hps, ih, eq_append_of_afterChars? hrest]
    rfl
  | case3 cs _ ih => rw [intercalate_consFirst d (pieces_ne_nil d ds cs), ih]
  | case4 c cs _ ih => rw [intercalate_consFirst c (pieces_ne_nil d ds cs), ih]

/-- A text begins with its first piece. -/
theorem isPrefix_of_pieces_eq_cons {d : Char} {ds cs p : List Char} {ps : List (List Char)}
    (h : pieces d ds cs = p :: ps) : p <+: cs := by
  rw [← intercalate_pieces d ds cs, h]
  cases ps with
  | nil => simp
  | cons q ps =>
    rw [List.intercalate_cons_cons, List.append_assoc]
    exact List.prefix_append _ _

/-- Where the text does not begin with a separator, the first piece takes in its first character
and has still no separator in it. -/
theorem not_isInfix_consFirst {d c : Char} {ds cs : List Char}
    (hstart : ¬d :: ds <+: c :: cs) (h : ∀ p ∈ pieces d ds cs, ¬d :: ds <:+: p) :
    ∀ p ∈ consFirst c (pieces d ds cs), ¬d :: ds <:+: p := by
  obtain ⟨first, ps, hps⟩ := List.exists_cons_of_ne_nil (pieces_ne_nil d ds cs)
  rw [hps, List.forall_mem_cons] at h
  rw [hps, consFirst, List.forall_mem_cons]
  refine ⟨?_, h.2⟩
  rw [List.infix_cons_iff, not_or]
  refine ⟨?_, h.1⟩
  intro hbegins
  have hfirst : c :: first <+: c :: cs :=
    (List.prefix_cons_inj c).2 (isPrefix_of_pieces_eq_cons hps)
  exact hstart (hbegins.trans hfirst)

/-- No piece has a separator in it, whatever the separators overlap with. -/
theorem not_isInfix_of_mem_pieces (d : Char) (ds cs : List Char) :
    ∀ p ∈ pieces d ds cs, ¬d :: ds <:+: p := by
  have hnil : ¬d :: ds <:+: [] := by simp
  fun_induction pieces d ds cs with
  | case1 => rwa [List.forall_mem_singleton]
  | case2 cs rest hrest ih => exact List.forall_mem_cons.2 ⟨hnil, ih⟩
  | case3 cs hnone ih =>
    refine not_isInfix_consFirst ?_ ih
    intro hbegins
    obtain ⟨rest, rfl⟩ := (List.prefix_cons_inj d).1 hbegins
    rw [afterChars?_append] at hnone
    cases hnone
  | case4 c cs hne ih =>
    refine not_isInfix_consFirst ?_ ih
    intro hbegins
    exact hne (List.cons_prefix_cons.1 hbegins).1

/-- Whether some texts are the pieces of `s` between separators: joined they are `s`, and they have
no separator in them unless `s` is nothing but one. -/
structure Splits (s sep : String) (ps : List String) : Prop where
  join : sep.intercalate ps = s
  separate : s ≠ sep → ∀ p ∈ ps, ¬sep.toList <:+: p.toList

theorem splits_split {s sep : String} (hsep : sep ≠ "") : Splits s sep (split s sep) := by
  obtain ⟨d, ds, hd⟩ := List.exists_cons_of_ne_nil (l := sep.toList) (by simpa using hsep)
  rw [split, hd]
  dsimp only
  split
  · next hs =>
    subst hs
    exact ⟨String.intercalate_singleton, fun h => absurd rfl h⟩
  · refine ⟨?_, ?_⟩
    · rw [← String.toList_inj, String.toList_intercalate, List.map_map, hd]
      have hmap : (pieces d ds s.toList).map (String.toList ∘ String.ofList) =
          pieces d ds s.toList := by simp
      rw [hmap, intercalate_pieces]
    · intro _ p hp
      obtain ⟨piece, hpiece, rfl⟩ := List.mem_map.1 hp
      rw [hd, String.toList_ofList]
      exact not_isInfix_of_mem_pieces d ds s.toList piece hpiece

/-! ### Words -/

/-- What ends with a space and has none is empty. -/
theorem eq_nil_of_getLast? {cs : List Char} (h : ∀ c ∈ cs.getLast?, c = ' ') (hcs : ' ' ∉ cs) :
    cs = [] := by
  cases hlast : cs.getLast? with
  | none => exact List.getLast?_eq_none_iff.1 hlast
  | some c =>
    obtain rfl := h c hlast
    exact absurd (List.mem_of_getLast? hlast) hcs

/-- What begins with a space and has none is empty. -/
theorem eq_nil_of_head? {cs : List Char} (h : ∀ c ∈ cs.head?, c = ' ') (hcs : ' ' ∉ cs) :
    cs = [] := by
  cases hhead : cs.head? with
  | none => exact List.head?_eq_none_iff.1 hhead
  | some c =>
    obtain rfl := h c hhead
    exact absurd (List.mem_of_mem_head? hhead) hcs

/-- A part of a text, with what stands before and after it. -/
structure Run where
  before : List Char
  word : List Char
  after : List Char

namespace Run

/-- Whether a part is a maximal run of characters other than the space. -/
structure IsMaximal (r : Run) (cs : List Char) : Prop where
  text : cs = r.before ++ r.word ++ r.after
  ne_nil : r.word ≠ []
  space_not_mem : ' ' ∉ r.word
  left : ∀ c ∈ r.before.getLast?, c = ' '
  right : ∀ c ∈ r.after.head?, c = ' '

/-- Without a space there is one run, the whole text. -/
theorem isMaximal_iff_of_not_mem {r : Run} {cs : List Char} (hcs : ' ' ∉ cs) :
    r.IsMaximal cs ↔ cs ≠ [] ∧ r = ⟨[], cs, []⟩ := by
  constructor
  · rintro ⟨rfl, hne, -, hleft, hright⟩
    obtain ⟨before, word, after⟩ := r
    simp only [List.mem_append, not_or] at hcs
    obtain rfl := eq_nil_of_getLast? hleft hcs.1.1
    obtain rfl := eq_nil_of_head? hright hcs.2
    exact ⟨by simpa using hne, by simp⟩
  · rintro ⟨hne, rfl⟩
    exact ⟨by simp, hne, hcs, by simp, by simp⟩

/-- The same part of a text that has been put behind another one and a space. -/
def shift (l : List Char) (r : Run) : Run :=
  ⟨l ++ ' ' :: r.before, r.word, r.after⟩

theorem IsMaximal.shift {r : Run} {cs : List Char} (h : r.IsMaximal cs) (l : List Char) :
    (r.shift l).IsMaximal (l ++ ' ' :: cs) := by
  obtain ⟨rfl, hne, hspace, hleft, hright⟩ := h
  refine ⟨by simp [Run.shift], hne, hspace, ?_, hright⟩
  intro c hc
  rw [Run.shift, List.getLast?_append, List.getLast?_cons] at hc
  cases hlast : r.before.getLast? with
  | none => simpa [hlast, eq_comm] using hc
  | some d =>
    obtain rfl : d = c := by simpa [hlast] using hc
    exact hleft d hlast

/-- The first space ends a run, unless nothing stands before it, and the others are behind it. -/
theorem isMaximal_append_space_iff {r : Run} {l cs : List Char} (hl : ' ' ∉ l) :
    r.IsMaximal (l ++ ' ' :: cs) ↔
      (l ≠ [] ∧ r = ⟨[], l, ' ' :: cs⟩) ∨ ∃ r' : Run, r'.IsMaximal cs ∧ r = r'.shift l := by
  constructor
  · rintro ⟨htext, hne, hspace, hleft, hright⟩
    obtain ⟨before, word, after⟩ := r
    simp only at htext hne hspace hleft hright
    rw [List.append_assoc, List.append_eq_append_iff] at htext
    rcases htext with ⟨behind, rfl, hbehind⟩ | ⟨front, rfl, hfront⟩
    · -- the run begins behind the space, which is no part of it
      cases behind with
      | nil =>
        obtain ⟨d, word, rfl⟩ := List.exists_cons_of_ne_nil hne
        obtain rfl : ' ' = d := (List.cons.inj hbehind).1
        simp at hspace
      | cons d behind =>
        obtain ⟨rfl, rfl⟩ := List.cons.inj hbehind
        refine .inr ⟨⟨behind, word, after⟩, ⟨by simp, hne, hspace, ?_, hright⟩, rfl⟩
        intro c hc
        apply hleft
        simp only [Option.mem_def] at hc ⊢
        rw [List.getLast?_append, List.getLast?_cons, hc]
        rfl
    · -- the run begins before the space, where no other space can stand
      rw [List.mem_append, not_or] at hl
      obtain rfl := eq_nil_of_getLast? hleft hl.1
      rw [List.append_eq_append_iff] at hfront
      rcases hfront with ⟨more, rfl, rfl⟩ | ⟨more, rfl, hmore⟩
      · obtain rfl : more = [] := by
          apply eq_nil_of_head? _ fun hmem => hl.2 (List.mem_append_right _ hmem)
          intro c hc
          apply hright
          rw [List.head?_append, hc]
          rfl
        exact .inl ⟨by simpa using hne, by simp⟩
      · cases more with
        | nil =>
          rw [List.nil_append] at hmore
          exact .inl ⟨by simpa using hne, by simp [hmore]⟩
        | cons d more =>
          obtain rfl : ' ' = d := (List.cons.inj hmore).1
          simp at hspace
  · rintro (⟨hne, rfl⟩ | ⟨r', hr', rfl⟩)
    · exact ⟨by simp, hne, hl, by simp, by simp⟩
    · exact hr'.shift l

/-- Whether some runs are all the maximal ones of a text, in the order in which they stand in it. -/
structure Enumerate (runs : List Run) (cs : List Char) : Prop where
  mem_iff : ∀ r, r ∈ runs ↔ r.IsMaximal cs
  sorted : runs.Pairwise (·.before.length < ·.before.length)

/-- The run of a text without spaces, in front of some text. -/
def leading (l after : List Char) : List Run :=
  if l = [] then [] else [⟨[], l, after⟩]

theorem mem_leading_iff {r : Run} {l after : List Char} :
    r ∈ leading l after ↔ l ≠ [] ∧ r = ⟨[], l, after⟩ := by
  rw [leading]
  split
  · next h => simp [h]
  · next h => simp [h]

theorem map_word_leading {l : List Char} (hl : ' ' ∉ l) (after : List Char) :
    (leading l after).map word = words l := by
  rw [leading]
  split
  · next h => rw [h, words_nil, List.map_nil]
  · next h => rw [words_of_not_mem h hl, List.map_singleton]

theorem enumerate_leading {l : List Char} (hl : ' ' ∉ l) : Enumerate (leading l []) l := by
  constructor
  · intro r
    rw [mem_leading_iff, isMaximal_iff_of_not_mem hl]
  · rw [leading]
    split
    · exact .nil
    · exact List.pairwise_singleton _ _

theorem Enumerate.append_space {runs : List Run} {l cs : List Char} (h : Enumerate runs cs)
    (hl : ' ' ∉ l) :
    Enumerate (leading l (' ' :: cs) ++ runs.map (shift l)) (l ++ ' ' :: cs) := by
  constructor
  · intro r
    rw [List.mem_append, mem_leading_iff, isMaximal_append_space_iff hl]
    simp only [List.mem_map, h.mem_iff, eq_comm]
  · rw [List.pairwise_append]
    refine ⟨?_, ?_, ?_⟩
    · rw [leading]
      split
      · exact .nil
      · exact List.pairwise_singleton _ _
    · rw [List.pairwise_map]
      exact h.sorted.imp fun hlt => by simpa [shift] using hlt
    · -- the leading run begins the text
      intro r hr r' hr'
      obtain ⟨-, rfl⟩ := mem_leading_iff.1 hr
      obtain ⟨r, -, rfl⟩ := List.mem_map.1 hr'
      show 0 < (l ++ ' ' :: r.before).length
      rw [List.length_append, List.length_cons]
      omega

end Run

/-- The words of a text are its maximal runs. -/
theorem exists_enumerate (cs : List Char) :
    ∃ runs : List Run, Run.Enumerate runs cs ∧ words cs = runs.map Run.word := by
  induction hn : cs.length using Nat.strongRecOn generalizing cs with
  | _ n ih =>
    cases hcut : cutChars ' ' cs with
    | none =>
      have hcs : ' ' ∉ cs := cutChars_eq_none_iff.1 hcut
      exact ⟨_, Run.enumerate_leading hcs, (Run.map_word_leading hcs []).symm⟩
    | some parts =>
      obtain ⟨l, rest⟩ := parts
      obtain ⟨rfl, hl⟩ := cutChars_eq_some_iff.1 hcut
      have hlength : rest.length < n := by
        rw [← hn, List.length_append, List.length_cons]
        omega
      obtain ⟨runs, hruns, hwords⟩ := ih rest.length hlength rest rfl
      refine ⟨_, hruns.append_space hl, ?_⟩
      rw [words_append_space, List.map_append, Run.map_word_leading hl, hwords, List.map_map]
      rfl

/-- Whether some texts are the maximal runs of `s`, in the order in which they stand in it. -/
def AreRuns (s : String) (ws : List String) : Prop :=
  ∃ runs : List Run, Run.Enumerate runs s.toList ∧ ws = runs.map fun r => String.ofList r.word

theorem areRuns_tokens (s : String) : AreRuns s (tokens s) := by
  obtain ⟨runs, hruns, hwords⟩ := exists_enumerate s.toList
  refine ⟨runs, hruns, ?_⟩
  rw [tokens_eq_words, hwords, List.map_map]
  rfl

/-- Spaces at the two ends make no words. -/
theorem tokens_append_append {l s r : String} (hl : ∀ c ∈ l.toList, c = ' ')
    (hr : ∀ c ∈ r.toList, c = ' ') : tokens (l ++ s ++ r) = tokens s := by
  rw [tokens_eq_words, tokens_eq_words, String.toList_append, String.toList_append,
    words_append_append hl hr]

theorem tokens_append_space (l r : String) : tokens (l ++ " " ++ r) = tokens l ++ tokens r := by
  have hspace : (l ++ " " ++ r).toList = l.toList ++ ' ' :: r.toList := by simp
  rw [tokens_eq_words, hspace, words_append_space, List.map_append, ← tokens_eq_words,
    ← tokens_eq_words]

/-- Spaces beside a space make no words. -/
theorem tokens_gap {l r before behind : String} (hbefore : ∀ c ∈ before.toList, c = ' ')
    (hbehind : ∀ c ∈ behind.toList, c = ' ') :
    tokens (l ++ before ++ " " ++ (behind ++ r)) = tokens (l ++ " " ++ r) := by
  have hnone : ∀ c ∈ "".toList, c = ' ' := by simp
  have hleft : tokens (l ++ before) = tokens l := by
    simpa using tokens_append_append (s := l) hnone hbefore
  have hright : tokens (behind ++ r) = tokens r := by
    simpa using tokens_append_append (s := r) hbehind hnone
  rw [tokens_append_space, tokens_append_space, hleft, hright]

/-! ### Cores -/

section Strip

variable {p : Char → Bool}

/-- A part that begins and ends with characters that stay is not touched. -/
theorem isInfix_stripChars {part cs : List Char} (hpart : part <:+: cs)
    (hfirst : ∀ c ∈ part.head?, ¬p c) (hlast : ∀ c ∈ part.getLast?, ¬p c) :
    part <:+: stripChars p cs := by
  by_cases hne : part = []
  · subst hne
    exact List.nil_infix
  obtain ⟨l, r, rfl⟩ := hpart
  rw [stripChars_append_append_of_ne_nil l r hne hfirst hlast]
  exact ⟨_, _, rfl⟩

end Strip

/-- Whether a text has no character of `charset` at its ends. -/
def IsBare (charset s : String) : Prop :=
  (∀ c ∈ s.toList.head?, c ∉ charset.toList) ∧ ∀ c ∈ s.toList.getLast?, c ∉ charset.toList

/-- Whether `core` is what is left of `s` when the characters of `charset`, and no others, are
removed from both ends: the longest part of `s` that has none of them at its ends. -/
structure IsCore (charset s core : String) : Prop where
  removed : ∃ l r, s = l ++ core ++ r ∧ (∀ c ∈ l.toList, c ∈ charset.toList) ∧
    ∀ c ∈ r.toList, c ∈ charset.toList
  bare : IsBare charset core
  longest : ∀ part : String, part.toList <:+: s.toList → IsBare charset part →
    part.toList <:+: core.toList

theorem isCore_trimChars (charset s : String) : IsCore charset s (trimChars charset s) := by
  refine ⟨?_, ⟨?_, ?_⟩, ?_⟩
  · obtain ⟨l, r, h, hl, hr⟩ := exists_append_stripChars (fun c => charset.toList.contains c)
      s.toList
    refine ⟨String.ofList l, String.ofList r, ?_, ?_, ?_⟩
    · rw [← String.toList_inj]
      simpa [trimChars, strip] using h
    · simpa using hl
    · simpa using hr
  · intro c hc
    rw [trimChars, strip, String.toList_ofList] at hc
    simpa using not_of_mem_head?_stripChars hc
  · intro c hc
    rw [trimChars, strip, String.toList_ofList] at hc
    simpa using not_of_mem_getLast?_stripChars hc
  · rintro part hpart ⟨hfirst, hlast⟩
    rw [trimChars, strip, String.toList_ofList]
    exact isInfix_stripChars hpart (by simpa using hfirst) (by simpa using hlast)

theorem trimChars_trimChars (charset s : String) :
    trimChars charset (trimChars charset s) = trimChars charset s := by
  rw [trimChars, trimChars, strip, strip, String.toList_ofList, stripChars_stripChars]

/-! ### Main statement -/

/-- Splitting loses nothing, the words of a text are its maximal runs whatever spaces are put to
spaces, and trimming takes as much as there is from both ends and nothing else. -/
theorem split_tokens_trimChars_exact (s : String) :
    ((∀ sep, sep ≠ "" → Splits s sep (split s sep)) ∧
      split s "" = s.toList.map String.singleton) ∧
    (AreRuns s (tokens s) ∧
      (∀ before behind : String, (∀ c ∈ before.toList, c = ' ') → (∀ c ∈ behind.toList, c = ' ') →
        tokens (before ++ s ++ behind) = tokens s) ∧
      ∀ l r before behind : String, s = l ++ " " ++ r → (∀ c ∈ before.toList, c = ' ') →
        (∀ c ∈ behind.toList, c = ' ') →
        tokens (l ++ before ++ " " ++ (behind ++ r)) = tokens s) ∧
    ∀ charset, IsCore charset s (trimChars charset s) ∧
      trimChars charset (trimChars charset s) = trimChars charset s := by
  refine ⟨⟨fun sep hsep => splits_split hsep, ?_⟩, ⟨areRuns_tokens s, ?_, ?_⟩, ?_⟩
  · exact List.map_congr_left fun c _ => String.singleton_eq_ofList.symm
  · intro before behind hbefore hbehind
    exact tokens_append_append hbefore hbehind
  · rintro l r before behind rfl hbefore hbehind
    exact tokens_gap hbefore hbehind
  · intro charset
    exact ⟨isCore_trimChars charset s, trimChars_trimChars charset s⟩

/-- A separator that overlaps with itself, words between gaps of several spaces, and a core with
characters of the set inside. -/
theorem split_tokens_trimChars_exact_of_overlap :
    ("aa" ≠ "" ∧ split "aaabaa" "aa" = ["", "ab", ""] ∧ Splits "aaabaa" "aa" ["", "ab", ""]) ∧
    (tokens "  ñb   c " = ["ñb", "c"] ∧ AreRuns "  ñb   c " ["ñb", "c"]) ∧
    trimChars "( )" "(( a b ))" = "a b" ∧ IsCore "( )" "(( a b ))" "a b" := by
  have hsplit : split "aaabaa" "aa" = ["", "ab", ""] := by with_unfolding_all rfl
  have htokens : tokens "  ñb   c " = ["ñb", "c"] := by with_unfolding_all rfl
  have htrim : trimChars "( )" "(( a b ))" = "a b" := rfl
  have hpieces := (split_tokens_trimChars_exact "aaabaa").1.1 "aa" (by decide)
  have hruns := (split_tokens_trimChars_exact "  ñb   c ").2.1.1
  have hcore := ((split_tokens_trimChars_exact "(( a b ))").2.2 "( )").1
  rw [hsplit] at hpieces
  rw [htokens] at hruns
  rw [htrim] at hcore
  exact ⟨⟨by decide, hsplit, hpieces⟩, ⟨htokens, hruns⟩, htrim, hcore⟩

end ContractAbi.Text
