import ContractAbi.Declaration
import ContractAbi.Proofs.Except
import ContractAbi.Proofs.Text.Basic

/-!
# Declared parameters

The words of a fragment declare a parameter, and the words of a declared parameter's display
declare it again. The same holds of lists:

    listOfText list = .ok ps          → Parameter.DeclarableList ps
    Parameter.DeclarableList ps       → listOfText (displayList ps) = .ok ps

A comma ends a fragment, so no word has one in it, but for the list that is nothing but a comma.
-/

namespace ContractAbi

/-- A text that can be a word. -/
def Text.IsToken (s : String) : Prop :=
  s ≠ "" ∧ ' ' ∉ s.toList

theorem Text.IsToken.words {s : String} (h : IsToken s) : Text.words s.toList = [s.toList] := by
  apply Text.words_of_not_mem
  · simpa using h.1
  · exact h.2

theorem Text.isToken_of_mem_tokens {s w : String} (h : w ∈ tokens s) :
    IsToken w ∧ ∀ c ∈ w.toList, c ∈ s.toList := by
  rw [tokens_eq_words] at h
  obtain ⟨word, hword, rfl⟩ := List.mem_map.1 h
  obtain ⟨hne, hspace, hmem⟩ := mem_words hword
  rw [IsToken, String.toList_ofList]
  exact ⟨⟨by simpa using hne, hspace⟩, hmem⟩

/-- A text that can be a word in a list of parameters. -/
def Text.IsWord (s : String) : Prop :=
  s ≠ "" ∧ ∀ c ∈ s.toList, c ≠ ' ' ∧ c ≠ ',' ∧ c ≠ '(' ∧ c ≠ ')'

-- looks at the characters of the text, not at all characters
instance {s : String} : Decidable (Text.IsWord s) :=
  @instDecidableAnd _ _ inferInstance
    (@List.decidableBAll _ _ (fun _ => inferInstance) s.toList)

theorem Text.IsWord.space_not_mem {s : String} (h : IsWord s) : ' ' ∉ s.toList := by
  intro hc
  exact (h.2 _ hc).1 rfl

theorem Text.IsWord.open_not_mem {s : String} (h : IsWord s) : '(' ∉ s.toList := by
  intro hc
  exact (h.2 _ hc).2.2.1 rfl

theorem Text.IsWord.isToken {s : String} (h : IsWord s) : IsToken s :=
  ⟨h.1, h.space_not_mem⟩

theorem Text.IsWord.words {s : String} (h : IsWord s) : Text.words s.toList = [s.toList] :=
  h.isToken.words

namespace Parameter

/-! ### Fragments -/

/-- The words that declare a parameter. -/
inductive Declares : List String → Parameter → Prop
  | type {t} : Declares [t] (plain t "")
  | modifier {t} {m : Modifier} : Declares [t, m.text] ((plain t "").modify m)
  | name {t n} : Modifier.ofText? n = none → Declares [t, n] (plain t n)
  | all {t n} {m : Modifier} :
      Modifier.ofText? n = none → Declares [t, m.text, n] ((plain t n).modify m)

theorem ofFragment_eq_ok_iff {fragment : String} {p : Parameter} :
    ofFragment fragment = .ok p ↔ '(' ∉ fragment.toList ∧ Declares (Text.tokens fragment) p := by
  rw [ofFragment]
  constructor
  · intro h
    split at h
    · exact absurd h Except.throw_ne_ok
    · next hopen =>
      refine ⟨by simpa [Text.has] using hopen, ?_⟩
      split at h
      · next hws =>
        obtain rfl := Except.pure_eq_ok_iff.1 h
        rw [hws]
        exact .type
      · next hws =>
        rw [hws]
        split at h
        · next hm =>
          obtain rfl := Except.pure_eq_ok_iff.1 h
          rw [← Modifier.ofText?_eq_some_iff.1 hm]
          exact .modifier
        · next hm =>
          obtain rfl := Except.pure_eq_ok_iff.1 h
          exact .name hm
      · next hws =>
        rw [hws]
        split at h
        · next hm hn =>
          obtain rfl := Except.pure_eq_ok_iff.1 h
          rw [← Modifier.ofText?_eq_some_iff.1 hm]
          exact .all hn
        · exact absurd h Except.throw_ne_ok
      · exact absurd h Except.throw_ne_ok
  · rintro ⟨hopen, h⟩
    have hm : ∀ m : Modifier, Modifier.ofText? m.text = some m :=
      fun m => Modifier.ofText?_eq_some_iff.2 rfl
    rw [if_neg (by simpa [Text.has] using hopen)]
    generalize Text.tokens fragment = ws at h
    cases h with
    | type => rfl
    | modifier => simp only [hm]; rfl
    | name hn => simp only [hn]; rfl
    | all hn => simp only [hm, hn]; rfl

/-- The type that words declare is one of them, and so is the name if there is one. -/
theorem Declares.mem {ws : List String} {p : Parameter} (h : Declares ws p) :
    p.type ∈ ws ∧ (p.name = "" ∨ p.name ∈ ws) := by
  cases h with
  | type => exact ⟨List.mem_cons_self, .inl rfl⟩
  | modifier => exact ⟨List.mem_cons_self, .inl rfl⟩
  | @name t n _ =>
    have hn : n ∈ [t, n] := by simp
    exact ⟨List.mem_cons_self, .inr hn⟩
  | @all t n m _ =>
    have hn : n ∈ [t, m.text, n] := by simp
    exact ⟨List.mem_cons_self, .inr hn⟩

/-- No name that words declare is a modifier, and nothing is declared but a type and a name. -/
theorem Declares.notModifier {ws : List String} {p : Parameter} (h : Declares ws p) :
    Modifier.ofText? p.name = none ∧ p.internalType = none ∧ p.components = none := by
  have hempty : Modifier.ofText? "" = none := by decide
  cases h with
  | type | modifier => exact ⟨hempty, rfl, rfl⟩
  | name hn | all hn => exact ⟨hn, rfl, rfl⟩

/-- A parameter that words can declare. -/
structure OfWords (p : Parameter) : Prop where
  type : Text.IsToken p.type
  name : p.name = "" ∨ Text.IsToken p.name
  notModifier : Modifier.ofText? p.name = none
  internalType : p.internalType = none
  components : p.components = none

theorem Declares.ofWords {ws : List String} {p : Parameter} (h : Declares ws p)
    (hw : ∀ w ∈ ws, Text.IsToken w) : p.OfWords := by
  obtain ⟨htype, hname⟩ := h.mem
  obtain ⟨hmodifier, hinternal, hcomponents⟩ := h.notModifier
  exact ⟨hw _ htype, hname.imp id (hw _), hmodifier, hinternal, hcomponents⟩

/-- A parameter that a fragment of a list can declare. -/
structure Declarable (p : Parameter) : Prop where
  type : Text.IsWord p.type
  name : p.name = "" ∨ Text.IsWord p.name
  notModifier : Modifier.ofText? p.name = none
  internalType : p.internalType = none
  components : p.components = none

theorem Declarable.ofWords {p : Parameter} (h : p.Declarable) : p.OfWords :=
  ⟨h.type.isToken, h.name.imp id Text.IsWord.isToken, h.notModifier, h.internalType, h.components⟩

theorem Declares.declarable {ws : List String} {p : Parameter} (h : Declares ws p)
    (hw : ∀ w ∈ ws, Text.IsWord w) : p.Declarable := by
  obtain ⟨htype, hname⟩ := h.mem
  obtain ⟨hmodifier, hinternal, hcomponents⟩ := h.notModifier
  exact ⟨hw _ htype, hname.imp id (hw _), hmodifier, hinternal, hcomponents⟩

/-! ### The display of a parameter -/

theorem toList_display (p : Parameter) :
    p.display.toList = p.type.toList ++ (if p.indexed then ' ' :: "indexed".toList else []) ++
      (if p.name = "" then [] else ' ' :: p.name.toList) := by
  rw [display, String.toList_append, String.toList_append]
  congr 2
  · split <;> rfl
  · split <;> simp

theorem tokens_display {p : Parameter} (h : p.OfWords) :
    Text.tokens p.display = p.type :: ((if p.indexed then ["indexed"] else []) ++
      if p.name = "" then [] else [p.name]) := by
  have hindexed : Text.IsToken "indexed" := ⟨by decide, by simp⟩
  rw [Text.tokens_eq_words, toList_display]
  generalize "indexed" = keyword at hindexed ⊢
  rcases h.name with hn | hn
  · cases p.indexed <;> simp [hn, h.type.words, hindexed.words]
  · cases p.indexed <;> simp [hn.1, h.type.words, hindexed.words, hn.words]

/-- The display of a parameter that words declare has words that declare it. -/
theorem declares_tokens_display {p : Parameter} (h : p.OfWords) :
    Declares (Text.tokens p.display) p := by
  rw [tokens_display h]
  obtain ⟨type, name, indexed, internalType, components⟩ := p
  obtain ⟨-, -, hm, rfl, rfl⟩ := h
  cases indexed with
  | false =>
    by_cases hn : name = ""
    · subst hn
      exact .type
    · rw [if_neg hn]
      exact .name hm
  | true =>
    by_cases hn : name = ""
    · subst hn
      exact .modifier (m := .indexed)
    · rw [if_neg hn]
      exact .all (m := .indexed) hm

/-- Spaces are the only characters in the display of a parameter that cannot be in a word. -/
theorem mem_display {p : Parameter} (h : p.Declarable) {c : Char} (hc : c ∈ p.display.toList) :
    c ≠ ',' ∧ c ≠ '(' ∧ c ≠ ')' := by
  rw [toList_display, List.mem_append, List.mem_append] at hc
  rcases hc with (hc | hc) | hc
  · exact (h.type.2 c hc).2
  · split at hc
    · have : ∀ c ∈ ' ' :: "indexed".toList, c ≠ ',' ∧ c ≠ '(' ∧ c ≠ ')' := by simp
      exact this c hc
    · simp at hc
  · split at hc
    · simp at hc
    · next hn =>
      rcases List.mem_cons.1 hc with rfl | hc
      · decide
      · exact ((h.name.resolve_left hn).2 c hc).2

/-! ### Lists -/

/-- Parameters that a list can declare. A list that is a single comma is not split at it. -/
def DeclarableList (ps : List Parameter) : Prop :=
  ps = [plain "," ""] ∨ ∀ p ∈ ps, p.Declarable

theorem listOfText_empty : listOfText "" = .ok [] := rfl

theorem listOfText_comma : listOfText "," = .ok [plain "," ""] := by with_unfolding_all rfl

/-- The spaces around a fragment do not matter. -/
theorem ofFragment_trim_eq_ok_iff {piece : List Char} {p : Parameter} :
    ofFragment (Text.trim (String.ofList piece)) = .ok p ↔
      '(' ∉ piece ∧ Declares ((Text.words piece).map String.ofList) p := by
  have hmem : '(' ∈ Text.trimmed piece ↔ '(' ∈ piece := Text.mem_stripChars_iff (by simp)
  rw [ofFragment_eq_ok_iff, Text.tokens_trim, Text.tokens_eq_words, Text.trim, String.toList_ofList,
    String.toList_ofList, hmem]

/-- A list that is neither blank nor a comma declares one parameter between any two commas. -/
theorem listOfText_eq_ok_iff {list : String} {ps : List Parameter} (hblank : Text.trim list ≠ "")
    (hcomma : list ≠ ",") :
    listOfText list = .ok ps ↔
      List.Forall₂ (fun piece p => '(' ∉ piece ∧ Declares ((Text.words piece).map String.ofList) p)
        (list.toList.splitOn ',') ps := by
  rw [listOfText, if_neg hblank, Text.split_eq_splitOn (d := ',') (by decide) hcomma,
    Except.mapM_eq_ok_iff, List.forall₂_map_left_iff]
  simp only [ofFragment_trim_eq_ok_iff]

theorem declarable_of_mem_splitOn {cs piece : List Char} {p : Parameter}
    (hcs : ∀ c ∈ cs, c ≠ '(' ∧ c ≠ ')') (hpiece : piece ∈ cs.splitOn ',')
    (h : Declares ((Text.words piece).map String.ofList) p) : p.Declarable := by
  obtain ⟨hcomma, hmem⟩ := Text.mem_splitOn hpiece
  apply h.declarable
  intro w hw
  obtain ⟨word, hword, rfl⟩ := List.mem_map.1 hw
  obtain ⟨hne, hspace, hsub⟩ := Text.mem_words hword
  refine ⟨by simpa using hne, ?_⟩
  intro c hc
  rw [String.toList_ofList] at hc
  refine ⟨?_, ?_, hcs c (hmem c (hsub c hc))⟩
  · rintro rfl
    exact hspace hc
  · rintro rfl
    exact hcomma (hsub _ hc)

theorem declarableList_of_listOfText {list : String} {ps : List Parameter}
    (h : listOfText list = .ok ps) (hlist : ∀ c ∈ list.toList, c ≠ '(' ∧ c ≠ ')') :
    DeclarableList ps := by
  by_cases hcomma : list = ","
  · rw [hcomma, listOfText_comma] at h
    exact .inl (Except.ok.inj h).symm
  by_cases hblank : Text.trim list = ""
  · rw [listOfText, if_pos hblank] at h
    obtain rfl := Except.pure_eq_ok_iff.1 h
    exact .inr (by simp)
  · rw [listOfText, if_neg hblank, Text.split_eq_splitOn (d := ',') (by decide) hcomma] at h
    refine .inr fun p hp => ?_
    obtain ⟨fragment, hfragment, hp⟩ := Except.exists_of_mem_mapM h hp
    obtain ⟨piece, hpiece, rfl⟩ := List.mem_map.1 hfragment
    exact declarable_of_mem_splitOn hlist hpiece (ofFragment_trim_eq_ok_iff.1 hp).2

theorem toList_displayList (ps : List Parameter) :
    (displayList ps).toList = List.intercalate [',', ' '] (ps.map fun p => p.display.toList) := by
  rw [displayList, String.toList_intercalate, List.map_map]
  rfl

/-- The display of a list has no parentheses in it. -/
theorem mem_displayList {ps : List Parameter} (h : DeclarableList ps) :
    ∀ c ∈ (displayList ps).toList, c ≠ '(' ∧ c ≠ ')' := by
  rcases h with rfl | h
  · have : displayList [plain "," ""] = "," := rfl
    rw [this]
    simp
  · rw [toList_displayList]
    refine Text.forall_mem_intercalate (P := fun c => c ≠ '(' ∧ c ≠ ')') (by simp) ?_
    intro text htext c hc
    obtain ⟨p, hp, rfl⟩ := List.mem_map.1 htext
    exact (mem_display (h p hp) hc).2

/-- The texts between the commas begin with a space, but for the first. -/
theorem intercalate_comma_space (x : List Char) (xs : List (List Char)) :
    List.intercalate [',', ' '] (x :: xs) =
      List.intercalate [','] (x :: xs.map fun y => ' ' :: y) := by
  induction xs generalizing x with
  | nil => simp
  | cons y ys ih =>
    rw [List.intercalate_cons_cons, ih, List.map_cons, List.intercalate_cons_cons]
    cases ys <;> simp

/-- The display of a list begins with the type of its first parameter. -/
theorem exists_cons_toList_displayList {p : Parameter} (hp : p.Declarable) (ps : List Parameter) :
    ∃ c cs, (displayList (p :: ps)).toList = c :: cs ∧ c ≠ ' ' ∧ c ≠ ',' := by
  obtain ⟨c, cs, hc⟩ := List.exists_cons_of_ne_nil (l := p.type.toList) (by simpa using hp.type.1)
  have hword := hp.type.2 c (by simp [hc])
  have hfirst : ∃ rest, (displayList (p :: ps)).toList = p.display.toList ++ rest := by
    rw [toList_displayList]
    cases ps with
    | nil => exact ⟨[], by simp⟩
    | cons q ps =>
      rw [List.map_cons, List.map_cons, List.intercalate_cons_cons, List.append_assoc]
      exact ⟨_, rfl⟩
  obtain ⟨rest, hrest⟩ := hfirst
  rw [toList_display, hc, List.append_assoc, List.append_assoc, List.cons_append] at hrest
  exact ⟨c, _, hrest, hword.1, hword.2.1⟩

/-- No comma is in the display of a parameter, so the list is cut where the displays were joined. -/
theorem splitOn_displayList {p : Parameter} {ps : List Parameter}
    (h : ∀ q ∈ p :: ps, q.Declarable) :
    (displayList (p :: ps)).toList.splitOn ',' =
      p.display.toList :: ps.map fun q => ' ' :: q.display.toList := by
  rw [toList_displayList, List.map_cons, intercalate_comma_space, List.map_map,
    List.splitOn_intercalate]
  · rfl
  · intro l hl hc
    rcases List.mem_cons.1 hl with rfl | hl
    · exact (mem_display (h p (by simp)) hc).1 rfl
    · obtain ⟨q, hq, rfl⟩ := List.mem_map.1 hl
      exact (mem_display (h q (by simp [hq])) (by simpa using hc)).1 rfl
  · simp

/-- The display of declarable parameters declares them. -/
theorem listOfText_displayList {ps : List Parameter} (h : DeclarableList ps) :
    listOfText (displayList ps) = .ok ps := by
  rcases h with rfl | h
  · exact listOfText_comma
  cases ps with
  | nil => rfl
  | cons p ps =>
    obtain ⟨c, cs, htext, hspace, hcomma⟩ := exists_cons_toList_displayList (h p (by simp)) ps
    have hblank : Text.trim (displayList (p :: ps)) ≠ "" := by
      rw [Ne, Text.trim_eq_empty_iff, htext]
      intro hall
      exact hspace (hall c (by simp))
    have hne : displayList (p :: ps) ≠ "," := by
      intro e
      rw [e] at htext
      exact hcomma (List.cons.inj htext).1.symm
    have hopen : ∀ q ∈ p :: ps, '(' ∉ q.display.toList := by
      intro q hq hc
      exact (mem_display (h q hq) hc).2.1 rfl
    have hdeclares : ∀ q ∈ p :: ps,
        Declares ((Text.words q.display.toList).map String.ofList) q := by
      intro q hq
      rw [← Text.tokens_eq_words]
      exact declares_tokens_display (h q hq).ofWords
    rw [listOfText_eq_ok_iff hblank hne, splitOn_displayList h]
    refine .cons ⟨hopen p (by simp), hdeclares p (by simp)⟩ ?_
    rw [List.forall₂_map_left_iff, List.forall₂_same]
    intro q hq
    -- the space that follows the comma is no part of a word
    rw [Text.words_space]
    exact ⟨by simpa using hopen q (by simp [hq]), hdeclares q (by simp [hq])⟩

end Parameter

end ContractAbi
