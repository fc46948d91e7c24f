import ContractAbi.Proofs.Declaration.Parameter

/-!
# Lists and their commas

A list of parameters is cut at its commas, and each fragment declares one parameter. The one list
for which this is not so is the single comma: a separator that is the whole of a text leaves the
text in one piece, and the piece is taken for a type. Main statement:

    CommasSeparate list ↔ list ≠ ","
-/

namespace ContractAbi

/-- There is one more piece than there are separators. -/
theorem Text.length_splitOn (d : Char) (cs : List Char) :
    (cs.splitOn d).length = cs.count d + 1 := by
  induction cs with
  | nil => rw [List.splitOn_nil, List.count_nil, List.length_singleton]
  | cons c cs ih =>
    rw [List.splitOn_cons_eq_if_modifyHead, List.count_cons]
    split
    · rw [List.length_cons, ih]
    · rw [List.length_modifyHead, ih, Nat.add_zero]

namespace Parameter

/-! ### Fragments -/

/-- A blank fragment declares nothing. -/
theorem ofFragment_trim_ne_ok {piece : List Char} {p : Parameter} (h : ∀ c ∈ piece, c = ' ') :
    ofFragment (Text.trim (String.ofList piece)) ≠ .ok p := by
  intro hp
  have hdeclares := (ofFragment_trim_eq_ok_iff.1 hp).2
  rw [Text.words_of_forall_space h] at hdeclares
  cases hdeclares.mem.1

/-- What a fragment without commas declares has none. -/
theorem comma_not_mem_of_ofFragment {piece : List Char} {p : Parameter} (hpiece : ',' ∉ piece)
    (h : ofFragment (Text.trim (String.ofList piece)) = .ok p) :
    ',' ∉ p.type.toList ∧ ',' ∉ p.name.toList := by
  obtain ⟨htype, hname⟩ := (ofFragment_trim_eq_ok_iff.1 h).2.mem
  have hword : ∀ w ∈ (Text.words piece).map String.ofList, ',' ∉ w.toList := by
    intro w hw hc
    obtain ⟨word, hword, rfl⟩ := List.mem_map.1 hw
    rw [String.toList_ofList] at hc
    exact hpiece ((Text.mem_words hword).2.2 _ hc)
  refine ⟨hword _ htype, ?_⟩
  rcases hname with hname | hname
  · rw [hname]
    decide
  · exact hword _ hname

/-! ### Lists -/

/-- Whether every comma of a list separates parameters: a list with commas declares one parameter
for each of the fragments that they leave, so no comma gets into a parameter and no fragment is
blank. -/
structure CommasSeparate (list : String) : Prop where
  parameters : ∀ ps, listOfText list = .ok ps →
    ((∀ c ∈ list.toList, c = ' ') ∧ ps = []) ∨
      (ps.length = list.toList.count ',' + 1 ∧
        List.Forall₂ (fun fragment p => ofFragment (Text.trim (String.ofList fragment)) = .ok p)
          (list.toList.splitOn ',') ps)
  comma_not_mem : ∀ ps, listOfText list = .ok ps →
    ∀ p ∈ ps, ',' ∉ p.type.toList ∧ ',' ∉ p.name.toList
  blank : ',' ∈ list.toList → ∀ fragment ∈ list.toList.splitOn ',', (∀ c ∈ fragment, c = ' ') →
    ∃ e, listOfText list = .error e

/-- A list that is neither blank nor a comma is read fragment by fragment. -/
theorem forall₂_of_listOfText {list : String} {ps : List Parameter}
    (hblank : Text.trim list ≠ "") (hcomma : list ≠ ",") (h : listOfText list = .ok ps) :
    List.Forall₂ (fun fragment p => ofFragment (Text.trim (String.ofList fragment)) = .ok p)
      (list.toList.splitOn ',') ps := by
  rw [listOfText, if_neg hblank, Text.split_eq_splitOn (d := ',') (by decide) hcomma,
    Except.mapM_eq_ok_iff, List.forall₂_map_left_iff] at h
  exact h

/-- Every comma separates parameters, but for the one that is the whole list. -/
theorem commasSeparate_iff (list : String) : CommasSeparate list ↔ list ≠ "," := by
  constructor
  · rintro h rfl
    exact (h.comma_not_mem _ listOfText_comma _ (List.mem_singleton_self _)).1 (by decide)
  · intro hcomma
    by_cases hblank : Text.trim list = ""
    · -- nothing but spaces, so there is neither a comma nor a parameter
      have hnil : listOfText list = .ok [] := if_pos hblank
      refine ⟨?_, ?_, ?_⟩
      · intro ps h
        exact .inl ⟨Text.trim_eq_empty_iff.1 hblank, Except.ok.inj (h.symm.trans hnil)⟩
      · intro ps h
        obtain rfl : ps = [] := Except.ok.inj (h.symm.trans hnil)
        exact List.forall_mem_nil _
      · intro hmem
        cases Text.trim_eq_empty_iff.1 hblank _ hmem
    · refine ⟨?_, ?_, ?_⟩
      · intro ps h
        have hfragments := forall₂_of_listOfText hblank hcomma h
        exact .inr ⟨hfragments.length_eq.symm.trans (Text.length_splitOn ',' _), hfragments⟩
      · intro ps h p hp
        obtain ⟨piece, hpiece, hread⟩ :=
          (forall₂_of_listOfText hblank hcomma h).exists_of_mem_right hp
        exact comma_not_mem_of_ofFragment (Text.mem_splitOn hpiece).1 hread
      · intro _ piece hpiece hspaces
        cases h : listOfText list with
        | error e => exact ⟨e, rfl⟩
        | ok ps =>
          obtain ⟨p, -, hread⟩ :=
            (forall₂_of_listOfText hblank hcomma h).exists_of_mem_left hpiece
          exact absurd hread (ofFragment_trim_ne_ok hspaces)

/-- Three fragments, one with a modifier, and a list with a blank fragment between two commas. -/
theorem commasSeparate_iff_of_modifier :
    let list := "uint indexed a, address,bool  b"
    let ps : List Parameter :=
      [⟨"uint", "a", true, none, none⟩, .plain "address" "", .plain "bool" "b"]
    (listOfText list = .ok ps ∧ ps.length = list.toList.count ',' + 1 ∧ CommasSeparate list) ∧
      (CommasSeparate "uint, ,bool" ∧ ∃ e, listOfText "uint, ,bool" = .error e) := by
  intro list ps
  have hread : listOfText "uint indexed a, address,bool  b" = .ok
      [⟨"uint", "a", true, none, none⟩, .plain "address" "", .plain "bool" "b"] := by
    rw [listOfText_eq_ok_iff (by decide) (by decide)]
    exact .cons ⟨by decide, .all (m := .indexed) (by decide)⟩
      (.cons ⟨by decide, .type⟩ (.cons ⟨by decide, .name (by decide)⟩ .nil))
  have hlist : CommasSeparate list := (commasSeparate_iff list).2 (by decide)
  have hgap : CommasSeparate "uint, ,bool" := (commasSeparate_iff _).2 (by decide)
  refine ⟨⟨hread, by decide, hlist⟩, hgap, ?_⟩
  exact hgap.blank (by decide) [' '] (by decide) (List.forall_mem_singleton.2 rfl)

/-- The list that is a single comma declares a parameter whose type is the comma. -/
theorem not_commasSeparate : listOfText "," = .ok [plain "," ""] ∧ ¬CommasSeparate "," := by
  refine ⟨listOfText_comma, ?_⟩
  intro h
  exact (h.comma_not_mem _ listOfText_comma _ (List.mem_singleton_self _)).1 (by decide)

end Parameter

end ContractAbi
