import ContractAbi.Proofs.Shape.CanonicalText
import ContractAbi.Proofs.Text.Marks

/-!
# Canonical forms are canonical

The reader of written types takes any text, whether or not it writes a type. What it gives is left
as it is when it is read again: the parentheses and commas that it goes by are the same ones the
second time, spaces at the ends are gone, and a full name has no fuller one. Main statement:

    canonicalText (canonicalText type) = canonicalText type
-/

namespace ContractAbi

/-! ### Types without parentheses around them -/

theorem marks_canonicalRoot (root : String) :
    Text.marks (canonicalRoot root).toList = Text.marks root.toList := by
  unfold canonicalRoot
  split
  · next h => rw [h]; decide
  split
  · next h => rw [h]; decide
  · rfl

theorem head?_canonicalRoot (root : String) :
    (canonicalRoot root).toList.head? = root.toList.head? := by
  unfold canonicalRoot
  split
  · next h => rw [h]; decide
  split
  · next h => rw [h]; decide
  · rfl

theorem canonicalRoot_eq_or (root : String) :
    canonicalRoot root = "uint256" ∨ canonicalRoot root = "int256" ∨ canonicalRoot root = root := by
  unfold canonicalRoot
  split
  · exact .inl rfl
  split
  · exact .inr (.inl rfl)
  · exact .inr (.inr rfl)

theorem canonicalRoot_canonicalRoot (root : String) :
    canonicalRoot (canonicalRoot root) = canonicalRoot root := by
  rcases canonicalRoot_eq_or root with h | h | h
  · rw [h]; decide
  · rw [h]; decide
  · rw [h, h]

/-- A type without parentheses around it is a root and what begins with the first bracket. -/
theorem exists_root (type : List Char) : ∃ root rest, type = root ++ rest ∧ '[' ∉ root ∧
    (∀ c ∈ rest.head?, c = '[') ∧ canonicalPlainChars type =
      (canonicalRoot (String.ofList (Text.trimmed root))).toList ++ rest := by
  refine ⟨type.takeWhile (· ≠ '['), type.dropWhile (· ≠ '['),
    List.takeWhile_append_dropWhile.symm, ?_, ?_, rfl⟩
  · intro hmem
    simpa using List.mem_takeWhile_imp hmem
  · intro c hc
    have := List.head?_dropWhile_not (fun c => decide (c ≠ '[')) type
    rw [hc] at this
    simpa using this

theorem canonicalPlainChars_append {root rest : List Char} (hroot : '[' ∉ root)
    (hrest : ∀ c ∈ rest.head?, c = '[') : canonicalPlainChars (root ++ rest) =
      (canonicalRoot (String.ofList (Text.trimmed root))).toList ++ rest := by
  rw [canonicalPlainChars, splitRoot_append hroot hrest]

/-- The name of a root may be replaced and spaces go, but no parenthesis and no comma. -/
theorem marks_canonicalPlainChars (type : List Char) :
    Text.marks (canonicalPlainChars type) = Text.marks type := by
  obtain ⟨root, rest, rfl, -, -, htext⟩ := exists_root type
  rw [htext, Text.marks_append, marks_canonicalRoot, String.toList_ofList, Text.marks_trimmed,
    Text.marks_append]

theorem canonicalPlainChars_canonicalPlainChars (type : List Char) :
    canonicalPlainChars (canonicalPlainChars type) = canonicalPlainChars type := by
  obtain ⟨root, rest, -, hroot, hrest, htext⟩ := exists_root type
  -- the name that the root is given stands in front of the same bracket, without spaces
  have hname : '[' ∉ (canonicalRoot (String.ofList (Text.trimmed root))).toList ∧
      Text.trimmed (canonicalRoot (String.ofList (Text.trimmed root))).toList =
        (canonicalRoot (String.ofList (Text.trimmed root))).toList := by
    rcases canonicalRoot_eq_or (String.ofList (Text.trimmed root)) with h | h | h
    · rw [h]; decide
    · rw [h]; decide
    · rw [h, String.toList_ofList]
      refine ⟨?_, Text.trimmed_trimmed root⟩
      rwa [Text.trimmed, Text.mem_stripChars_iff (by decide)]
  rw [htext, canonicalPlainChars_append hname.1 hrest, hname.2, String.ofList_toList,
    canonicalRoot_canonicalRoot]

theorem head?_canonicalPlainChars {type : List Char} (h : ∀ c ∈ type.head?, c ≠ ' ') :
    (canonicalPlainChars type).head? = type.head? := by
  obtain ⟨root, rest, rfl, -, -, htext⟩ := exists_root type
  rw [htext, List.head?_append, List.head?_append, head?_canonicalRoot, String.toList_ofList]
  cases root with
  | nil => rfl
  | cons c root =>
    have hc : c ≠ ' ' := h c rfl
    obtain ⟨behind, htrim⟩ : ∃ behind, Text.trimmed ([c] ++ root) = [c] ++ behind :=
      Text.exists_stripChars_append (List.cons_ne_nil c []) (by simpa using hc) (by simpa using hc)
    rw [← List.singleton_append, htrim]
    rfl

theorem trimmed_canonicalPlainChars {type : List Char} (h : Text.trimmed type = type) :
    Text.trimmed (canonicalPlainChars type) = canonicalPlainChars type := by
  have hfirst : ∀ c ∈ type.head?, c ≠ ' ' := by
    intro c hc
    rw [← h] at hc
    simpa using Text.not_of_mem_head?_stripChars hc
  have hlast : ∀ c ∈ type.getLast?, c ≠ ' ' := by
    intro c hc
    rw [← h] at hc
    simpa using Text.not_of_mem_getLast?_stripChars hc
  apply Text.stripChars_eq_self
  · rw [head?_canonicalPlainChars hfirst]
    simpa using hfirst
  · obtain ⟨root, rest, rfl, -, -, htext⟩ := exists_root type
    rw [htext]
    by_cases hrest : rest = []
    · -- the root is all there is
      subst hrest
      rw [List.append_nil]
      rcases canonicalRoot_eq_or (String.ofList (Text.trimmed root)) with h | h | h
      · rw [h]; simp
      · rw [h]; simp
      · rw [h, String.toList_ofList]
        intro c hc
        exact Text.not_of_mem_getLast?_stripChars hc
    · rw [List.getLast?_append_of_ne_nil _ hrest] at hlast ⊢
      simpa using hlast

/-! ### Types in parentheses -/

/-- Whether a type begins with a parenthesis that is closed. -/
def IsGroup (type : List Char) : Prop :=
  ∃ inner parts, type = '(' :: inner ∧ Text.closeChars 0 inner = some parts

theorem canonicalChars_of_not_isGroup {type : List Char} (h : ¬IsGroup (Text.trimmed type)) :
    canonicalChars type = canonicalPlainChars (Text.trimmed type) := by
  rw [canonicalChars]
  split
  · next inner hinner =>
    split
    · next hclose => exact absurd ⟨inner, _, hinner, hclose⟩ h
    · rfl
  · rfl

/-- What is to be shown of a type in parentheses may be known of its members. -/
theorem canonicalChars_ind {motive : List Char → Prop}
    (group : ∀ type inner list rest, Text.trimmed type = '(' :: inner →
      Text.closeChars 0 inner = some (list, rest) →
      (∀ member ∈ Text.topLevel list, motive member) → motive type)
    (plain : ∀ type, ¬IsGroup (Text.trimmed type) → motive type) (type : List Char) :
    motive type := by
  induction type using canonicalChars.induct with
  | case1 type inner htype list rest hclose ih => exact group type inner list rest htype hclose ih
  | case2 type inner htype hopen =>
    apply plain
    rintro ⟨inner', parts, htype', hclose⟩
    obtain rfl := (List.cons.inj (htype.symm.trans htype')).2
    rw [hopen] at hclose
    cases hclose
  | case3 type hplain =>
    apply plain
    rintro ⟨inner, -, htype, -⟩
    exact hplain inner htype

/-- A parenthesis that stays open does so in the canonical form. -/
theorem not_isGroup_canonicalPlainChars {type : List Char} (htype : Text.trimmed type = type)
    (h : ¬IsGroup type) : ¬IsGroup (canonicalPlainChars type) := by
  rintro ⟨inner, parts, hinner, hclose⟩
  have hhead : type.head? = some '(' := by
    rw [← head?_canonicalPlainChars, hinner]
    · rfl
    · intro c hc
      rw [← htype] at hc
      simpa using Text.not_of_mem_head?_stripChars hc
  cases type with
  | nil => cases hhead
  | cons c rest =>
    obtain rfl := Option.some.inj hhead
    have hmarks := marks_canonicalPlainChars ('(' :: rest)
    rw [hinner, Text.marks_cons_of_isMark rfl, Text.marks_cons_of_isMark rfl] at hmarks
    cases hrest : Text.closeChars 0 rest with
    | some parts => exact h ⟨rest, parts, rfl, hrest⟩
    | none =>
      rw [Text.closeChars_eq_none_of_marks (List.cons.inj hmarks).2 hrest] at hclose
      cases hclose

/-! ### Canonical forms -/

/-- There are no spaces at the ends of a group from which those behind it have been dropped. -/
theorem trimmed_group (inner rest : List Char) :
    Text.trimmed ('(' :: (inner ++ ')' :: Text.trimmed rest)) =
      '(' :: (inner ++ ')' :: Text.trimmed rest) := by
  apply Text.stripChars_eq_self
  · simp
  · intro c hc
    rw [List.getLast?_cons, List.getLast?_append, List.getLast?_cons] at hc
    cases hlast : (Text.trimmed rest).getLast? with
    | none =>
      obtain rfl : ')' = c := by simpa [hlast] using hc
      decide
    | some d =>
      obtain rfl : d = c := by simpa [hlast] using hc
      exact Text.not_of_mem_getLast?_stripChars hlast

theorem head?_canonicalChars (type : List Char) :
    (canonicalChars type).head? = (Text.trimmed type).head? := by
  induction type using canonicalChars_ind with
  | group type inner list rest htype hclose _ =>
    rw [canonicalChars_group htype hclose, htype]
    rfl
  | plain type hplain =>
    rw [canonicalChars_of_not_isGroup hplain, head?_canonicalPlainChars]
    intro c hc
    simpa using Text.not_of_mem_head?_stripChars hc

/-- There are no spaces at the ends of a canonical form. -/
theorem trimmed_canonicalChars (type : List Char) :
    Text.trimmed (canonicalChars type) = canonicalChars type := by
  induction type using canonicalChars_ind with
  | group type inner list rest htype hclose _ =>
    rw [canonicalChars_group htype hclose]
    exact trimmed_group _ rest
  | plain type hplain =>
    rw [canonicalChars_of_not_isGroup hplain]
    exact trimmed_canonicalPlainChars (Text.trimmed_trimmed type)

theorem trimmed_canonicalChars_ne_nil {type : List Char} (h : Text.trimmed type ≠ []) :
    Text.trimmed (canonicalChars type) ≠ [] := by
  intro hnil
  have hhead := head?_canonicalChars type
  rw [← trimmed_canonicalChars, hnil] at hhead
  exact h (List.head?_eq_none_iff.1 hhead.symm)

/-- The canonical form of a member of a list is one. -/
theorem Text.IsMember.canonicalChars {type : List Char} (h : Text.IsMember type) :
    Text.IsMember (canonicalChars type) := by
  induction type using canonicalChars_ind with
  | group type inner list rest htype hclose ih =>
    have hlist := Text.balanced_of_closeChars hclose
    have htrim : Text.IsMember ('(' :: inner) := h.of_marks (htype ▸ Text.marks_trimmed type)
    have hrest := (htrim.of_closeChars hclose).of_marks (Text.marks_trimmed rest)
    rw [canonicalChars_group htype hclose]
    refine Text.IsMember.group (Text.balanced_intercalate ?_) hrest
    rw [List.forall_mem_map]
    intro member hmember
    exact (ih member hmember (Text.isMember_of_mem_topLevel hlist member hmember)).balanced
  | plain type hplain =>
    rw [canonicalChars_of_not_isGroup hplain]
    apply h.of_marks
    rw [marks_canonicalPlainChars, Text.marks_trimmed]

theorem canonicalChars_canonicalChars (type : List Char) :
    canonicalChars (canonicalChars type) = canonicalChars type := by
  induction type using canonicalChars_ind with
  | group type inner list rest htype hclose ih =>
    have hlist := Text.balanced_of_closeChars hclose
    have hmembers : ∀ member ∈ Text.topLevel list, Text.IsMember (canonicalChars member) :=
      fun member hmember => (Text.isMember_of_mem_topLevel hlist member hmember).canonicalChars
    have hbalanced : Text.Balanced
        (List.intercalate [','] ((Text.topLevel list).map canonicalChars)) := by
      apply Text.balanced_intercalate
      rw [List.forall_mem_map]
      exact fun member hmember => (hmembers member hmember).balanced
    have hsame : ((Text.topLevel list).map canonicalChars).map canonicalChars =
        (Text.topLevel list).map canonicalChars := by
      rw [List.map_map]
      exact List.map_congr_left ih
    -- the group is closed at the same place and has the members that it was given
    have hagain := canonicalChars_group (trimmed_group _ rest)
      (Text.closeChars_group hbalanced (Text.trimmed rest))
    rw [Text.topLevel_intercalate_map hmembers fun _ _ => trimmed_canonicalChars_ne_nil, hsame,
      Text.trimmed_trimmed] at hagain
    rw [canonicalChars_group htype hclose]
    exact hagain
  | plain type hplain =>
    have htrim := trimmed_canonicalPlainChars (Text.trimmed_trimmed type)
    have hplain' := not_isGroup_canonicalPlainChars (Text.trimmed_trimmed type) hplain
    rw [canonicalChars_of_not_isGroup hplain, canonicalChars_of_not_isGroup (by rwa [htrim]), htrim,
      canonicalPlainChars_canonicalPlainChars]

/-- A canonical form is its own canonical form, whatever it is the canonical form of. -/
theorem canonicalText_canonicalText (type : String) :
    canonicalText (canonicalText type) = canonicalText type := by
  rw [canonicalText, canonicalText, String.toList_ofList, canonicalChars_canonicalChars]

/-- What is no type is read by the same rules: a list with a blank member, text behind a closed
group, a group in it that stays open. -/
example : canonicalText " ((uint ,, int)  ] )  (a" = "((uint256,,int256)])(a" := by
  decide +kernel

end ContractAbi
