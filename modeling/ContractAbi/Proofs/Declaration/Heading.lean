import ContractAbi.Proofs.Declaration.Parts
import ContractAbi.Proofs.Text.Spacing

/-!
# Headings and the spaces around them

Before its first parenthesis a declaration has a keyword, a name and spaces, which is the relation
`Heading.Spelled`. The heading is read of the declaration without the spaces around it. Reading it
with these spaces makes no difference but in one case: behind a space the word `function` is no
keyword but the name of a function. Main statement: `Heading.ofDeclaration_trim`.
-/

namespace ContractAbi

/-! ### Spaces around a text -/

namespace Text

theorem eq_spaces {cs : List Char} (h : ∀ c ∈ cs, c = ' ') : ∃ n, cs = spaces n :=
  ⟨cs.length, List.eq_replicate_of_mem h⟩

theorem exists_spaces_trim (s : String) :
    ∃ m n, s.toList = spaces m ++ (trim s).toList ++ spaces n := by
  obtain ⟨l, r, htext, hl, hr⟩ := exists_append_stripChars (· = ' ') s.toList
  obtain ⟨m, rfl⟩ := eq_spaces (by simpa using hl)
  obtain ⟨n, rfl⟩ := eq_spaces (by simpa using hr)
  exact ⟨m, n, by rwa [trim, String.toList_ofList]⟩

/-- A character that stays keeps what is dropped before it apart from what stands behind it. -/
theorem dropWhile_append_cons {p : Char → Bool} {c : Char} (hc : ¬p c) (l r : List Char) :
    (l ++ c :: r).dropWhile p = l.dropWhile p ++ c :: r := by
  rw [List.dropWhile_append]
  split
  · next hnil => rw [List.isEmpty_iff.1 hnil, List.dropWhile_cons_of_neg hc, List.nil_append]
  · rfl

/-- Of a text with a character that is no space, the spaces are dropped before and behind it. -/
theorem exists_toList_trim {s : String} {l r : List Char} {c : Char}
    (h : s.toList = l ++ c :: r) (hc : c ≠ ' ') :
    ∃ m n l' r', l = spaces m ++ l' ∧ (∀ d ∈ l'.head?, d ≠ ' ') ∧ r = r' ++ spaces n ∧
      (trim s).toList = l' ++ c :: r' := by
  let p : Char → Bool := (· = ' ')
  have hp : ¬p c := by simpa [p] using hc
  have hall : ∀ cs : List Char, ∀ d ∈ cs.takeWhile p, d = ' ' := by
    intro cs d hd
    have hspace : p d = true := List.mem_takeWhile_imp hd
    exact of_decide_eq_true hspace
  obtain ⟨m, hm⟩ := eq_spaces (hall l)
  have hbehind : ∀ d ∈ (r.reverse.takeWhile p).reverse, d = ' ' := by
    simpa using hall r.reverse
  obtain ⟨n, hn⟩ := eq_spaces hbehind
  refine ⟨m, n, l.dropWhile p, (r.reverse.dropWhile p).reverse, ?_, ?_, ?_, ?_⟩
  · rw [← hm, List.takeWhile_append_dropWhile]
  · intro d hd
    have hnot := List.head?_dropWhile_not p l
    rw [hd] at hnot
    simpa [p] using hnot
  · rw [← hn, ← List.reverse_append, List.takeWhile_append_dropWhile, List.reverse_reverse]
  · rw [trim, String.toList_ofList, trimmed, stripChars, h, dropWhile_append_cons hp,
      List.reverse_append, List.reverse_cons, List.append_assoc, List.singleton_append,
      dropWhile_append_cons hp]
    simp

theorem dropWhile_spaces_append {n : Nat} {cs : List Char} (h : ∀ c ∈ cs.head?, c ≠ ' ') :
    (spaces n ++ cs).dropWhile (· = ' ') = cs := by
  rw [List.dropWhile_append_of_pos fun c hc => decide_eq_true (eq_space_of_mem_spaces hc)]
  cases cs with
  | nil => rfl
  | cons c cs => exact List.dropWhile_cons_of_neg (by simpa using h c rfl)

/-- What stands behind the spaces at the front of a text is determined by the text. -/
theorem eq_of_spaces_append {m n : Nat} {cs ds : List Char} (h : spaces m ++ cs = spaces n ++ ds)
    (hcs : ∀ c ∈ cs.head?, c ≠ ' ') (hds : ∀ d ∈ ds.head?, d ≠ ' ') : cs = ds := by
  rw [← dropWhile_spaces_append hcs, h, dropWhile_spaces_append hds]

/-- A mark before which a text is cut stands before the spaces that are put behind the text. -/
theorem exists_of_append_spaces {mark : Char} (hmark : mark ≠ ' ') {cs l r : List Char} {n : Nat}
    (h : cs ++ spaces n = l ++ mark :: r) : ∃ r', cs = l ++ mark :: r' ∧ r = r' ++ spaces n := by
  have hgap : mark ∉ spaces n := not_mem_spaces hmark
  rcases List.append_eq_append_iff.1 h with ⟨gap, -, hspaces⟩ | ⟨rest, hcs, hrest⟩
  · simp [hspaces] at hgap
  · cases rest with
    | nil =>
      rw [List.nil_append] at hrest
      simp [← hrest] at hgap
    | cons d rest =>
      obtain ⟨rfl, rfl⟩ := List.cons.inj hrest
      exact ⟨rest, hcs, rfl⟩

end Text

namespace Heading

/-! ### How a heading is spelled -/

/-- The kind and the name that a text before the first parenthesis spells. -/
inductive Spelled : String → EntryKind → String → Prop
  | function {rest} : Spelled ("function " ++ rest) .function (Text.trim rest)
  | constructor : Spelled "constructor" .constructor ""
  | error {rest} : Spelled ("error " ++ rest) .error (Text.trim rest)
  | event {rest} : Spelled ("event " ++ rest) .event (Text.trim rest)
  | bare {head} : Text.trim head ∉ reservedNames → Spelled head .function (Text.trim head)

theorem spelled_of_kindAndName? {head name : String} {kind : EntryKind}
    (h : kindAndName? head = some (kind, name)) : Spelled head kind name := by
  rw [kindAndName?] at h
  split at h
  · next hrest =>
    obtain ⟨rfl, rfl⟩ := Prod.mk.inj (Option.some.inj h)
    exact Text.after?_eq_some_iff.1 hrest ▸ .function
  · split at h
    · next hhead =>
      obtain ⟨rfl, rfl⟩ := Prod.mk.inj (Option.some.inj h)
      exact hhead ▸ .constructor
    · split at h
      · next hrest =>
        obtain ⟨rfl, rfl⟩ := Prod.mk.inj (Option.some.inj h)
        exact Text.after?_eq_some_iff.1 hrest ▸ .error
      · split at h
        · next hrest =>
          obtain ⟨rfl, rfl⟩ := Prod.mk.inj (Option.some.inj h)
          exact Text.after?_eq_some_iff.1 hrest ▸ .event
        · dsimp only at h
          split at h
          · cases h
          · next hname =>
            obtain ⟨rfl, rfl⟩ := Prod.mk.inj (Option.some.inj h)
            exact .bare hname

/-- Before the parenthesis there are only spaces, the letters of a keyword and the name. -/
theorem Spelled.not_mem {head name : String} {kind : EntryKind} (h : Spelled head kind name)
    {c : Char} (hc : c.isAlpha = false) (hspace : c ≠ ' ') (hname : c ∉ name.toList) :
    c ∉ head.toList := by
  have htrim : ∀ {s : String}, c ∉ (Text.trim s).toList → c ∉ s.toList := by
    intro s hs hmem
    rw [Text.trim, String.toList_ofList] at hs
    exact hs ((Text.mem_stripChars_iff (by simpa using hspace)).2 hmem)
  have hkeyword : ∀ keyword ∈ ["function ", "constructor", "error ", "event "],
      c ∉ keyword.toList := by
    intro keyword hkeyword hmem
    have hletters : ∀ keyword ∈ ["function ", "constructor", "error ", "event "],
        keyword.toList.all (fun d => d.isAlpha || d == ' ') = true := by decide
    have hletter := List.all_eq_true.1 (hletters keyword hkeyword) c hmem
    rw [hc, Bool.false_or, beq_iff_eq] at hletter
    exact hspace hletter
  have hnamed : ∀ keyword ∈ ["function ", "constructor", "error ", "event "],
      ∀ rest, c ∉ (Text.trim rest).toList → c ∉ (keyword ++ rest).toList := by
    intro keyword hmem rest hrest
    rw [String.toList_append, List.mem_append, not_or]
    exact ⟨hkeyword keyword hmem, htrim hrest⟩
  cases h with
  | function => exact hnamed "function " (by simp) _ hname
  | constructor => exact hkeyword "constructor" (by simp)
  | error => exact hnamed "error " (by simp) _ hname
  | event => exact hnamed "event " (by simp) _ hname
  | bare => exact htrim hname

/-- A keyword is none behind a space. -/
theorem Spelled.bare_of_space {head name : String} {kind : EntryKind} (h : Spelled head kind name)
    (hspace : ' ' ∈ head.toList.head?) :
    kind = .function ∧ name = Text.trim head ∧ name ∉ reservedNames := by
  cases h with
  | bare hname => exact ⟨rfl, rfl, hname⟩
  | _ => simp at hspace

/-! ### Spaces behind a name -/

theorem eq_of_append_spaces {keyword name : String} {rest : List Char} {n : Nat}
    (hkeyword : ' ' ∉ keyword.toList) (hname : ' ' ∉ name.toList)
    (h : name.toList ++ Text.spaces n = keyword.toList ++ ' ' :: rest) :
    name = keyword ∧ n ≠ 0 := by
  cases n with
  | zero =>
    -- there is no space on the left
    rw [Text.spaces, List.replicate_zero, List.append_nil] at h
    simp [h] at hname
  | succ n =>
    rw [Text.spaces, List.replicate_succ] at h
    have hleft : Text.cutChars ' ' (name.toList ++ ' ' :: List.replicate n ' ') =
        some (name.toList, List.replicate n ' ') := Text.cutChars_eq_some_iff.2 ⟨rfl, hname⟩
    have hright : Text.cutChars ' ' (keyword.toList ++ ' ' :: rest) =
        some (keyword.toList, rest) := Text.cutChars_eq_some_iff.2 ⟨rfl, hkeyword⟩
    rw [h, hright] at hleft
    obtain ⟨hname, -⟩ := Prod.mk.inj (Option.some.inj hleft)
    exact ⟨(String.toList_inj.1 hname).symm, Nat.succ_ne_zero n⟩

theorem after?_eq_none {head name keyword start : String} {n : Nat}
    (hhead : head.toList = name.toList ++ Text.spaces n) (hname : ' ' ∉ name.toList)
    (hkeyword : ' ' ∉ keyword.toList) (hstart : start.toList = keyword.toList ++ [' '])
    (hne : name = keyword → n = 0) : Text.after? start head = none := by
  rw [Option.eq_none_iff_forall_ne_some]
  intro rest hrest
  have hsplit : name.toList ++ Text.spaces n = keyword.toList ++ ' ' :: rest.toList := by
    rw [← hhead, Text.after?_eq_some_iff.1 hrest, String.toList_append, hstart,
      List.append_assoc, List.singleton_append]
  obtain ⟨heq, hn⟩ := eq_of_append_spaces hkeyword hname hsplit
  exact hn (hne heq)

theorem trim_of_toList {head name : String} {n : Nat} (hname : ' ' ∉ name.toList)
    (hhead : head.toList = name.toList ++ Text.spaces n) : Text.trim head = name := by
  have hne : ∀ c ∈ name.toList, c ≠ ' ' := by
    rintro c hc rfl
    exact hname hc
  have hgaps := @Text.trimmed_spaces_append name.toList 0 n
    (fun c hc => hne c (List.mem_of_mem_head? hc)) (fun c hc => hne c (List.mem_of_getLast? hc))
  rw [Text.spaces, List.replicate_zero, List.nil_append] at hgaps
  rw [Text.trim, hhead, hgaps, String.ofList_toList]

/-- A name with spaces behind it is that of a function, unless it is a keyword. -/
theorem kindAndName?_bare {head name : String} {n : Nat} (hname : isIdentifier name)
    (hreserved : name ∉ reservedNames) (hhead : head.toList = name.toList ++ Text.spaces n)
    (hkeyword : name = "function" → n = 0) : kindAndName? head = some (.function, name) := by
  have hspace : ' ' ∉ name.toList := (isWord_of_isIdentifier hname).space_not_mem
  have hne : ∀ reserved ∈ reservedNames, name = reserved → n = 0 := by
    rintro _ hmem rfl
    exact absurd hmem hreserved
  have hfunction : Text.after? "function " head = none :=
    after?_eq_none hhead hspace (by decide) rfl hkeyword
  have herror : Text.after? "error " head = none :=
    after?_eq_none hhead hspace (by decide) rfl (hne "error" (by decide))
  have hevent : Text.after? "event " head = none :=
    after?_eq_none hhead hspace (by decide) rfl (hne "event" (by decide))
  have hconstructor : head ≠ "constructor" := by
    rintro rfl
    have htrim : Text.trim "constructor" = "constructor" := Text.trim_of_not_mem (by decide)
    exact hreserved ((trim_of_toList hspace hhead).symm.trans htrim ▸ by decide)
  rw [kindAndName?]
  simp only [hfunction, if_neg hconstructor, herror, hevent, trim_of_toList hspace hhead,
    if_neg hreserved]

/-- Behind the keyword of a function there has to be a name. -/
theorem kindAndName?_keyword {head : String} {n : Nat} (hn : n ≠ 0)
    (hhead : head.toList = "function".toList ++ Text.spaces n) :
    kindAndName? head = some (.function, "") := by
  obtain ⟨n, rfl⟩ := Nat.exists_eq_succ_of_ne_zero hn
  have hrest : head = "function " ++ String.ofList (Text.spaces n) := by
    rw [← String.toList_inj, hhead, String.toList_append, String.toList_ofList, Text.spaces,
      Text.spaces, List.replicate_succ]
    simp
  rw [kindAndName?, Text.after?_eq_some_iff.2 hrest]
  simp only [Text.trim, String.toList_ofList, Text.trimmed_spaces, String.ofList_nil]

/-! ### The heading of a declaration with spaces around it -/

/-- Whether a declaration begins with the word `function` between spaces. -/
def IsSpacedKeyword (declaration : String) : Prop :=
  ∃ m n inner, m ≠ 0 ∧ n ≠ 0 ∧
    declaration.toList = Text.spaces m ++ "function".toList ++ Text.spaces n ++ '(' :: inner

/-- Without the spaces around it, such a declaration is one of a function without a name. -/
theorem ofDeclaration_trim_of_isSpacedKeyword {declaration : String}
    (h : IsSpacedKeyword declaration) :
    Heading.ofDeclaration (Text.trim declaration) =
      .error (.unrecognizedDeclaration (Text.trim declaration)) := by
  obtain ⟨m, n, inner, -, hn, htext⟩ := h
  obtain ⟨k, -, head, rest, hleft, hfirst, -, htrim⟩ := Text.exists_toList_trim htext (by decide)
  rw [List.append_assoc] at hleft
  obtain rfl := Text.eq_of_spaces_append hleft (by simp) hfirst
  have hopen : '(' ∉ "function".toList ++ Text.spaces n := by
    rw [List.mem_append, not_or]
    exact ⟨by decide, Text.not_mem_spaces (by decide)⟩
  have hcut : Text.cut '(' (Text.trim declaration) =
      some (String.ofList ("function".toList ++ Text.spaces n), String.ofList rest) :=
    Text.cut_eq_some_iff.2 (by simpa only [String.toList_ofList] using ⟨htrim, hopen⟩)
  rw [Heading.ofDeclaration, hcut]
  simp only [kindAndName?_keyword hn String.toList_ofList]
  rfl

/-- The spaces in front of a heading make no difference, unless they keep a keyword from being
one. -/
theorem kindAndName?_of_spaces {head name : String} {kind : EntryKind} {m : Nat} {rest : List Char}
    (h : kindAndName? head = some (kind, name)) (hname : kind = .constructor ∨ isIdentifier name)
    (hhead : head.toList = Text.spaces m ++ rest) (hfirst : ∀ c ∈ rest.head?, c ≠ ' ')
    (hkeyword : ∀ n, m ≠ 0 → n ≠ 0 → rest ≠ "function".toList ++ Text.spaces n) :
    kindAndName? (String.ofList rest) = some (kind, name) := by
  rcases Nat.eq_zero_or_pos m with rfl | hm
  · rw [Text.spaces, List.replicate_zero, List.nil_append] at hhead
    rw [← hhead, String.ofList_toList, h]
  · have hspace : ' ' ∈ head.toList.head? := by
      rw [hhead, Text.spaces, List.head?_append, List.head?_replicate, if_neg (by omega)]
      rfl
    obtain ⟨rfl, htrim, hreserved⟩ := (spelled_of_kindAndName? h).bare_of_space hspace
    have hidentifier : isIdentifier name := hname.resolve_left nofun
    have hword := isWord_of_isIdentifier hidentifier
    -- between the spaces at its ends the heading is the name alone
    obtain ⟨k, n, hgaps⟩ := Text.exists_spaces_trim head
    have hrest : rest = name.toList ++ Text.spaces n := by
      rw [List.append_assoc, hhead, ← htrim] at hgaps
      refine Text.eq_of_spaces_append hgaps hfirst ?_
      rw [List.head?_append_of_ne_nil _ (by simpa using hword.1)]
      rintro c hc rfl
      exact hword.space_not_mem (List.mem_of_mem_head? hc)
    refine kindAndName?_bare hidentifier hreserved (by rw [String.toList_ofList, hrest]) ?_
    intro hfunction
    by_contra hn
    exact hkeyword n (by omega) hn (hfunction ▸ hrest)

/-- The spaces around a declaration do not change its heading, unless it begins with the word
`function` between spaces. -/
theorem ofDeclaration_trim {declaration : String} {heading : Heading}
    (h : Heading.ofDeclaration declaration = .ok heading)
    (hkeyword : ¬IsSpacedKeyword declaration) :
    ∃ inner n, heading.inner.toList = inner.toList ++ Text.spaces n ∧
      Heading.ofDeclaration (Text.trim declaration) = .ok ⟨heading.kind, heading.name, inner⟩ := by
  obtain ⟨kind, name, inner⟩ := heading
  obtain ⟨head, htext, hopen, hhead, hname⟩ := ofDeclaration_eq_ok_iff.1 h
  obtain ⟨m, n, rest, inner', hleft, hfirst, hinner, htrim⟩ :=
    Text.exists_toList_trim htext (by decide)
  refine ⟨String.ofList inner', n, by simpa using hinner, ?_⟩
  refine ofDeclaration_eq_ok_iff.2 ⟨String.ofList rest, by simpa using htrim, ?_, ?_, hname⟩
  · rw [hleft, List.mem_append, not_or] at hopen
    simpa using hopen.2
  · refine kindAndName?_of_spaces hhead hname hleft hfirst ?_
    rintro k hm hk rfl
    refine hkeyword ⟨m, k, inner.toList, hm, hk, ?_⟩
    rw [htext, hleft, ← List.append_assoc (Text.spaces m)]

end Heading

end ContractAbi
