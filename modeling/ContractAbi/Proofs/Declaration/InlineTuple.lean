import ContractAbi.Proofs.Declaration.Heading
import ContractAbi.Proofs.Text.Parens

/-!
# Tuples in parentheses

A group of a declaration ends at its first closing parenthesis, and one that has an opening
parenthesis before that is refused. No parentheses are matched, yet a group that holds another one
is always refused, and never cut at the parenthesis that ends the inner one: up to the first closing
parenthesis only opening ones can have been passed. The one exception is a declaration that has no
heading any more once the spaces around it are gone, and is refused for that. Main statement:
`Entry.refusesTuple_iff`.
-/

namespace ContractAbi

/-! ### Groups that hold a group -/

namespace Text

theorem balanced_of_forall {cs : List Char} (h : ∀ c ∈ cs, c ≠ '(' ∧ c ≠ ')') : Balanced cs := by
  induction cs with
  | nil => exact .nil
  | cons c cs ih =>
    rw [List.forall_mem_cons] at h
    exact .char h.1.1 h.1.2 (ih h.2)

/-- Whether the group in parentheses whose opening one has been read holds another one. -/
def HoldsGroup (cs : List Char) : Prop :=
  ∃ parts ∈ closeChars 0 cs, '(' ∈ parts.1

instance (cs : List Char) : Decidable (HoldsGroup cs) :=
  inferInstanceAs (Decidable (∃ parts ∈ closeChars 0 cs, '(' ∈ parts.1))

/-- An opening parenthesis stands before the first closing one, which would match otherwise. -/
theorem HoldsGroup.exists_open {cs : List Char} (h : HoldsGroup cs) :
    ∃ list rest, cs = list ++ ')' :: rest ∧ ')' ∉ list ∧ '(' ∈ list := by
  obtain ⟨⟨group, behind⟩, hclose, hopen⟩ := h
  cases hcut : cutChars ')' cs with
  | none =>
    rw [append_of_closeChars hclose] at hcut
    exact absurd (cutChars_eq_none_iff.1 hcut) (by simp)
  | some parts =>
    obtain ⟨list, rest⟩ := parts
    obtain ⟨rfl, hlist⟩ := cutChars_eq_some_iff.1 hcut
    refine ⟨list, rest, rfl, hlist, ?_⟩
    by_contra hnone
    have hbalanced : Balanced list := balanced_of_forall (by grind)
    obtain ⟨rfl, -⟩ :=
      Prod.mk.inj (Option.some.inj ((closeChars_group hbalanced rest).symm.trans hclose))
    exact hnone hopen

end Text

theorem splitGroup_of_open {declaration inner : String} {list rest : List Char}
    (h : inner.toList = list ++ ')' :: rest) (hclose : ')' ∉ list) (hopen : '(' ∈ list) :
    splitGroup declaration inner = .error (.inlineTupleUnsupported (String.ofList list)) := by
  have hcut : Text.cut ')' inner = some (String.ofList list, String.ofList rest) :=
    Text.cut_eq_some_iff.2 (by simpa using ⟨h, hclose⟩)
  rw [splitGroup, hcut]
  simp only [Text.has, String.toList_ofList, List.contains_iff_mem, hopen, if_pos]
  rfl

theorem outputsOfClause_of_open {declaration clause : String} {before list rest : List Char}
    (h : clause.toList = before ++ '(' :: (list ++ ')' :: rest)) (hbefore : '(' ∉ before)
    (hclose : ')' ∉ list) (hopen : '(' ∈ list) :
    outputsOfClause declaration clause =
      .error (.inlineTupleUnsupported (String.ofList list)) := by
  have hcut : Text.cut '(' clause =
      some (String.ofList before, String.ofList (list ++ ')' :: rest)) :=
    Text.cut_eq_some_iff.2 (by simpa using ⟨h, hbefore⟩)
  rw [outputsOfClause, hcut]
  simp only [splitGroup_of_open (String.toList_ofList) hclose hopen, Except.error_bind]

namespace Entry

/-- Whether a declaration is refused for a tuple in parentheses. -/
def RefusesTuple (mode : Mode) (declaration : String) : Prop :=
  ∃ text, ofDeclaration mode declaration = .error (.inlineTupleUnsupported text)

variable {mode : Mode} {declaration name inner : String} {kind : EntryKind} {text : List Char}
  {n : Nat}

/-- Nothing is asked of a declaration before its inputs but that it has a heading. -/
theorem refusesTuple_of_inputs
    (hheading : Heading.ofDeclaration (Text.trim declaration) = .ok ⟨kind, name, inner⟩)
    (htext : text = inner.toList ++ Text.spaces n) (h : Text.HoldsGroup text) :
    RefusesTuple mode declaration := by
  obtain ⟨list, rest, hlist, hclose, hopen⟩ := h.exists_open
  obtain ⟨rest', hinner, -⟩ := Text.exists_of_append_spaces (by decide) (htext.symm.trans hlist)
  refine ⟨String.ofList list, ?_⟩
  simp only [ofDeclaration, hheading, Except.ok_bind, splitGroup_of_open hinner hclose hopen,
    Except.error_bind]

/-- The outputs of a function are read as soon as its inputs are. -/
theorem refusesTuple_of_outputs {list clause group : String} {before : List Char}
    {inputs : List Parameter}
    (hheading : Heading.ofDeclaration (Text.trim declaration) = .ok ⟨.function, name, inner⟩)
    (htext : text = inner.toList ++ Text.spaces n)
    (hlist : text = list.toList ++ ')' :: clause.toList)
    (hparens : ∀ c ∈ list.toList, c ≠ '(' ∧ c ≠ ')')
    (hinputs : Parameter.listOfText list = .ok inputs)
    (hclause : clause.toList = before ++ '(' :: group.toList) (hbefore : '(' ∉ before)
    (h : Text.HoldsGroup group.toList) : RefusesTuple mode declaration := by
  obtain ⟨outputs, rest, hgroup, hclose, hopen⟩ := h.exists_open
  -- the spaces at the end of the declaration are dropped from each of its parts in turn
  obtain ⟨clause', hinner, hbehind⟩ :=
    Text.exists_of_append_spaces (by decide) (htext.symm.trans hlist)
  obtain ⟨group', hclause', hbehind'⟩ :=
    Text.exists_of_append_spaces (by decide) (hbehind.symm.trans hclause)
  obtain ⟨rest', hgroup', -⟩ :=
    Text.exists_of_append_spaces (by decide) (hbehind'.symm.trans hgroup)
  have hsplit : splitGroup (Text.trim declaration) inner = .ok (list, String.ofList clause') :=
    splitGroup_eq_ok_iff.2 ⟨by rw [hinner, String.toList_ofList], hparens⟩
  have houtputs : outputsOfClause (Text.trim declaration) (String.ofList clause') =
      .error (.inlineTupleUnsupported (String.ofList outputs)) :=
    outputsOfClause_of_open (by rw [String.toList_ofList, hclause', hgroup']) hbefore hclose hopen
  refine ⟨String.ofList outputs, ?_⟩
  simp only [ofDeclaration, hheading, Except.ok_bind, hsplit, hinputs, ofParts, houtputs,
    Except.error_bind]

/-- A declaration that begins with the word `function` between spaces is one of a function without
a name, and refused as such. -/
theorem ofDeclaration_of_isSpacedKeyword (h : Heading.IsSpacedKeyword declaration) :
    ofDeclaration mode declaration =
      .error (.unrecognizedDeclaration (Text.trim declaration)) := by
  simp only [ofDeclaration, Heading.ofDeclaration_trim_of_isSpacedKeyword h, Except.error_bind]

theorem not_refusesTuple_of_unrecognized {e : String}
    (h : ofDeclaration mode declaration = .error (.unrecognizedDeclaration e)) :
    ¬RefusesTuple mode declaration := by
  rintro ⟨text, htext⟩
  cases h.symm.trans htext

/-! ### Main statement -/

/-- A tuple in parentheses is refused as such, among inputs and among outputs, unless the
declaration begins with the word `function` between spaces. Then it is refused for having no
name. -/
theorem refusesTuple_iff {heading : Heading} (mode : Mode)
    (h : Heading.ofDeclaration declaration = .ok heading ∨
      Heading.ofDeclaration (Text.trim declaration) = .ok heading) :
    (Text.HoldsGroup heading.inner.toList →
      (RefusesTuple mode declaration ↔ ¬Heading.IsSpacedKeyword declaration)) ∧
    (∀ list clause before group inputs, heading.kind = .function →
      splitGroup declaration heading.inner = .ok (list, clause) →
      Parameter.listOfText list = .ok inputs → Text.cut '(' clause = some (before, group) →
      Text.HoldsGroup group.toList →
      (RefusesTuple mode declaration ↔ ¬Heading.IsSpacedKeyword declaration)) ∧
    (Heading.IsSpacedKeyword declaration →
      ofDeclaration mode declaration =
        .error (.unrecognizedDeclaration (Text.trim declaration))) := by
  have hread : ¬Heading.IsSpacedKeyword declaration → ∃ inner n,
      heading.inner.toList = inner.toList ++ Text.spaces n ∧
      Heading.ofDeclaration (Text.trim declaration) = .ok ⟨heading.kind, heading.name, inner⟩ := by
    intro hkeyword
    rcases h with h | h
    · exact Heading.ofDeclaration_trim h hkeyword
    · exact ⟨heading.inner, 0, by simp [Text.spaces], h⟩
  have hunnamed : RefusesTuple mode declaration → ¬Heading.IsSpacedKeyword declaration := by
    intro hrefused hkeyword
    exact not_refusesTuple_of_unrecognized (ofDeclaration_of_isSpacedKeyword hkeyword) hrefused
  refine ⟨?inputs, ?outputs, ofDeclaration_of_isSpacedKeyword⟩
  case inputs =>
    intro hgroup
    refine ⟨hunnamed, fun hkeyword => ?_⟩
    obtain ⟨inner, n, hinner, htrim⟩ := hread hkeyword
    exact refusesTuple_of_inputs htrim hinner hgroup
  case outputs =>
    intro list clause before group inputs hkind hsplit hinputs hcut hgroup
    refine ⟨hunnamed, fun hkeyword => ?_⟩
    obtain ⟨inner, n, hinner, htrim⟩ := hread hkeyword
    obtain ⟨hlist, hparens⟩ := splitGroup_eq_ok_iff.1 hsplit
    obtain ⟨hclause, hbefore⟩ := Text.cut_eq_some_iff.1 hcut
    exact refusesTuple_of_outputs (hkind ▸ htrim) hinner hlist hparens hinputs hclause hbefore
      hgroup

/-- An array of tuples among inputs, with spaces around the declaration, a tuple in a tuple among
outputs, and a tuple behind the word `function` between spaces. -/
theorem refusesTuple_iff_of_array :
    (Heading.ofDeclaration "  f (uint a, (bool b, uint c)[] d) view " =
        .ok ⟨.function, "f", "uint a, (bool b, uint c)[] d) view "⟩ ∧
      Text.HoldsGroup "uint a, (bool b, uint c)[] d) view ".toList ∧
      (RefusesTuple .relaxed "  f (uint a, (bool b, uint c)[] d) view " ↔
        ¬Heading.IsSpacedKeyword "  f (uint a, (bool b, uint c)[] d) view ") ∧
      ¬Heading.IsSpacedKeyword "  f (uint a, (bool b, uint c)[] d) view ") ∧
    (Heading.ofDeclaration "function g() returns (((bool b) c) d)" =
        .ok ⟨.function, "g", ") returns (((bool b) c) d)"⟩ ∧
      splitGroup "function g() returns (((bool b) c) d)" ") returns (((bool b) c) d)" =
        .ok ("", " returns (((bool b) c) d)") ∧
      Parameter.listOfText "" = .ok [] ∧
      Text.cut '(' " returns (((bool b) c) d)" = some (" returns ", "((bool b) c) d)") ∧
      Text.HoldsGroup "((bool b) c) d)".toList ∧
      (RefusesTuple .strict "function g() returns (((bool b) c) d)" ↔
        ¬Heading.IsSpacedKeyword "function g() returns (((bool b) c) d)")) ∧
    Heading.ofDeclaration "  function (uint a, (bool b)[] c) " =
        .ok ⟨.function, "function", "uint a, (bool b)[] c) "⟩ ∧
      Heading.IsSpacedKeyword "  function (uint a, (bool b)[] c) " ∧
      ofDeclaration .relaxed "  function (uint a, (bool b)[] c) " =
        .error (.unrecognizedDeclaration (Text.trim "  function (uint a, (bool b)[] c) ")) := by
  have hf : Heading.ofDeclaration "  f (uint a, (bool b, uint c)[] d) view " =
      .ok ⟨.function, "f", "uint a, (bool b, uint c)[] d) view "⟩ := rfl
  have hg : Heading.ofDeclaration "function g() returns (((bool b) c) d)" =
      .ok ⟨.function, "g", ") returns (((bool b) c) d)"⟩ := rfl
  have hgroup : splitGroup "function g() returns (((bool b) c) d)" ") returns (((bool b) c) d)" =
      .ok ("", " returns (((bool b) c) d)") := rfl
  have hlist : Parameter.listOfText "" = .ok [] := rfl
  have hcut : Text.cut '(' " returns (((bool b) c) d)" = some (" returns ", "((bool b) c) d)") :=
    rfl
  have hinputs : Text.HoldsGroup "uint a, (bool b, uint c)[] d) view ".toList := by decide
  have houtputs : Text.HoldsGroup "((bool b) c) d)".toList := by decide
  have hname : ¬Heading.IsSpacedKeyword "  f (uint a, (bool b, uint c)[] d) view " := by
    intro h
    have htrim : Heading.ofDeclaration (Text.trim "  f (uint a, (bool b, uint c)[] d) view ") =
        .ok ⟨.function, "f", "uint a, (bool b, uint c)[] d) view"⟩ := rfl
    cases htrim.symm.trans (Heading.ofDeclaration_trim_of_isSpacedKeyword h)
  have hread : Heading.ofDeclaration "  function (uint a, (bool b)[] c) " =
      .ok ⟨.function, "function", "uint a, (bool b)[] c) "⟩ :=
    Heading.ofDeclaration_eq_ok_iff.2 ⟨"  function ", by decide, by decide, by decide, by decide⟩
  have hkeyword : Heading.IsSpacedKeyword "  function (uint a, (bool b)[] c) " :=
    ⟨2, 1, "uint a, (bool b)[] c) ".toList, by decide, by decide, by simp [Text.spaces]⟩
  refine ⟨⟨hf, hinputs, (refusesTuple_iff .relaxed (.inl hf)).1 hinputs, hname⟩, ?_, hread,
    hkeyword, (refusesTuple_iff .relaxed (.inl hread)).2.2 hkeyword⟩
  exact ⟨hg, hgroup, hlist, hcut, houtputs,
    (refusesTuple_iff .strict (.inl hg)).2.1 _ _ _ _ _ rfl hgroup hlist hcut houtputs⟩

/-- Behind a space `function` is the name of a function, which takes a tuple; the declaration as it
is read, without the space, has no name. -/
theorem not_refusesTuple_function :
    (Heading.ofDeclaration " function ((uint a))" = .ok ⟨.function, "function", "(uint a))"⟩ ∧
      Text.HoldsGroup "(uint a))".toList) ∧
    (ofDeclaration .strict " function ((uint a))" =
        .error (.unrecognizedDeclaration "function ((uint a))") ∧
      ¬RefusesTuple .strict " function ((uint a))") ∧
    ofDeclaration .relaxed " function ((uint a))" =
        .error (.unrecognizedDeclaration "function ((uint a))") ∧
      ¬RefusesTuple .relaxed " function ((uint a))" := by
  have hread : Heading.ofDeclaration " function ((uint a))" =
      .ok ⟨.function, "function", "(uint a))"⟩ :=
    Heading.ofDeclaration_eq_ok_iff.2 ⟨" function ", by decide, by decide, by decide, by decide⟩
  have hstrict : ofDeclaration .strict " function ((uint a))" =
      .error (.unrecognizedDeclaration "function ((uint a))") := rfl
  have hrelaxed : ofDeclaration .relaxed " function ((uint a))" =
      .error (.unrecognizedDeclaration "function ((uint a))") := rfl
  exact ⟨⟨hread, by decide⟩, ⟨hstrict, not_refusesTuple_of_unrecognized hstrict⟩, hrelaxed,
    not_refusesTuple_of_unrecognized hrelaxed⟩

end Entry

end ContractAbi
