import ContractAbi.Proofs.Declaration.Clause

/-!
# The parts of a declaration

A declaration falls into a heading, a group of inputs and a clause, and `Entry.MadeOf` tells what
entry these make. What is read satisfies `Entry.Declarable`: names are identifiers, parameters are
made of words, only events have indexed ones, and a constructor does not promise to keep the state.
-/

namespace ContractAbi

open Mutability (keywords Told)

/-! ### The heading -/

theorem isWord_of_isIdentifier {name : String} (h : isIdentifier name) : Text.IsWord name := by
  -- the characters that end a word are neither letters nor digits nor `_` nor `$`
  have hplain : ∀ c : Char, (c.isAlphanum || c = '_' || c = '$') = true →
      c ≠ ' ' ∧ c ≠ ',' ∧ c ≠ '(' ∧ c ≠ ')' := by
    intro c hc
    refine ⟨?_, ?_, ?_, ?_⟩ <;> rintro rfl <;> revert hc <;> decide
  rw [isIdentifier] at h
  split at h
  · cases h
  · next c cs hname =>
    simp only [Bool.and_eq_true, List.all_eq_true] at h
    have hne : name ≠ "" := by
      rintro rfl
      cases hname
    refine ⟨hne, ?_⟩
    rw [hname]
    intro d hd
    rcases List.mem_cons.1 hd with rfl | hd
    · refine hplain d ?_
      have hfirst := h.1
      simp only [Char.isAlphanum, Bool.or_eq_true] at hfirst ⊢
      exact hfirst.imp_left fun hd => hd.imp_left .inl
    · exact hplain d (h.2 d hd)

theorem trim_of_isIdentifier {name : String} (h : isIdentifier name) : Text.trim name = name :=
  Text.trim_of_not_mem (isWord_of_isIdentifier h).space_not_mem

namespace Heading

theorem kindAndName?_function {name : String} (h : isIdentifier name) :
    kindAndName? ("function " ++ name) = some (.function, name) := by
  rw [kindAndName?, Text.after?_eq_some_iff.2 rfl]
  simp only [trim_of_isIdentifier h]

theorem kindAndName?_event {name : String} (h : isIdentifier name) :
    kindAndName? ("event " ++ name) = some (.event, name) := by
  have hfunction : Text.after? "function " ("event " ++ name) = none := by
    simp [Text.after?, Text.afterChars?]
  have herror : Text.after? "error " ("event " ++ name) = none := by
    simp [Text.after?, Text.afterChars?]
  have hne : "event " ++ name ≠ "constructor" := by
    simp [← String.toList_inj]
  rw [kindAndName?, hfunction]
  simp only [if_neg hne, herror, Text.after?_eq_some_iff.2 rfl, trim_of_isIdentifier h]

theorem kindAndName?_error {name : String} (h : isIdentifier name) :
    kindAndName? ("error " ++ name) = some (.error, name) := by
  have hfunction : Text.after? "function " ("error " ++ name) = none := by
    simp [Text.after?, Text.afterChars?]
  have hne : "error " ++ name ≠ "constructor" := by
    simp [← String.toList_inj]
  rw [kindAndName?, hfunction]
  simp only [if_neg hne, Text.after?_eq_some_iff.2 rfl, trim_of_isIdentifier h]

theorem kindAndName?_constructor : kindAndName? "constructor" = some (.constructor, "") :=
  rfl

end Heading

theorem Heading.ofDeclaration_eq_ok_iff {declaration : String} {kind : EntryKind}
    {name inner : String} :
    Heading.ofDeclaration declaration = .ok ⟨kind, name, inner⟩ ↔
      ∃ head : String, declaration.toList = head.toList ++ '(' :: inner.toList ∧
        '(' ∉ head.toList ∧ kindAndName? head = some (kind, name) ∧
        (kind = .constructor ∨ isIdentifier name) := by
  rw [Heading.ofDeclaration]
  constructor
  · intro h
    split at h
    · exact absurd h Except.throw_ne_ok
    · next head _ hcut =>
      split at h
      · exact absurd h Except.throw_ne_ok
      · next htold =>
        split at h
        · next hname =>
          obtain ⟨rfl, rfl, rfl⟩ := Heading.mk.inj (Except.pure_eq_ok_iff.1 h)
          obtain ⟨htext, hopen⟩ := Text.cut_eq_some_iff.1 hcut
          exact ⟨head, htext, hopen, htold, hname⟩
        · exact absurd h Except.throw_ne_ok
  · rintro ⟨head, htext, hopen, htold, hname⟩
    rw [Text.cut_eq_some_iff.2 ⟨htext, hopen⟩]
    simp only [htold, if_pos hname]
    rfl

namespace Entry

theorem not_mem_keyword_append {keyword name : String} (hkeyword : '(' ∉ keyword.toList)
    (hname : isIdentifier name) : '(' ∉ (keyword ++ name).toList := by
  rw [String.toList_append, List.mem_append, not_or]
  exact ⟨hkeyword, (isWord_of_isIdentifier hname).open_not_mem⟩

/-! ### The parts of a declaration -/

/-- The entry of a kind and a name that inputs and a clause make. -/
inductive MadeOf (mode : Mode) (inputs : List Parameter) (clause : String) :
    EntryKind → String → Entry → Prop
  | function {name outputs m} : DeclaresOutputs clause.toList outputs →
      Told mode (keywords clause.toList) m →
      MadeOf mode inputs clause .function name (.function ⟨name, inputs, outputs, m⟩)
  | event {name} : keywords clause.toList = [] →
      MadeOf mode inputs clause .event name
        (.event ⟨name, inputs, (Text.tokens clause).contains "anonymous"⟩)
  | error {name} : keywords clause.toList = [] →
      MadeOf mode inputs clause .error name (.error ⟨name, inputs⟩)
  | constructor {name m} : Told mode (keywords clause.toList) m → m.isReadOnly = false →
      MadeOf mode inputs clause .constructor name (.constructor ⟨inputs, m⟩)

theorem MadeOf.told {mode : Mode} {inputs : List Parameter} {clause name : String}
    {kind : EntryKind} {f : Function} (h : MadeOf mode inputs clause kind name (.function f)) :
    Told mode (keywords clause.toList) f.mutability := by
  cases h with
  | function _ hm => exact hm

theorem ofConstructorClause_eq_ok_iff {mode : Mode} {clause : String} {m : Mutability} :
    Mutability.ofConstructorClause mode clause = .ok m ↔
      Told mode (keywords clause.toList) m ∧ m.isReadOnly = false := by
  rw [Mutability.ofConstructorClause, Except.bind_eq_ok_iff]
  simp only [Mutability.ofClause_eq_ok_iff]
  constructor
  · rintro ⟨n, hn, h⟩
    split at h
    · exact absurd h Except.throw_bind_ne_ok
    · next hread =>
      obtain rfl := Except.pure_eq_ok_iff.1 h
      exact ⟨hn, by simpa using hread⟩
  · rintro ⟨hm, hread⟩
    exact ⟨m, hm, by simp [hread, Except.pure_eq_ok_iff]⟩

theorem ofParts_eq_ok_iff {mode : Mode} {declaration clause : String} {heading : Heading}
    {inputs : List Parameter} {e : Entry} :
    ofParts mode declaration heading inputs clause = .ok e ↔
      MadeOf mode inputs clause heading.kind heading.name e := by
  obtain ⟨kind, name, inner⟩ := heading
  rw [ofParts.eq_def]
  constructor
  · intro h
    cases kind with
    | function =>
      obtain ⟨outputs, houtputs, h⟩ := Except.bind_eq_ok_iff.1 h
      obtain ⟨m, hm, h⟩ := Except.bind_eq_ok_iff.1 h
      obtain rfl := Except.pure_eq_ok_iff.1 h
      exact .function (outputsOfClause_eq_ok_iff.1 houtputs) (Mutability.ofClause_eq_ok_iff.1 hm)
    | event =>
      obtain ⟨_, hrefuse, h⟩ := Except.bind_eq_ok_iff.1 h
      obtain rfl := Except.pure_eq_ok_iff.1 h
      exact .event (Mutability.refuse_eq_ok_iff.1 hrefuse)
    | error =>
      obtain ⟨_, hrefuse, h⟩ := Except.bind_eq_ok_iff.1 h
      obtain rfl := Except.pure_eq_ok_iff.1 h
      exact .error (Mutability.refuse_eq_ok_iff.1 hrefuse)
    | constructor =>
      obtain ⟨m, hm, h⟩ := Except.bind_eq_ok_iff.1 h
      obtain rfl := Except.pure_eq_ok_iff.1 h
      obtain ⟨htold, hread⟩ := ofConstructorClause_eq_ok_iff.1 hm
      exact .constructor htold hread
    | fallback => exact absurd h Except.throw_ne_ok
    | receive => exact absurd h Except.throw_ne_ok
  · intro h
    cases h with
    | function houtputs hm =>
      refine Except.bind_eq_ok_iff.2 ⟨_, outputsOfClause_eq_ok_iff.2 houtputs, ?_⟩
      exact Except.bind_eq_ok_iff.2 ⟨_, Mutability.ofClause_eq_ok_iff.2 hm, rfl⟩
    | event hk => exact Except.bind_eq_ok_iff.2 ⟨_, Mutability.refuse_eq_ok_iff.2 hk, rfl⟩
    | error hk => exact Except.bind_eq_ok_iff.2 ⟨_, Mutability.refuse_eq_ok_iff.2 hk, rfl⟩
    | constructor hm hread =>
      exact Except.bind_eq_ok_iff.2 ⟨_, ofConstructorClause_eq_ok_iff.2 ⟨hm, hread⟩, rfl⟩

theorem refuseIndexed_eq_ok_iff {e : Entry} :
    e.refuseIndexed = .ok () ↔
      e.kind = .event ∨ ∀ p ∈ e.inputs ++ e.outputs, p.indexed = false := by
  cases e with
  | event => simp [refuseIndexed, kind, Except.pure_eq_ok_iff]
  | _ =>
    simp only [refuseIndexed, kind, reduceCtorEq, false_or]
    split
    · next p hfind =>
      have hp := List.find?_some hfind
      constructor
      · intro h
        exact absurd h Except.throw_ne_ok
      · intro hall
        rw [hall p (List.mem_of_find?_eq_some hfind)] at hp
        cases hp
    · next hfind =>
      simp only [Except.pure_eq_ok_iff, true_iff]
      simpa using List.find?_eq_none.1 hfind

theorem ofDeclaration_eq_ok_iff {mode : Mode} {declaration : String} {e : Entry} :
    ofDeclaration mode declaration = .ok e ↔
      ∃ heading list clause inputs, Heading.ofDeclaration (Text.trim declaration) = .ok heading ∧
        splitGroup (Text.trim declaration) heading.inner = .ok (list, clause) ∧
        Parameter.listOfText list = .ok inputs ∧
        MadeOf mode inputs clause heading.kind heading.name e ∧ e.refuseIndexed = .ok () := by
  rw [ofDeclaration]
  constructor
  · intro h
    obtain ⟨heading, hheading, h⟩ := Except.bind_eq_ok_iff.1 h
    obtain ⟨⟨list, clause⟩, hgroup, h⟩ := Except.bind_eq_ok_iff.1 h
    obtain ⟨inputs, hinputs, h⟩ := Except.bind_eq_ok_iff.1 h
    obtain ⟨entry, hentry, h⟩ := Except.bind_eq_ok_iff.1 h
    obtain ⟨_, hindexed, h⟩ := Except.bind_eq_ok_iff.1 h
    obtain rfl := Except.pure_eq_ok_iff.1 h
    exact ⟨heading, list, clause, inputs, hheading, hgroup, hinputs,
      ofParts_eq_ok_iff.1 hentry, hindexed⟩
  · rintro ⟨heading, list, clause, inputs, hheading, hgroup, hinputs, hentry, hindexed⟩
    refine Except.bind_eq_ok_iff.2 ⟨heading, hheading, ?_⟩
    refine Except.bind_eq_ok_iff.2 ⟨(list, clause), hgroup, ?_⟩
    refine Except.bind_eq_ok_iff.2 ⟨inputs, hinputs, ?_⟩
    refine Except.bind_eq_ok_iff.2 ⟨e, ofParts_eq_ok_iff.2 hentry, ?_⟩
    exact Except.bind_eq_ok_iff.2 ⟨(), hindexed, rfl⟩

/-- A declaration that falls into a heading, inputs and a clause declares what these make. -/
theorem ofDeclaration_eq_ok_iff_of_parts {mode : Mode} {declaration head list clause name : String}
    {kind : EntryKind} {inputs : List Parameter} {e : Entry}
    (htext : (Text.trim declaration).toList =
      head.toList ++ '(' :: (list.toList ++ ')' :: clause.toList))
    (hopen : '(' ∉ head.toList) (hhead : Heading.kindAndName? head = some (kind, name))
    (hname : kind = .constructor ∨ isIdentifier name)
    (hlist : ∀ c ∈ list.toList, c ≠ '(' ∧ c ≠ ')')
    (hinputs : Parameter.listOfText list = .ok inputs) :
    ofDeclaration mode declaration = .ok e ↔
      MadeOf mode inputs clause kind name e ∧ e.refuseIndexed = .ok () := by
  have hheading : Heading.ofDeclaration (Text.trim declaration) =
      .ok ⟨kind, name, list ++ ")" ++ clause⟩ :=
    Heading.ofDeclaration_eq_ok_iff.2 ⟨head, by simpa using htext, hopen, hhead, hname⟩
  have hgroup : splitGroup (Text.trim declaration) (list ++ ")" ++ clause) = .ok (list, clause) :=
    splitGroup_eq_ok_iff.2 ⟨by simp, hlist⟩
  rw [ofDeclaration_eq_ok_iff]
  constructor
  · rintro ⟨heading, list', clause', inputs', hheading', hgroup', hinputs', hmade, hindexed⟩
    -- the readers are functions, so these are the parts that were given
    obtain rfl := Except.ok.inj (hheading.symm.trans hheading')
    obtain ⟨rfl, rfl⟩ := Prod.mk.inj (Except.ok.inj (hgroup.symm.trans hgroup'))
    obtain rfl := Except.ok.inj (hinputs.symm.trans hinputs')
    exact ⟨hmade, hindexed⟩
  · rintro ⟨hmade, hindexed⟩
    exact ⟨_, _, _, _, hheading, hgroup, hinputs, hmade, hindexed⟩

/-! ### Entries that can be declared -/

/-- An entry that a declaration can declare. -/
inductive Declarable : Entry → Prop
  | function {f : Function} : isIdentifier f.name → Parameter.DeclarableList f.inputs →
      Parameter.DeclarableList f.outputs → (∀ p ∈ f.inputs ++ f.outputs, p.indexed = false) →
      Declarable (.function f)
  | event {e : Event} : isIdentifier e.name → Parameter.DeclarableList e.inputs →
      Declarable (.event e)
  | error {e : CustomError} : isIdentifier e.name → Parameter.DeclarableList e.inputs →
      (∀ p ∈ e.inputs, p.indexed = false) → Declarable (.error e)
  | constructor {c : Constructor} : Parameter.DeclarableList c.inputs →
      (∀ p ∈ c.inputs, p.indexed = false) → c.mutability.isReadOnly = false →
      Declarable (.constructor c)

theorem declarableList_of_declaresOutputs {cs : List Char} {ps : List Parameter}
    (h : DeclaresOutputs cs ps) : Parameter.DeclarableList ps := by
  cases h with
  | none => exact .inr (by simp)
  | group _ hparens hlist =>
    exact Parameter.declarableList_of_listOfText hlist (by simpa using hparens)

theorem declarable_of_ofDeclaration {mode : Mode} {declaration : String} {e : Entry}
    (h : ofDeclaration mode declaration = .ok e) : e.Declarable := by
  obtain ⟨⟨kind, name, inner⟩, list, clause, inputs, hheading, hgroup, hlist, hmade, hindexed⟩ :=
    ofDeclaration_eq_ok_iff.1 h
  obtain ⟨head, -, -, -, hname⟩ := Heading.ofDeclaration_eq_ok_iff.1 hheading
  have hinputs := Parameter.declarableList_of_listOfText hlist (splitGroup_eq_ok_iff.1 hgroup).2
  rw [refuseIndexed_eq_ok_iff] at hindexed
  cases hmade with
  | function houtputs hm =>
    exact .function (hname.resolve_left nofun) hinputs (declarableList_of_declaresOutputs houtputs)
      (hindexed.resolve_left nofun)
  | event => exact .event (hname.resolve_left nofun) hinputs
  | error =>
    exact .error (hname.resolve_left nofun) hinputs
      (by simpa [Entry.inputs, outputs] using hindexed.resolve_left nofun)
  | constructor hm hread =>
    exact .constructor hinputs (by simpa [Entry.inputs, outputs] using hindexed.resolve_left nofun)
      hread

end Entry

end ContractAbi
