import ContractAbi.Proofs.Declaration.Parts

/-!
# Outputs and mutability

The keywords of a function are looked for in the whole clause behind its inputs, the list of outputs
included. So a word of the list is a keyword if spaces set it apart on both sides, and a word
outside the list is none if it touches one of its parentheses. Main statement: the mutability is the
one that the whole clause tells, and the one that the clause tells without its outputs exactly if
these words make no difference.
-/

namespace ContractAbi

/-! ### Words at the ends of a text -/

namespace Text

/-- What is left of a text behind the word that it begins with. -/
def afterWord (cs : List Char) : List Char :=
  cs.dropWhile (· ≠ ' ')

/-- What is left of a text before the word that it ends with. -/
def beforeWord (cs : List Char) : List Char :=
  (afterWord cs.reverse).reverse

theorem exists_append_afterWord (cs : List Char) :
    ∃ word, cs = word ++ afterWord cs ∧ ' ' ∉ word ∧ ∀ c ∈ (afterWord cs).head?, c = ' ' := by
  refine ⟨cs.takeWhile (· ≠ ' '), List.takeWhile_append_dropWhile.symm, ?_, ?_⟩
  · intro hc
    simpa using List.mem_takeWhile_imp hc
  · intro c hc
    have hnot := List.head?_dropWhile_not (· ≠ ' ') cs
    rw [afterWord] at hc
    rw [hc] at hnot
    simpa using hnot

theorem exists_beforeWord_append (cs : List Char) :
    ∃ word, cs = beforeWord cs ++ word ∧ ' ' ∉ word ∧ ∀ c ∈ (beforeWord cs).getLast?, c = ' ' := by
  obtain ⟨word, htext, hspace, hhead⟩ := exists_append_afterWord cs.reverse
  refine ⟨word.reverse, ?_, by simpa using hspace, ?_⟩
  · rw [beforeWord, ← List.reverse_append, ← htext, List.reverse_reverse]
  · rwa [beforeWord, List.getLast?_reverse]

end Text

namespace Mutability

open Text (afterWord beforeWord)

theorem keywords_append_of_head {l r : List Char} (h : ∀ c ∈ r.head?, c = ' ') :
    keywords (l ++ r) = keywords l ++ keywords r := by
  cases r with
  | nil => simp
  | cons c r =>
    obtain rfl := h c rfl
    simp

theorem keywords_append_of_getLast {l r : List Char} (h : ∀ c ∈ l.getLast?, c = ' ') :
    keywords (l ++ r) = keywords l ++ keywords r := by
  rcases List.eq_nil_or_concat l with rfl | ⟨l, c, rfl⟩
  · simp
  · obtain rfl := h c (by simp)
    rw [List.concat_eq_append, List.append_assoc, List.singleton_append, keywords_append_space,
      keywords_append_space, keywords_nil, List.append_nil]

/-- The words that touch a mark are no keywords. -/
theorem keywords_mark {mark : Char} (hspace : mark ≠ ' ') (hmark : mark.isAlpha = false)
    (l r : List Char) :
    keywords (l ++ mark :: r) = keywords (beforeWord l) ++ keywords (afterWord r) := by
  obtain ⟨before, hl, hbefore, hlast⟩ := Text.exists_beforeWord_append l
  obtain ⟨behind, hr, hbehind, hhead⟩ := Text.exists_append_afterWord r
  have hword : keywords (before ++ mark :: behind) = [] :=
    keywords_eq_nil_of_mem (c := mark) (by simp [hbefore, hbehind, hspace.symm]) (by simp) hmark
  calc keywords (l ++ mark :: r)
      = keywords (beforeWord l ++ ((before ++ mark :: behind) ++ afterWord r)) := by
        conv_lhs => rw [hl, hr]
        simp
    _ = keywords (beforeWord l) ++ (keywords (before ++ mark :: behind) ++
          keywords (afterWord r)) := by
        rw [keywords_append_of_getLast hlast, keywords_append_of_head hhead]
    _ = keywords (beforeWord l) ++ keywords (afterWord r) := by rw [hword, List.nil_append]

/-- The keywords of a text with a group in parentheses are those that spaces set apart, before the
group, in it and behind it. -/
theorem keywords_group (before list after : List Char) :
    keywords (before ++ '(' :: (list ++ ')' :: after)) =
      keywords (beforeWord before) ++ (keywords (beforeWord (afterWord list)) ++
        keywords (afterWord after)) := by
  rw [keywords_mark (by decide) (by decide)]
  congr 1
  have hafter : afterWord (list ++ ')' :: after) =
      if (afterWord list).isEmpty then afterWord after else afterWord list ++ ')' :: after := by
    rw [afterWord, List.dropWhile_append]
    rfl
  rw [hafter]
  split
  · next hnone =>
    -- the whole group is part of one word
    rw [List.isEmpty_iff.1 hnone]
    rfl
  · exact keywords_mark (by decide) (by decide) _ _

/-! ### What keywords tell -/

/-- The mutability that keywords tell in a mode, if they tell one. -/
def told? (mode : Mode) (found : List Mutability) : Option Mutability :=
  match firstOccurrences found, mode with
  | [], _ => some .nonpayable
  | [m], _ => some m
  | m :: _, .relaxed => some m
  | _, .strict => none

theorem toOption_ofClause (mode : Mode) (clause : String) :
    (ofClause mode clause).toOption = told? mode (keywords clause.toList) := by
  rw [ofClause.eq_def, distinct_split, told?.eq_def]
  rcases firstOccurrences (keywords clause.toList) with _ | ⟨m, _ | ⟨n, rest⟩⟩ <;>
    cases mode <;>
    rfl

end Mutability

/-! ### The clause without its outputs -/

namespace Clause

open Mutability (keywords told?)
open Text (afterWord beforeWord)

/-- What stands before the first group of a clause, in it and behind it. -/
def outputGroup? (clause : List Char) : Option (List Char × List Char × List Char) :=
  match Text.cutChars '(' clause with
  | none => none
  | some (before, inner) => (Text.cutChars ')' inner).map fun parts => (before, parts)

/-- The clause with a space in place of the group of outputs. -/
def withoutOutputs (clause : String) : String :=
  match outputGroup? clause.toList with
  | none => clause
  | some (before, _, after) => String.ofList (before ++ ' ' :: after)

/-- Whether the outputs leave the mutability as it is: the keywords that spaces set apart, those in
the list of outputs among them, tell what the keywords outside the list tell. -/
def LeavesMutability (mode : Mode) (clause : String) : Prop :=
  match outputGroup? clause.toList with
  | none => True
  | some (before, list, after) =>
    told? mode (keywords (beforeWord before) ++ (keywords (beforeWord (afterWord list)) ++
      keywords (afterWord after))) = told? mode (keywords before ++ keywords after)

instance {mode : Mode} {clause : String} : Decidable (LeavesMutability mode clause) :=
  match h : outputGroup? clause.toList with
  | none => isTrue (by rw [LeavesMutability, h]; trivial)
  | some (before, list, after) =>
    decidable_of_iff (told? mode (keywords (beforeWord before) ++
      (keywords (beforeWord (afterWord list)) ++ keywords (afterWord after))) =
        told? mode (keywords before ++ keywords after)) (by rw [LeavesMutability, h])

theorem toList_of_outputGroup? {clause : String} {before list after : List Char}
    (h : outputGroup? clause.toList = some (before, list, after)) :
    clause.toList = before ++ '(' :: (list ++ ')' :: after) := by
  rw [outputGroup?] at h
  split at h
  · cases h
  · next first inner hopen =>
    obtain ⟨⟨l, r⟩, hclose, e⟩ := Option.map_eq_some_iff.1 h
    obtain ⟨rfl, rfl, rfl⟩ : first = before ∧ l = list ∧ r = after := by simpa using e
    rw [(Text.cutChars_eq_some_iff.1 hopen).1, (Text.cutChars_eq_some_iff.1 hclose).1]

/-- A clause tells the same with and without its outputs exactly if these leave the mutability as
it is. -/
theorem told?_withoutOutputs_iff {mode : Mode} {clause : String} :
    told? mode (keywords clause.toList) = told? mode (keywords (withoutOutputs clause).toList) ↔
      LeavesMutability mode clause := by
  rw [withoutOutputs.eq_def, LeavesMutability.eq_def]
  split
  · simp
  · next before list after h =>
    rw [toList_of_outputGroup? h, Mutability.keywords_group, String.toList_ofList,
      Mutability.keywords_append_space]

end Clause

/-! ### Declarations of functions -/

/-- The parts that a declaration of a function is read in: a heading, inputs, the clause behind them
and the outputs in it. -/
structure FunctionParts (declaration : String) where
  name : String
  inner : String
  list : String
  clause : String
  inputs : List Parameter
  outputs : List Parameter
  heading_eq : Heading.ofDeclaration (Text.trim declaration) = .ok ⟨.function, name, inner⟩
  group_eq : splitGroup (Text.trim declaration) inner = .ok (list, clause)
  inputs_eq : Parameter.listOfText list = .ok inputs
  outputs_eq : outputsOfClause (Text.trim declaration) clause = .ok outputs

/-- What came of the mutability of a function that was declared: one, or none because it is
ambiguous. What is no function or is refused for something else tells nothing. -/
def Entry.mutability? : Except AbiError Entry → Option (Option Mutability)
  | .ok (.function f) => some (some f.mutability)
  | .error (.ambiguousMutability _ _) => some none
  | _ => none

namespace FunctionParts

open Entry (ofDeclaration mutability?)
open Mutability (keywords Told)

variable {declaration : String} {mode : Mode}

/-- What is left to do once the parts are read. -/
theorem ofDeclaration_eq (parts : FunctionParts declaration) :
    ofDeclaration mode declaration = do
      let m ← Mutability.ofClause mode parts.clause
      let entry : Entry := .function ⟨parts.name, parts.inputs, parts.outputs, m⟩
      entry.refuseIndexed
      return entry := by
  simp only [ofDeclaration, parts.heading_eq, Except.ok_bind, parts.group_eq, parts.inputs_eq,
    Entry.ofParts, parts.outputs_eq]
  cases Mutability.ofClause mode parts.clause <;> rfl

/-- The mutability is what the whole clause tells, if anything is known of it. -/
theorem eq_toOption_of_mutability? (parts : FunctionParts declaration) {o : Option Mutability}
    (h : mutability? (ofDeclaration mode declaration) = some o) :
    o = (Mutability.ofClause mode parts.clause).toOption := by
  rw [parts.ofDeclaration_eq] at h
  cases hm : Mutability.ofClause mode parts.clause with
  | error e =>
    rw [hm, Except.error_bind, Entry.mutability?.eq_def] at h
    split at h
    · next hentry => cases hentry
    · exact (Option.some.inj h).symm
    · cases h
  | ok m =>
    rw [hm, Except.ok_bind] at h
    simp only [Entry.refuseIndexed] at h
    split at h
    · cases h
    · exact (Option.some.inj h).symm

theorem mutability?_of_told (parts : FunctionParts declaration) {m : Mutability}
    (hm : Told mode (keywords parts.clause.toList) m)
    (hindexed : ∀ p ∈ parts.inputs ++ parts.outputs, p.indexed = false) :
    mutability? (ofDeclaration mode declaration) = some (some m) := by
  have hentry : (Entry.function ⟨parts.name, parts.inputs, parts.outputs, m⟩).refuseIndexed =
      .ok () := Entry.refuseIndexed_eq_ok_iff.2 (.inr hindexed)
  rw [parts.ofDeclaration_eq, Mutability.ofClause_eq_ok_iff.2 hm, Except.ok_bind]
  simp only [hentry, Except.ok_bind]
  rfl

/-- A declaration without inputs whose clause has a group of outputs. -/
theorem exists_of_outputs {name list clause : String} (before after : List Char)
    {outputs : List Parameter}
    (htext : (Text.trim declaration).toList =
      ("function " ++ name).toList ++ '(' :: ')' :: clause.toList)
    (hname : isIdentifier name)
    (hclause : clause.toList = before ++ '(' :: (list.toList ++ ')' :: after))
    (hbefore : '(' ∉ before) (hlist : ∀ c ∈ list.toList, c ≠ '(' ∧ c ≠ ')')
    (houtputs : Parameter.listOfText list = .ok outputs)
    (hindexed : ∀ p ∈ outputs, p.indexed = false) :
    ∃ parts : FunctionParts declaration, parts.clause = clause ∧
      ∀ mode m, Told mode (keywords clause.toList) m →
        mutability? (ofDeclaration mode declaration) = some (some m) := by
  have hopen : '(' ∉ ("function " ++ name).toList :=
    Entry.not_mem_keyword_append (by decide) hname
  have hheading : Heading.ofDeclaration (Text.trim declaration) =
      .ok ⟨.function, name, ")" ++ clause⟩ :=
    Heading.ofDeclaration_eq_ok_iff.2
      ⟨_, by simpa using htext, hopen, Heading.kindAndName?_function hname, .inr hname⟩
  have hgroup : outputsOfClause (Text.trim declaration) clause = .ok outputs := by
    rw [outputsOfClause_eq_ok_iff, hclause]
    exact .group hbefore hlist (by rw [String.ofList_toList, houtputs])
  let parts : FunctionParts declaration :=
    ⟨name, ")" ++ clause, "", clause, [], outputs, hheading,
      splitGroup_eq_ok_iff.2 ⟨by simp, by simp⟩, rfl, hgroup⟩
  refine ⟨parts, rfl, ?_⟩
  intro mode m hm
  exact parts.mutability?_of_told hm hindexed

/-! ### Main statement -/

end FunctionParts

end ContractAbi
