import ContractAbi.Entry
import ContractAbi.Proofs.Declaration.Parameter

/-!
# The clause behind the inputs

The clause names a mutability by keywords, which are looked for among all of its words, and the
outputs by a group in parentheses. A word of the group is a keyword too if spaces set it apart:
in the display of a list this happens to the type of a parameter that has a name and is not the
first one.
-/

namespace ContractAbi

namespace Mutability

/-! ### Keywords -/

/-- The mutabilities that the words of a clause name, in order. -/
def keywords (clause : List Char) : List Mutability :=
  (Text.words clause).filterMap fun word => ofText? (String.ofList word)

/-- What keywords tell in a mode: all of them the same, or the first one. Without a keyword it is
`nonpayable`. -/
def Told (mode : Mode) (found : List Mutability) (m : Mutability) : Prop :=
  match mode with
  | .strict => (∀ k ∈ found, k = m) ∧ (found = [] → m = .nonpayable)
  | .relaxed => found.head?.getD .nonpayable = m

theorem told_nil (mode : Mode) : Told mode [] .nonpayable := by
  cases mode <;> simp [Told]

theorem told_singleton (mode : Mode) (m : Mutability) : Told mode [m] m := by
  cases mode <;> simp [Told]

theorem filterMap_tokens (clause : String) :
    (Text.tokens clause).filterMap ofText? = keywords clause.toList := by
  rw [Text.tokens_eq_words, List.filterMap_map]
  rfl

theorem distinct_split (clause : String) :
    distinct (Text.split clause " ") = firstOccurrences (keywords clause.toList) := by
  rw [distinct, Text.filterMap_split_space (by decide) (by decide), filterMap_tokens]

theorem firstOccurrences_eq_singleton_iff {α : Type} [DecidableEq α] {a b : α} {as : List α} :
    firstOccurrences (a :: as) = [b] ↔ ∀ k ∈ a :: as, k = b := by
  rw [firstOccurrences, List.cons.injEq, List.filter_eq_nil_iff, List.forall_mem_cons]
  constructor
  · rintro ⟨rfl, h⟩
    refine ⟨rfl, fun k hk => ?_⟩
    simpa using h k (mem_firstOccurrences.2 hk)
  · rintro ⟨rfl, h⟩
    exact ⟨rfl, fun k hk => by simp [h k (mem_firstOccurrences.1 hk)]⟩

theorem ofClause_eq_ok_iff {mode : Mode} {clause : String} {m : Mutability} :
    ofClause mode clause = .ok m ↔ Told mode (keywords clause.toList) m := by
  rw [ofClause.eq_def, distinct_split]
  cases keywords clause.toList with
  | nil => cases mode <;> simp [firstOccurrences, Told, Except.pure_eq_ok_iff, eq_comm (b := m)]
  | cons k ks =>
    have hone := @firstOccurrences_eq_singleton_iff _ _ k m ks
    rw [firstOccurrences] at hone ⊢
    -- the first keyword decides, and in strict mode a second kind of keyword is a conflict
    cases mode with
    | relaxed => cases (firstOccurrences ks).filter fun b => b ≠ k <;> exact Except.pure_eq_ok_iff
    | strict =>
      cases hks : (firstOccurrences ks).filter fun b => b ≠ k with
      | nil =>
        rw [hks] at hone
        simpa [Told, Except.pure_eq_ok_iff] using hone
      | cons =>
        rw [hks] at hone
        have hconflict : ¬Told .strict (k :: ks) m := by
          intro h
          simpa using hone.2 h.1
        simp [hconflict]

theorem refuse_eq_ok_iff {kind : EntryKind} {clause : String} :
    refuse kind clause = .ok () ↔ keywords clause.toList = [] := by
  rw [refuse, ← filterMap_tokens, List.filterMap_eq_nil_iff, ← List.findSome?_eq_none_iff]
  cases (Text.tokens clause).findSome? ofText? with
  | none => simp [Except.pure_eq_ok_iff]
  | some m => simp

/-! ### Keywords of a text that is put together -/

@[simp]
theorem keywords_nil : keywords [] = [] := by simp [keywords]

@[simp]
theorem keywords_append_space (l r : List Char) :
    keywords (l ++ ' ' :: r) = keywords l ++ keywords r := by
  simp [keywords]

@[simp]
theorem keywords_space (cs : List Char) : keywords (' ' :: cs) = keywords cs := by simp [keywords]

theorem keywords_of_not_mem {cs : List Char} (hne : cs ≠ []) (h : ' ' ∉ cs) :
    keywords cs = (ofText? (String.ofList cs)).toList := by
  rw [keywords, Text.words_of_not_mem hne h]
  rw [List.filterMap_cons, List.filterMap_nil]
  cases ofText? (String.ofList cs) <;> rfl

theorem keywords_text (m : Mutability) : keywords m.text.toList = [m] := by
  cases m <;> rfl

/-- Keywords consist of letters. -/
theorem ofText?_eq_none_of_mem {cs : List Char} {c : Char} (h : c ∈ cs) (hc : c.isAlpha = false) :
    ofText? (String.ofList cs) = none := by
  rw [Option.eq_none_iff_forall_ne_some]
  intro m hm
  have hletters : ∀ c ∈ m.text.toList, c.isAlpha := by
    cases m <;> simp [text]
  rw [ofText?_eq_some_iff] at hm
  rw [hm, String.toList_ofList] at hletters
  simp [hletters c h] at hc

/-- A single word with something else than letters in it is no keyword. -/
theorem keywords_eq_nil_of_mem {cs : List Char} {c : Char} (hspace : ' ' ∉ cs) (h : c ∈ cs)
    (hc : c.isAlpha = false) : keywords cs = [] := by
  rw [keywords_of_not_mem (List.ne_nil_of_mem h) hspace, ofText?_eq_none_of_mem h hc]
  rfl

end Mutability

/-! ### Keywords among outputs -/

namespace Parameter

open Mutability (keywords)

/-- The keyword that the type of a parameter with a name is. -/
def keyword? (p : Parameter) : Option Mutability :=
  if p.name = "" then none else Mutability.ofText? p.type

/-- The keywords that spaces set apart in the display of a list. -/
def looseKeywords (ps : List Parameter) : List Mutability :=
  ps.tail.filterMap keyword?

/-- The type is a word of its own if a name follows it and nothing but a space stands before it. -/
theorem keywords_display {p : Parameter} (hp : p.Declarable) (hi : p.indexed = false)
    {pre : List Char} {stop : Char} (hpre : ' ' ∉ pre) (hstop : stop.isAlpha = false)
    (hspace : stop ≠ ' ') :
    keywords (pre ++ p.display.toList ++ [stop]) =
      if p.name = "" then []
      else (Mutability.ofText? (String.ofList (pre ++ p.type.toList))).toList := by
  have htype := hp.type.space_not_mem
  have hstops : ∀ cs : List Char, ' ' ∉ cs → keywords (cs ++ [stop]) = [] := by
    intro cs hcs
    have hspaces : ' ' ∉ cs ++ [stop] := by simp [hcs, hspace.symm]
    exact Mutability.keywords_eq_nil_of_mem (c := stop) hspaces (by simp) hstop
  have hne : pre ++ p.type.toList ≠ [] := by simp [hp.type.1]
  rw [toList_display, hi, if_neg (by simp), List.append_nil, ← List.append_assoc]
  split
  · rw [List.append_nil]
    exact hstops _ (by simp [hpre, htype])
  · next hn =>
    have hname := (hp.name.resolve_left hn).space_not_mem
    rw [List.append_assoc, List.cons_append, Mutability.keywords_append_space, hstops _ hname,
      List.append_nil, Mutability.keywords_of_not_mem hne (by simp [hpre, htype])]

/-- The first parameter has `pre` before its type, and the others a space. -/
theorem keywords_displayList {p : Parameter} {ps : List Parameter}
    (hps : ∀ q ∈ p :: ps, q.Declarable ∧ q.indexed = false) {pre : List Char} (hpre : ' ' ∉ pre) :
    keywords (pre ++ (displayList (p :: ps)).toList ++ [')']) =
      (if p.name = "" then []
        else (Mutability.ofText? (String.ofList (pre ++ p.type.toList))).toList) ++
        looseKeywords (p :: ps) := by
  -- a comma or the last parenthesis ends each parameter, and no keyword has one in it
  induction ps generalizing p pre with
  | nil =>
    obtain ⟨hp, hi⟩ := hps p (by simp)
    rw [toList_displayList, List.map_singleton, List.intercalate_singleton,
      keywords_display hp hi hpre (by decide) (by decide)]
    simp [looseKeywords]
  | cons q ps ih =>
    obtain ⟨hp, hi⟩ := hps p (by simp)
    have htext : pre ++ (displayList (p :: q :: ps)).toList ++ [')'] =
        (pre ++ p.display.toList ++ [',']) ++
          ' ' :: ([] ++ (displayList (q :: ps)).toList ++ [')']) := by
      rw [toList_displayList, toList_displayList, List.map_cons, List.map_cons,
        List.intercalate_cons_cons]
      simp
    rw [htext, Mutability.keywords_append_space,
      keywords_display hp hi hpre (by decide) (by decide),
      ih (fun r hr => hps r (List.mem_cons_of_mem _ hr)) (by simp)]
    congr 1
    rw [looseKeywords, looseKeywords, List.tail_cons, List.tail_cons, List.filterMap_cons, keyword?,
      List.nil_append, String.ofList_toList]
    split
    · rfl
    · cases Mutability.ofText? q.type <;> rfl

/-- The group of outputs shows its loose keywords: the first type follows a parenthesis. -/
theorem keywords_outputs {ps : List Parameter} (h : DeclarableList ps)
    (hi : ∀ p ∈ ps, p.indexed = false) :
    keywords ('(' :: (displayList ps).toList ++ [')']) = looseKeywords ps := by
  rcases h with rfl | h
  · have hcomma : displayList [plain "," ""] = "," := rfl
    rw [hcomma]
    exact Mutability.keywords_eq_nil_of_mem (c := '(') (by simp) (by simp) (by decide)
  cases ps with
  | nil => exact Mutability.keywords_eq_nil_of_mem (c := '(') (by decide) (by simp) (by decide)
  | cons p ps =>
    have hopen : Mutability.ofText? (String.ofList (['('] ++ p.type.toList)) = none :=
      Mutability.ofText?_eq_none_of_mem (c := '(') (by simp) (by decide)
    have hps : ∀ q ∈ p :: ps, q.Declarable ∧ q.indexed = false := by
      intro q hq
      exact ⟨h q hq, hi q hq⟩
    calc keywords ('(' :: (displayList (p :: ps)).toList ++ [')'])
        = keywords (['('] ++ (displayList (p :: ps)).toList ++ [')']) := rfl
      _ = (if p.name = "" then [] else []) ++ looseKeywords (p :: ps) := by
          rw [keywords_displayList hps (by decide), hopen, Option.toList_none]
      _ = looseKeywords (p :: ps) := by simp

end Parameter

/-! ### Groups -/

theorem splitGroup_eq_ok_iff {declaration inner list rest : String} :
    splitGroup declaration inner = .ok (list, rest) ↔
      inner.toList = list.toList ++ ')' :: rest.toList ∧ ∀ c ∈ list.toList, c ≠ '(' ∧ c ≠ ')' := by
  have hparens : (∀ c ∈ list.toList, c ≠ '(' ∧ c ≠ ')') ↔
      '(' ∉ list.toList ∧ ')' ∉ list.toList := by
    grind
  rw [hparens, splitGroup]
  constructor
  · intro h
    split at h
    · exact absurd h Except.throw_ne_ok
    · next hcut =>
      split at h
      · exact absurd h Except.throw_ne_ok
      · next hopen =>
        obtain ⟨rfl, rfl⟩ := Prod.mk.inj (Except.pure_eq_ok_iff.1 h)
        obtain ⟨htext, hclose⟩ := Text.cut_eq_some_iff.1 hcut
        exact ⟨htext, by simpa [Text.has] using hopen, hclose⟩
  · rintro ⟨htext, hopen, hclose⟩
    rw [Text.cut_eq_some_iff.2 ⟨htext, hclose⟩]
    simp [Text.has, hopen, Except.pure_eq_ok_iff]

/-- The outputs that a clause declares in its first group. -/
inductive DeclaresOutputs : List Char → List Parameter → Prop
  | none {cs} : '(' ∉ cs → DeclaresOutputs cs []
  | group {before list rest : List Char} {ps} : '(' ∉ before → (∀ c ∈ list, c ≠ '(' ∧ c ≠ ')') →
      Parameter.listOfText (String.ofList list) = .ok ps →
      DeclaresOutputs (before ++ '(' :: (list ++ ')' :: rest)) ps

theorem outputsOfClause_eq_ok_iff {declaration clause : String} {ps : List Parameter} :
    outputsOfClause declaration clause = .ok ps ↔ DeclaresOutputs clause.toList ps := by
  rw [outputsOfClause]
  constructor
  · intro h
    split at h
    · next hcut =>
      obtain rfl := Except.pure_eq_ok_iff.1 h
      exact .none (Text.cut_eq_none_iff.1 hcut)
    · next hcut =>
      obtain ⟨⟨list, rest⟩, hgroup, hlist⟩ := Except.bind_eq_ok_iff.1 h
      obtain ⟨hclause, hbefore⟩ := Text.cut_eq_some_iff.1 hcut
      obtain ⟨hinner, hparens⟩ := splitGroup_eq_ok_iff.1 hgroup
      rw [hclause, hinner]
      exact .group hbefore hparens (by rwa [String.ofList_toList])
  · intro h
    generalize hcs : clause.toList = cs at h
    cases h with
    | none hopen => rw [Text.cut_eq_none_iff.2 (hcs ▸ hopen)]; rfl
    | @group before list rest _ hbefore hparens hlist =>
      have hcut : Text.cut '(' clause =
          some (String.ofList before, String.ofList (list ++ ')' :: rest)) :=
        Text.cut_eq_some_iff.2 (by simpa using ⟨hcs, hbefore⟩)
      have hgroup : splitGroup declaration (String.ofList (list ++ ')' :: rest)) =
          .ok (String.ofList list, String.ofList rest) :=
        splitGroup_eq_ok_iff.2 (by simpa using hparens)
      rw [hcut]
      exact Except.bind_eq_ok_iff.2 ⟨_, hgroup, hlist⟩

/-! ### The clause of a function's display -/

namespace Function

open Mutability (keywords Told)

/-- The part of the display behind the inputs. -/
def clause (f : Function) : String :=
  Entry.suffixUnless .nonpayable f.mutability ++
    (if f.outputs.isEmpty then "" else " returns (" ++ Parameter.displayList f.outputs ++ ")")

/-- Whether the loose keywords of the outputs leave the mutability as it is. Where all keywords
count they must name the same one; where the first one counts they matter only if `nonpayable` has
gone without saying. -/
def KeepsMutability (mode : Mode) (f : Function) : Prop :=
  match mode with
  | .strict => ∀ k ∈ Parameter.looseKeywords f.outputs, k = f.mutability
  | .relaxed => f.mutability = .nonpayable →
      (Parameter.looseKeywords f.outputs).head?.getD .nonpayable = .nonpayable

instance {mode : Mode} {f : Function} : Decidable (f.KeepsMutability mode) :=
  match mode with
  | .strict =>
    inferInstanceAs (Decidable (∀ k ∈ Parameter.looseKeywords f.outputs, k = f.mutability))
  | .relaxed => inferInstanceAs (Decidable (f.mutability = .nonpayable →
      (Parameter.looseKeywords f.outputs).head?.getD .nonpayable = .nonpayable))

theorem toList_suffix (m : Mutability) :
    (Entry.suffixUnless .nonpayable m).toList =
      if m = .nonpayable then [] else ' ' :: m.text.toList := by
  cases m <;> rfl

theorem toList_clause (f : Function) : f.clause.toList =
    (if f.mutability = .nonpayable then [] else ' ' :: f.mutability.text.toList) ++
      (if f.outputs = [] then [] else ' ' :: ("returns".toList ++
        ' ' :: ('(' :: (Parameter.displayList f.outputs).toList ++ [')']))) := by
  rw [clause, String.toList_append, toList_suffix]
  congr 1
  cases f.outputs with
  | nil => rfl
  | cons p ps => simp

theorem not_mem_suffix (m : Mutability) :
    '(' ∉ (if m = .nonpayable then [] else ' ' :: m.text.toList) := by
  cases m <;> decide

theorem declaresOutputs_clause {f : Function} (h : Parameter.DeclarableList f.outputs) :
    DeclaresOutputs f.clause.toList f.outputs := by
  rw [toList_clause]
  by_cases hnil : f.outputs = []
  · rw [if_pos hnil, hnil, List.append_nil]
    exact .none (not_mem_suffix _)
  · have hbefore :
        '(' ∉ (if f.mutability = .nonpayable then [] else ' ' :: f.mutability.text.toList) ++
          ' ' :: "returns ".toList := by
      rw [List.mem_append, not_or]
      exact ⟨not_mem_suffix _, by decide⟩
    have hgroup := @DeclaresOutputs.group _ _ [] _ hbefore (Parameter.mem_displayList h)
      (by rw [String.ofList_toList, Parameter.listOfText_displayList h])
    simpa [hnil] using hgroup

theorem keywords_clause {f : Function} (h : Parameter.DeclarableList f.outputs)
    (hi : ∀ p ∈ f.outputs, p.indexed = false) :
    keywords f.clause.toList = (if f.mutability = .nonpayable then [] else [f.mutability]) ++
      Parameter.looseKeywords f.outputs := by
  have hreturns : keywords "returns".toList = [] := rfl
  have hsuffix :
      keywords (if f.mutability = .nonpayable then [] else ' ' :: f.mutability.text.toList) =
        if f.mutability = .nonpayable then [] else [f.mutability] := by
    split
    · exact Mutability.keywords_nil
    · rw [Mutability.keywords_space, Mutability.keywords_text]
  rw [toList_clause]
  by_cases hnil : f.outputs = []
  · rw [if_pos hnil, hnil, List.append_nil, hsuffix]
    simp [Parameter.looseKeywords]
  · rw [if_neg hnil, Mutability.keywords_append_space, hsuffix, Mutability.keywords_append_space,
      hreturns, Parameter.keywords_outputs h hi, List.nil_append]

theorem told_clause {mode : Mode} {f : Function} (h : Parameter.DeclarableList f.outputs)
    (hi : ∀ p ∈ f.outputs, p.indexed = false) :
    Told mode (keywords f.clause.toList) f.mutability ↔ f.KeepsMutability mode := by
  rw [keywords_clause h hi, KeepsMutability.eq_def]
  by_cases hm : f.mutability = .nonpayable
  · cases mode <;> simp [hm, Told]
  · cases mode <;> simp [hm, Told]

end Function

end ContractAbi
