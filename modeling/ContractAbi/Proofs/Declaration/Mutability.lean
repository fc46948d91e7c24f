import ContractAbi.Proofs.Declaration.Heading

/-!
# The mutability of a whole declaration

The mutability can be told without reading the declaration: its keywords are looked for behind the
first closing parenthesis of the text, with the spaces that are around it. In a declaration that can
be read this is the parenthesis behind the inputs, as neither a keyword nor a name has one, and the
spaces add no words. So the two ways tell the same. Main statement:
`Mutability.ofDeclaration_agrees`.
-/

namespace ContractAbi

open Mutability (keywords Told)

/-- The mutability that the clause of an entry's declaration tells. Events and errors have none, so
their clauses are those without a keyword. -/
def Entry.clauseMutability : Entry → Mutability
  | function f => f.mutability
  | constructor c => c.mutability
  | event _ | error _ | fallback _ | receive _ => .nonpayable

theorem Entry.MadeOf.told_clauseMutability {mode : Mode} {inputs : List Parameter}
    {clause name : String} {kind : EntryKind} {e : Entry}
    (h : MadeOf mode inputs clause kind name e) :
    Told mode (keywords clause.toList) e.clauseMutability := by
  cases h with
  | function _ hm => exact hm
  | constructor hm _ => exact hm
  | event hnone => exact hnone ▸ Mutability.told_nil mode
  | error hnone => exact hnone ▸ Mutability.told_nil mode

namespace Mutability

theorem keywords_append_spaces (cs : List Char) (n : Nat) :
    keywords (cs ++ Text.spaces n) = keywords cs := by
  have hwords := @Text.words_append_append [] cs (Text.spaces n) (List.forall_mem_nil _)
    fun c hc => Text.eq_space_of_mem_spaces hc
  rw [keywords, keywords, ← hwords, List.nil_append]

/-- Behind the first closing parenthesis of a declaration that is read there is the clause of the
entry, and spaces. -/
theorem ofDeclaration_of_read {mode : Mode} {declaration : String} {e : Entry}
    (h : Entry.ofDeclaration mode declaration = .ok e) :
    ofDeclaration mode declaration = .ok e.clauseMutability := by
  obtain ⟨⟨kind, name, inner⟩, list, clause, inputs, hheading, hgroup, -, hmade, -⟩ :=
    Entry.ofDeclaration_eq_ok_iff.1 h
  obtain ⟨head, htext, -, hhead, hname⟩ := Heading.ofDeclaration_eq_ok_iff.1 hheading
  obtain ⟨hinner, hlist⟩ := splitGroup_eq_ok_iff.1 hgroup
  obtain ⟨m, n, hspaces⟩ := Text.exists_spaces_trim declaration
  have hspelled := Heading.spelled_of_kindAndName? hhead
  have hclose : ')' ∉ head.toList := by
    refine hspelled.not_mem (by decide) (by decide) ?_
    rcases hname with rfl | hname
    · cases hspelled
      decide
    · intro hmem
      exact ((isWord_of_isIdentifier hname).2 ')' hmem).2.2.2 rfl
  have hcut : Text.cut ')' declaration = some
      (String.ofList (Text.spaces m ++ (head.toList ++ '(' :: list.toList)),
        String.ofList (clause.toList ++ Text.spaces n)) := by
    rw [Text.cut_eq_some_iff, String.toList_ofList, String.toList_ofList, hspaces, htext, hinner]
    refine ⟨by simp, ?_⟩
    have hgap : ')' ∉ Text.spaces m := Text.not_mem_spaces (by decide)
    have hinputs : ')' ∉ list.toList := fun hmem => (hlist ')' hmem).2 rfl
    simp [hgap, hclose, hinputs]
  rw [ofDeclaration, hcut]
  refine ofClause_eq_ok_iff.2 ?_
  rw [String.toList_ofList, keywords_append_spaces]
  exact hmade.told_clauseMutability

/-! ### Main statement -/

/-- A whole declaration tells the mutability of the function or constructor that it declares, and
one that is ambiguous declares nothing. -/
theorem ofDeclaration_agrees (mode : Mode) (declaration : String) :
    (∀ f, Entry.ofDeclaration mode declaration = .ok (.function f) →
      ofDeclaration mode declaration = .ok f.mutability) ∧
    (∀ c, Entry.ofDeclaration mode declaration = .ok (.constructor c) →
      ofDeclaration mode declaration = .ok c.mutability) ∧
    ∀ clause found, ofDeclaration mode declaration = .error (.ambiguousMutability clause found) →
      ∀ e, Entry.ofDeclaration mode declaration ≠ .ok e := by
  refine ⟨fun f hf => ofDeclaration_of_read hf, fun c hc => ofDeclaration_of_read hc, ?_⟩
  intro clause found hambiguous e he
  rw [ofDeclaration_of_read he] at hambiguous
  cases hambiguous

/-- A function with spaces around its declaration, a constructor, and an event with two keywords. -/
theorem ofDeclaration_agrees_of_view :
    let f : Function := ⟨"f", [], [.plain "uint" ""], .view⟩
    let c : Constructor := ⟨[], .payable⟩
    (Entry.ofDeclaration .strict "  f () external view returns (uint) " = .ok (.function f) ∧
      ofDeclaration .strict "  f () external view returns (uint) " = .ok f.mutability) ∧
    (Entry.ofDeclaration .relaxed "constructor() payable view" = .ok (.constructor c) ∧
      ofDeclaration .relaxed "constructor() payable view" = .ok c.mutability) ∧
    (ofDeclaration .strict "event E() view pure" =
        .error (.ambiguousMutability "view pure" [.view, .pure]) ∧
      ∀ e, Entry.ofDeclaration .strict "event E() view pure" ≠ .ok e) := by
  intro f c
  have hf : Entry.ofDeclaration .strict "  f () external view returns (uint) " =
      .ok (.function f) := by with_unfolding_all rfl
  have hc : Entry.ofDeclaration .relaxed "constructor() payable view" =
      .ok (.constructor c) := by with_unfolding_all rfl
  have he : ofDeclaration .strict "event E() view pure" =
      .error (.ambiguousMutability "view pure" [.view, .pure]) := by with_unfolding_all rfl
  exact ⟨⟨hf, (ofDeclaration_agrees .strict _).1 f hf⟩,
    ⟨hc, (ofDeclaration_agrees .relaxed _).2.1 c hc⟩, he,
    (ofDeclaration_agrees .strict _).2.2 _ _ he⟩

end Mutability

end ContractAbi
