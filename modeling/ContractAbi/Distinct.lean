/-!
# First and second occurrences

The items of a list without repetitions, and the items that are repeated.
-/

namespace ContractAbi

variable {α : Type} [DecidableEq α]

/-- The items of a list, each where it occurs first. -/
def firstOccurrences : List α → List α
  | [] => []
  | a :: as => a :: (firstOccurrences as).filter fun b => b ≠ a

/-- The items of a list that occur again, each once, in the order of their second occurrences;
those in `seen` have occurred and those in `told` have been told before. -/
def repeatedAfter (seen told : List α) : List α → List α
  | [] => []
  | a :: as =>
    if a ∉ seen then repeatedAfter (a :: seen) told as
    else if a ∈ told then repeatedAfter seen told as
    else a :: repeatedAfter seen (a :: told) as

/-- The items that occur more than once, each once, in the order of their second occurrences. -/
def repeatedItems (as : List α) : List α :=
  repeatedAfter [] [] as

theorem mem_firstOccurrences {a : α} {as : List α} : a ∈ firstOccurrences as ↔ a ∈ as := by
  induction as with
  | nil => rfl
  | cons b bs ih =>
    simp only [firstOccurrences, List.mem_cons, List.mem_filter, ih, decide_eq_true_eq]
    grind

theorem nodup_firstOccurrences (as : List α) : (firstOccurrences as).Nodup := by
  induction as with
  | nil => exact List.nodup_nil
  | cons b bs ih =>
    rw [firstOccurrences, List.nodup_cons]
    exact ⟨by simp, ih.sublist List.filter_sublist⟩

end ContractAbi
