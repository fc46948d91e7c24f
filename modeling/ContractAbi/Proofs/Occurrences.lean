import Mathlib.Data.List.Nodup
import ContractAbi.Distinct

/-!
# Which items are kept, and in which order

The first occurrences of the items of a list stand in the order of these occurrences, and the
repeated items in the order of their second occurrences. Both are stated for what a function takes
out of a longer list, with the positions counted in the longer list.
-/

namespace ContractAbi

variable {α β : Type} [DecidableEq β]

/-! ### First occurrences -/

/-- The items stand in the order in which they occur first. -/
theorem pairwise_firstOccurrences (f : α → Option β) (as : List α) :
    (firstOccurrences (as.filterMap f)).Pairwise fun b c =>
      as.findIdx (fun a => f a = some b) < as.findIdx (fun a => f a = some c) := by
  induction as with
  | nil => exact .nil
  | cons a as ih =>
    cases ha : f a with
    | none =>
      rw [List.filterMap_cons_none ha]
      refine ih.imp ?_
      intro b c h
      simpa [List.findIdx_cons, ha] using h
    | some first =>
      rw [List.filterMap_cons_some ha, firstOccurrences, List.pairwise_cons]
      constructor
      · intro c hc
        have hne : first ≠ c := (of_decide_eq_true (List.mem_filter.1 hc).2).symm
        simp [List.findIdx_cons, ha, hne]
      · -- what is left differs from the first item, so it stands one place further on
        refine (ih.filter _).imp_of_mem ?_
        intro b c hb hc h
        have hneb : first ≠ b := (of_decide_eq_true (List.mem_filter.1 hb).2).symm
        have hnec : first ≠ c := (of_decide_eq_true (List.mem_filter.1 hc).2).symm
        simpa [List.findIdx_cons, ha, hneb, hnec] using h

/-! ### Repeated items -/

/-- How many occurrences of an item pass before one that tells that it is repeated. -/
def pending (seen : List β) (b : β) : Nat :=
  if b ∈ seen then 0 else 1

theorem mem_repeatedAfter {seen told bs : List β} {b : β} :
    b ∈ repeatedAfter seen told bs ↔ b ∉ told ∧ pending seen b < bs.count b := by
  induction bs generalizing seen told with
  | nil => simp [repeatedAfter]
  | cons a bs ih => grind [repeatedAfter, pending]

/-- The items stand in the order of those occurrences that tell that they are repeated. -/
theorem pairwise_repeatedAfter (f : α → Option β) (seen told : List β) (as : List α) :
    (repeatedAfter seen told (as.filterMap f)).Pairwise fun b c =>
      as.findIdxNth (fun a => f a = some b) (pending seen b) <
        as.findIdxNth (fun a => f a = some c) (pending seen c) := by
  induction as generalizing seen told with
  | nil => exact .nil
  | cons a as ih =>
    cases ha : f a with
    | none =>
      rw [List.filterMap_cons_none ha]
      refine (ih seen told).imp ?_
      intro b c h
      grind
    | some first =>
      rw [List.filterMap_cons_some ha, repeatedAfter]
      split
      · next hseen =>
        refine (ih (first :: seen) told).imp ?_
        intro b c h
        grind [pending]
      · next hseen =>
        split
        · next htold =>
          refine (ih seen told).imp_of_mem ?_
          intro b c hb hc h
          have hneb := (mem_repeatedAfter.1 hb).1
          have hnec := (mem_repeatedAfter.1 hc).1
          grind
        · next htold =>
          rw [List.pairwise_cons]
          constructor
          · intro c hc
            have hnec := (mem_repeatedAfter.1 hc).1
            grind [pending]
          · refine (ih seen (first :: told)).imp_of_mem ?_
            intro b c hb hc h
            have hneb := (mem_repeatedAfter.1 hb).1
            have hnec := (mem_repeatedAfter.1 hc).1
            grind

/-- An item is repeated if it is taken out twice. -/
theorem mem_repeatedItems {f : α → Option β} {as : List α} {b : β} :
    b ∈ repeatedItems (as.filterMap f) ↔ 2 ≤ as.countP fun a => f a = some b := by
  have hcount : (as.filterMap f).count b = as.countP fun a => f a = some b := by
    rw [List.count_filterMap]
    exact List.countP_congr fun a _ => by simp
  rw [repeatedItems, mem_repeatedAfter, pending, if_neg List.not_mem_nil, hcount,
    and_iff_right List.not_mem_nil]
  exact Nat.lt_iff_add_one_le

/-- The items stand in the order in which they occur for the second time. -/
theorem pairwise_repeatedItems (f : α → Option β) (as : List α) :
    (repeatedItems (as.filterMap f)).Pairwise fun b c =>
      as.findIdxNth (fun a => f a = some b) 1 < as.findIdxNth (fun a => f a = some c) 1 :=
  pairwise_repeatedAfter f [] [] as

theorem nodup_repeatedItems (bs : List β) : (repeatedItems bs).Nodup := by
  have hpairwise := pairwise_repeatedItems some bs
  rw [List.filterMap_some] at hpairwise
  refine hpairwise.imp ?_
  rintro b _ hlt rfl
  exact Nat.lt_irrefl _ hlt

/-! ### Groups -/

/-- Items that are grouped by keys, all of theirs among them and each once, are all in the groups,
as often as they are items. -/
theorem flatMap_filter_perm (key : α → β) {keys : List β} {as : List α} (hnodup : keys.Nodup)
    (hcover : ∀ a ∈ as, key a ∈ keys) :
    (keys.flatMap fun k => as.filter fun a => key a = k).Perm as := by
  -- the items of the first key are set aside; the other groups do not change
  induction keys generalizing as with
  | nil =>
    obtain rfl : as = [] := by
      apply List.eq_nil_iff_forall_not_mem.2
      intro a ha
      exact List.not_mem_nil (hcover a ha)
    exact .refl _
  | cons k keys ih =>
    obtain ⟨hk, hnodup⟩ := List.nodup_cons.1 hnodup
    have hothers : (keys.flatMap fun k' => as.filter fun a => key a = k') =
        keys.flatMap fun k' => (as.filter fun a => !decide (key a = k)).filter fun a =>
          key a = k' := by
      apply List.flatMap_congr
      intro k' hk'
      rw [List.filter_filter]
      apply List.filter_congr
      intro a _
      have hne : k' ≠ k := fun h => hk (h ▸ hk')
      by_cases ha : key a = k' <;> simp [ha, hne]
    have hcover' : ∀ a ∈ as.filter (fun a => !decide (key a = k)), key a ∈ keys := by
      intro a ha
      obtain ⟨ha, hne⟩ := List.mem_filter.1 ha
      exact (List.mem_cons.1 (hcover a ha)).resolve_left (by simpa using hne)
    rw [List.flatMap_cons, hothers]
    exact ((ih hnodup hcover').append_left _).trans (List.filter_append_perm _ as)

end ContractAbi
