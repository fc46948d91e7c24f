import Mathlib.Data.List.Nodup
import ContractAbi.Json.Basic

/-!
# Objects as maps

The members of an object are found by their names, whatever their order. Sorting members whose
names differ only permutes them, so it changes neither their number nor what a name stands for.
-/

namespace ContractAbi.Json.Members

theorem get?_cons (name other : String) (v : Json) (members : Members) :
    get? ((other, v) :: members) name = if name = other then some v else get? members name := by
  rw [get?, List.lookup_cons]
  by_cases h : name = other
  · simp [h]
  · have hb : (name == other) = false := by simpa using h
    simp [h, hb, get?]

/-- If names differ, a name stands for the value of its only member. -/
theorem get?_eq_some_of_mem {name : String} {v : Json} {members : Members}
    (h : (members.map Prod.fst).Nodup) (hm : (name, v) ∈ members) : get? members name = some v := by
  induction members with
  | nil => simp at hm
  | cons member rest ih =>
    rw [List.map_cons, List.nodup_cons] at h
    rw [get?_cons]
    rcases List.mem_cons.1 hm with rfl | hm
    · rw [if_pos rfl]
    · have hne : name ≠ member.1 := by
        rintro rfl
        exact h.1 (List.mem_map.2 ⟨_, hm, rfl⟩)
      rw [if_neg hne, ih h.2 hm]

/-! ### Putting a member in its place -/

theorem insert_perm {name : String} {v : Json} {members : Members}
    (h : name ∉ members.map Prod.fst) : (members.insert name v).Perm ((name, v) :: members) := by
  induction members with
  | nil => exact .refl _
  | cons member rest ih =>
    obtain ⟨key, old⟩ := member
    rw [List.map_cons, List.mem_cons, not_or] at h
    rw [insert, if_neg h.1]
    split
    · exact .refl _
    · exact ((ih h.2).cons _).trans (.swap _ _ _)

/-! ### Sorting -/

/-- Members whose names differ, and differ from those in `before`, are all put in their places. -/
theorem foldl_insert_perm {members before : Members} (h : (members.map Prod.fst).Nodup)
    (hb : ∀ member ∈ members, member.1 ∉ before.map Prod.fst) :
    (members.foldl (fun sorted member => sorted.insert member.1 member.2) before).Perm
      (members ++ before) := by
  -- what was put in its place counts as before from then on, and its name stays apart
  induction members generalizing before with
  | nil => exact .refl _
  | cons member rest ih =>
    rw [List.map_cons, List.nodup_cons] at h
    have hperm := insert_perm (v := member.2) (hb member (by simp))
    have hnames : ∀ m ∈ rest, m.1 ∉ (before.insert member.1 member.2).map Prod.fst := by
      intro m hm hmem
      rw [(hperm.map Prod.fst).mem_iff, List.map_cons, List.mem_cons] at hmem
      rcases hmem with e | hmem
      · exact h.1 (List.mem_map.2 ⟨m, hm, e⟩)
      · exact hb m (by simp [hm]) hmem
    calc (rest.foldl (fun sorted m => sorted.insert m.1 m.2) (before.insert member.1 member.2)).Perm
          (rest ++ before.insert member.1 member.2) := ih h.2 hnames
      _ |>.Perm (rest ++ member :: before) := hperm.append_left rest
      _ |>.Perm (member :: rest ++ before) := List.perm_middle

theorem sorted_perm {members : Members} (h : (members.map Prod.fst).Nodup) :
    members.sorted.Perm members := by
  rw [sorted]
  simpa using @foldl_insert_perm members [] h (by simp)

theorem get?_sorted {name : String} {v : Json} {members : Members}
    (h : (members.map Prod.fst).Nodup) (hm : (name, v) ∈ members) :
    members.sorted.get? name = some v := by
  have hperm := sorted_perm h
  exact get?_eq_some_of_mem ((hperm.map Prod.fst).nodup_iff.2 h) (hperm.mem_iff.2 hm)

end ContractAbi.Json.Members
