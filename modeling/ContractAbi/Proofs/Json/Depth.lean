import ContractAbi.Proofs.Json.RoundTrip

/-!
# The depth of what is read

The reader opens no more than `maxDepth` arrays and objects at once, so nothing that it returns is
nested more deeply. The invariant is that every open array or object has room for what it holds,
one level below the place that it takes on the stack itself:

    parse? text = some v → v.depth ≤ maxDepth
-/

namespace ContractAbi.Json

/-! ### Greatest depths -/

theorem depthOfItems_le_iff {items : List Json} {n : Nat} :
    depthOfItems items ≤ n ↔ ∀ item ∈ items, item.depth ≤ n := by
  induction items with
  | nil => simp [depthOfItems]
  | cons item items ih => rw [depthOfItems, Nat.max_le, ih, List.forall_mem_cons]

theorem depthOfMembers_le_iff {members : Members} {n : Nat} :
    depthOfMembers members ≤ n ↔ ∀ member ∈ members, member.2.depth ≤ n := by
  induction members with
  | nil => simp [depthOfMembers]
  | cons member members ih => rw [depthOfMembers, Nat.max_le, ih, List.forall_mem_cons]

theorem Members.mem_insert {name : String} {v : Json} {members : Members}
    {member : String × Json} (h : member ∈ members.insert name v) :
    member = (name, v) ∨ member ∈ members := by
  induction members with
  | nil => exact .inl (List.mem_singleton.1 h)
  | cons other rest ih =>
    rw [insert] at h
    split at h
    · rcases List.mem_cons.1 h with h | h
      · exact .inl h
      · exact .inr (List.mem_cons_of_mem _ h)
    split at h
    · exact List.mem_cons.1 h
    · rcases List.mem_cons.1 h with h | h
      · exact .inr (by simp [h])
      · exact (ih h).imp_right (List.mem_cons_of_mem _)

theorem depthOfMembers_insert (name : String) (v : Json) (members : Members) :
    depthOfMembers (members.insert name v) ≤ max v.depth (depthOfMembers members) := by
  rw [depthOfMembers_le_iff]
  intro member hm
  rcases Members.mem_insert hm with rfl | hm
  · exact Nat.le_max_left _ _
  · exact Nat.le_trans (depthOfMembers_le_iff.1 (Nat.le_refl _) member hm) (Nat.le_max_right _ _)

theorem depthOfItems_reverse (items : List Json) :
    depthOfItems items.reverse = depthOfItems items := by
  apply Nat.le_antisymm
  all_goals
    rw [depthOfItems_le_iff]
    intro item hitem
    exact depthOfItems_le_iff.1 (Nat.le_refl _) item (by simpa using hitem)

/-! ### Tokens -/

/-- Whether a token is not nested, as the tokens of a text are. -/
def Token.IsFlat : Token → Prop
  | .atom value => value.depth = 0
  | _ => True

theorem depth_of_scanUnsigned {negative : Bool} {cs rest : List Char} {v : Json}
    (h : scanUnsigned negative cs = some (v, rest)) : v.depth = 0 := by
  rw [scanUnsigned] at h
  dsimp only at h
  split at h
  · cases h
  split at h
  · cases h
  split at h
  · cases h
  · obtain ⟨n, -, e⟩ := Option.map_eq_some_iff.1 h
    obtain ⟨rfl, -⟩ := Prod.mk.inj e
    rfl

theorem depth_of_scanAtom {cs rest : List Char} {v : Json} (h : scanAtom cs = some (v, rest)) :
    v.depth = 0 := by
  rw [scanAtom.eq_def] at h
  split at h
  · obtain ⟨rfl, -⟩ := Prod.mk.inj (Option.some.inj h)
    rfl
  · obtain ⟨rfl, -⟩ := Prod.mk.inj (Option.some.inj h)
    rfl
  · obtain ⟨rfl, -⟩ := Prod.mk.inj (Option.some.inj h)
    rfl
  · rw [scanNumber.eq_def] at h
    split at h <;> exact depth_of_scanUnsigned h

theorem isFlat_of_scanToken {c : Char} {cs rest : List Char} {t : Token}
    (h : scanToken c cs = some (t, rest)) : t.IsFlat := by
  rw [scanToken] at h
  split at h
  · next mark hmark =>
    obtain ⟨rfl, -⟩ := Prod.mk.inj (Option.some.inj h)
    rw [mark?.eq_def] at hmark
    split at hmark <;> cases hmark <;> trivial
  split at h
  · obtain ⟨part, -, e⟩ := Option.map_eq_some_iff.1 h
    obtain ⟨rfl, -⟩ := Prod.mk.inj e
    trivial
  · obtain ⟨part, hpart, e⟩ := Option.map_eq_some_iff.1 h
    obtain ⟨rfl, -⟩ := Prod.mk.inj e
    exact depth_of_scanAtom hpart

theorem isFlat_of_tokens? {cs : List Char} {ts : List Token} (h : tokens? cs = some ts) :
    ∀ t ∈ ts, t.IsFlat := by
  fun_induction tokens? cs generalizing ts with
  | case1 =>
    obtain rfl := Option.some.inj h
    simp
  | case2 c cs _ ih => exact ih h
  | case3 => cases h
  | case4 c cs _ t rest hscan ih =>
    obtain ⟨us, hus, rfl⟩ := Option.map_eq_some_iff.1 h
    exact List.forall_mem_cons.2 ⟨isFlat_of_scanToken hscan, ih hus⟩

/-! ### The stack -/

/-- The greatest depth of what an open array or object holds so far. -/
def Frame.depth : Frame → Nat
  | .array items => depthOfItems items
  | .object members _ => depthOfMembers members

/-- Whether what the open arrays and objects hold is not nested too deeply for their places on the
stack. -/
def Fits : List Frame → Prop
  | [] => True
  | frame :: stack => stack.length + 1 + frame.depth ≤ maxDepth ∧ Fits stack

theorem length_le_of_fits {stack : List Frame} (h : Fits stack) : stack.length ≤ maxDepth := by
  cases stack with
  | nil => exact Nat.zero_le _
  | cons frame stack =>
    have hroom := h.1
    rw [List.length_cons]
    omega

/-- Reading keeps the invariant of the stack and ends with a value that has room. -/
theorem depth_le_of_read :
    (∀ (stack : List Frame) (ts : List Token), (∀ t ∈ ts, t.IsFlat) → Fits stack →
      ∀ v, readValue stack ts = some v → v.depth ≤ maxDepth) ∧
    ∀ (stack : List Frame) (value : Json) (ts : List Token), (∀ t ∈ ts, t.IsFlat) → Fits stack →
      stack.length + value.depth ≤ maxDepth →
      ∀ v, resume stack value ts = some v → v.depth ≤ maxDepth := by
  apply readValue.mutual_induct
    (motive_1 := fun stack ts => (∀ t ∈ ts, t.IsFlat) → Fits stack →
      ∀ v, readValue stack ts = some v → v.depth ≤ maxDepth)
    (motive_2 := fun stack value ts => (∀ t ∈ ts, t.IsFlat) → Fits stack →
      stack.length + value.depth ≤ maxDepth →
      ∀ v, resume stack value ts = some v → v.depth ≤ maxDepth)
  case _ => -- an atom
    intro stack value rest ih hflat hfits v h
    have hdepth : value.depth = 0 := hflat (.atom value) (by simp)
    refine ih (fun t ht => hflat t (by simp [ht])) hfits ?_ v h
    rw [hdepth]
    exact length_le_of_fits hfits
  case _ => -- a string
    intro stack s rest ih hflat hfits v h
    exact ih (fun t ht => hflat t (by simp [ht])) hfits (length_le_of_fits hfits) v h
  case _ => -- an empty array
    intro stack rest hroom ih hflat hfits v h
    rw [readValue, if_pos hroom] at h
    exact ih (fun t ht => hflat t (by simp [ht])) hfits hroom v h
  case _ => -- an empty array without room
    intro stack rest hroom hflat hfits v h
    rw [readValue, if_neg hroom] at h
    cases h
  case _ => -- the beginning of an array
    intro stack rest hclose hroom ih hflat hfits v h
    rw [readValue_openArray hclose hroom] at h
    exact ih (fun t ht => hflat t (by simp [ht])) ⟨hroom, hfits⟩ v h
  case _ => -- the beginning of an array without room
    intro stack rest hclose hroom hflat hfits v h
    rw [readValue, if_neg hroom] at h
    · cases h
    · exact hclose
  case _ => -- an empty object
    intro stack rest hroom ih hflat hfits v h
    rw [readValue, if_pos hroom] at h
    exact ih (fun t ht => hflat t (by simp [ht])) hfits hroom v h
  case _ => -- an empty object without room
    intro stack rest hroom hflat hfits v h
    rw [readValue, if_neg hroom] at h
    cases h
  case _ => -- the beginning of an object
    intro stack name rest hroom ih hflat hfits v h
    rw [readValue, if_pos hroom] at h
    exact ih (fun t ht => hflat t (by simp [ht])) ⟨hroom, hfits⟩ v h
  case _ => -- the beginning of an object without room
    intro stack name rest hroom hflat hfits v h
    rw [readValue, if_neg hroom] at h
    cases h
  case _ => -- no value
    intro ts stack h1 h2 h3 h4 h5 h6 hflat hfits v h
    rw [readValue] at h
    cases h
    all_goals assumption
  case _ => -- the end of the text
    intro value hflat hfits hdepth v h
    obtain rfl := Option.some.inj h
    simpa using hdepth
  case _ => -- the end of the text, too early
    intro value frame stack hflat hfits hdepth v h
    cases h
  case _ => -- the next member
    intro value name rest members last stack ih hflat hfits hdepth v h
    have hinsert := depthOfMembers_insert last value members
    have hmembers : stack.length + 1 + depthOfMembers members ≤ maxDepth := hfits.1
    rw [List.length_cons] at hdepth
    refine ih (fun t ht => hflat t (by simp [ht])) ⟨?_, hfits.2⟩ v h
    rw [Frame.depth]
    omega
  case _ => -- a member outside an object
    intro stack value name rest hstack hflat hfits hdepth v h
    rw [resume] at h
    cases h
    exact hstack
  case _ => -- the next item
    intro value rest hname items stack ih hflat hfits hdepth v h
    rw [resume_comma_item hname] at h
    have hitems : stack.length + 1 + depthOfItems items ≤ maxDepth := hfits.1
    rw [List.length_cons] at hdepth
    refine ih (fun t ht => hflat t (by simp [ht])) ⟨?_, hfits.2⟩ v h
    rw [Frame.depth, depthOfItems]
    omega
  case _ => -- an item outside an array
    intro stack value rest hname hstack hflat hfits hdepth v h
    rw [resume] at h
    cases h
    · exact hname
    · exact hstack
  case _ => -- the end of an array
    intro value rest items stack ih hflat hfits hdepth v h
    have hitems : stack.length + 1 + depthOfItems items ≤ maxDepth := hfits.1
    rw [List.length_cons] at hdepth
    refine ih (fun t ht => hflat t (by simp [ht])) hfits.2 ?_ v h
    rw [depth, depthOfItems_reverse, depthOfItems]
    omega
  case _ => -- the end of an array that is not open
    intro stack value rest hstack hflat hfits hdepth v h
    rw [resume] at h
    cases h
    exact hstack
  case _ => -- the end of an object
    intro value rest members last stack ih hflat hfits hdepth v h
    have hinsert := depthOfMembers_insert last value members
    have hmembers : stack.length + 1 + depthOfMembers members ≤ maxDepth := hfits.1
    rw [List.length_cons] at hdepth
    refine ih (fun t ht => hflat t (by simp [ht])) hfits.2 ?_ v h
    rw [depth]
    omega
  case _ => -- the end of an object that is not open
    intro stack value rest hstack hflat hfits hdepth v h
    rw [resume] at h
    cases h
    exact hstack
  case _ => -- nothing that may follow a value
    intro ts stack value h1 h2 h3 h4 h5 hflat hfits hdepth v h
    rw [resume] at h
    cases h
    all_goals assumption

/-! ### Main statement -/

/-- What is read is not nested more deeply than the reader allows. -/
theorem depth_le_of_parse? {text : String} {v : Json} (h : parse? text = some v) :
    v.depth ≤ maxDepth := by
  obtain ⟨ts, hts, hread⟩ := Option.bind_eq_some_iff.1 h
  exact depth_le_of_read.1 [] ts (isFlat_of_tokens? hts) trivial v hread

end ContractAbi.Json
