import ContractAbi.Proofs.Text.Parens

/-!
# Marks

Where a group is closed and which commas separate the members of a list depends on the parentheses
and commas of a text alone, its marks: what stands between them can be changed. The text inside a
group that is closed is balanced, and the pieces of a balanced text are members.
-/

namespace ContractAbi.Text

/-- Whether a character is a parenthesis or a comma. -/
def isMark (c : Char) : Bool :=
  c = '(' || c = ')' || c = ','

/-- The parentheses and commas of a text. -/
def marks (cs : List Char) : List Char :=
  cs.filter isMark

theorem marks_append (as bs : List Char) : marks (as ++ bs) = marks as ++ marks bs :=
  List.filter_append as bs

theorem marks_cons_of_isMark {c : Char} (h : isMark c = true) (cs : List Char) :
    marks (c :: cs) = c :: marks cs :=
  List.filter_cons_of_pos h

theorem marks_group (inner cs : List Char) :
    marks ('(' :: (inner ++ ')' :: cs)) = '(' :: (marks inner ++ ')' :: marks cs) := by
  rw [marks_cons_of_isMark rfl, marks_append, marks_cons_of_isMark rfl]

theorem isMark_eq_false_iff {c : Char} : isMark c = false ↔ c ≠ '(' ∧ c ≠ ')' ∧ c ≠ ',' := by
  simp [isMark, and_assoc]

theorem marks_eq_nil_iff {cs : List Char} :
    marks cs = [] ↔ ∀ c ∈ cs, c ≠ '(' ∧ c ≠ ')' ∧ c ≠ ',' := by
  simp only [marks, List.filter_eq_nil_iff, Bool.not_eq_true, isMark_eq_false_iff]

theorem marks_trimmed (cs : List Char) : marks (trimmed cs) = marks cs := by
  obtain ⟨l, r, h, hl, hr⟩ := exists_append_stripChars (· = ' ') cs
  have hnone : ∀ gap : List Char, (∀ c ∈ gap, decide (c = ' ') = true) → marks gap = [] := by
    intro gap hgap
    apply marks_eq_nil_iff.2
    intro c hc
    rw [of_decide_eq_true (hgap c hc)]
    decide
  have hmarks := congrArg marks h
  rw [marks_append, marks_append, hnone l hl, hnone r hr, List.nil_append,
    List.append_nil] at hmarks
  exact hmarks.symm

/-- The first mark stands behind a text without marks. -/
theorem exists_of_marks_cons {cs ms : List Char} {c : Char} (h : marks cs = c :: ms) :
    ∃ gap bs, cs = gap ++ c :: bs ∧ (∀ d ∈ gap, d ≠ '(' ∧ d ≠ ')' ∧ d ≠ ',') ∧ marks bs = ms := by
  obtain ⟨gap, bs, rfl, hgap, -, hbs⟩ := List.filter_eq_cons_iff.1 h
  exact ⟨gap, bs, rfl, marks_eq_nil_iff.1 (List.filter_eq_nil_iff.2 hgap), hbs⟩

/-- A mark is found in every text with the same marks, between the same marks. -/
theorem exists_of_marks_append {cs ms ns : List Char} {c : Char} (h : marks cs = ms ++ c :: ns) :
    ∃ as bs, cs = as ++ c :: bs ∧ marks as = ms ∧ marks bs = ns := by
  obtain ⟨l, r, rfl, hl, hr⟩ := List.filter_eq_append_iff.1 h
  obtain ⟨gap, bs, rfl, hgap, hbs⟩ := exists_of_marks_cons hr
  refine ⟨l ++ gap, bs, by simp, ?_, hbs⟩
  rw [marks_append, marks_eq_nil_iff.2 hgap, List.append_nil]
  exact hl

/-! ### Matching depends on the marks -/

theorem Balanced.of_marks {cs ds : List Char} (h : Balanced cs) (hmarks : marks ds = marks cs) :
    Balanced ds := by
  induction h generalizing ds with
  | nil => exact (isMember_of_forall (marks_eq_nil_iff.1 hmarks)).balanced
  | @char c cs ho hc _ ih =>
    by_cases hcomma : c = ','
    · subst hcomma
      obtain ⟨gap, rest, rfl, hgap, hrest⟩ :=
        exists_of_marks_cons (hmarks.trans (marks_cons_of_isMark rfl cs))
      exact (isMember_of_forall hgap).balanced.append (.char ho hc (ih hrest))
    · apply ih
      rw [hmarks, marks, List.filter_cons_of_neg, marks]
      rw [isMark_eq_false_iff.2 ⟨ho, hc, hcomma⟩]
      decide
  | @group inner cs _ _ ihi ih =>
    obtain ⟨gap, rest, rfl, hgap, hrest⟩ :=
      exists_of_marks_cons (hmarks.trans (marks_group inner cs))
    obtain ⟨inner', rest', rfl, hinner, hbehind⟩ := exists_of_marks_append hrest
    exact (isMember_of_forall hgap).balanced.append (.group (ihi hinner) (ih hbehind))

theorem IsMember.of_marks {cs ds : List Char} (h : IsMember cs) (hmarks : marks ds = marks cs) :
    IsMember ds := by
  induction h generalizing ds with
  | nil => exact isMember_of_forall (marks_eq_nil_iff.1 hmarks)
  | @char c cs ho hc hs _ ih =>
    apply ih
    rw [hmarks, marks, List.filter_cons_of_neg, marks]
    rw [isMark_eq_false_iff.2 ⟨ho, hc, hs⟩]
    decide
  | @group inner cs hi _ ih =>
    obtain ⟨gap, rest, rfl, hgap, hrest⟩ :=
      exists_of_marks_cons (hmarks.trans (marks_group inner cs))
    obtain ⟨inner', rest', rfl, hinner, hbehind⟩ := exists_of_marks_append hrest
    exact (isMember_of_forall hgap).append (.group (hi.of_marks hinner) (ih hbehind))

/-! ### What is closed is balanced -/

/-- Whether a text closes the innermost of `depth` groups that are open before it, one after the
other, with balanced texts before, between and behind their closing parentheses. -/
def Closes : (depth : Nat) → List Char → Prop
  | 0, cs => Balanced cs
  | depth + 1, cs => ∃ inner rest, cs = inner ++ ')' :: rest ∧ Balanced inner ∧ Closes depth rest

theorem Closes.append {depth : Nat} {as bs : List Char} (ha : Balanced as) (hb : Closes depth bs) :
    Closes depth (as ++ bs) := by
  cases depth with
  | zero => exact Balanced.append ha hb
  | succ depth =>
    obtain ⟨inner, rest, rfl, hinner, hrest⟩ := hb
    exact ⟨as ++ inner, rest, by simp, ha.append hinner, hrest⟩

/-- What stands before the parenthesis that closes the outermost of some groups closes the
others. -/
theorem closes_of_closeChars {depth : Nat} {cs l r : List Char}
    (h : closeChars depth cs = some (l, r)) : Closes depth l := by
  fun_induction closeChars depth cs generalizing l with
  | case1 => cases h
  | case2 depth cs ih =>
    obtain ⟨l', h', rfl⟩ := map_consLeft_eq_some_iff.1 h
    -- the group that is opened here is the first to be closed
    obtain ⟨inner, rest, rfl, hinner, hrest⟩ := ih h'
    simpa using hrest.append (.group hinner .nil)
  | case3 =>
    cases h
    exact Balanced.nil
  | case4 depth cs ih =>
    obtain ⟨l', h', rfl⟩ := map_consLeft_eq_some_iff.1 h
    exact ⟨[], l', rfl, .nil, ih h'⟩
  | case5 depth c cs ho hzero hsucc ih =>
    obtain ⟨l', h', rfl⟩ := map_consLeft_eq_some_iff.1 h
    have hc : c ≠ ')' := by
      cases depth with
      | zero => exact hzero rfl
      | succ depth => exact hsucc depth rfl
    exact (ih h').append (.char ho hc .nil)

/-- The text inside a group is balanced. -/
theorem balanced_of_closeChars {cs l r : List Char} (h : closeChars 0 cs = some (l, r)) :
    Balanced l :=
  closes_of_closeChars h

/-- Behind the group that a member begins with there is a member. -/
theorem IsMember.of_closeChars {inner l r : List Char} (h : IsMember ('(' :: inner))
    (hclose : closeChars 0 inner = some (l, r)) : IsMember r := by
  generalize hcs : '(' :: inner = cs at h
  cases h with
  | nil => cases hcs
  | char ho =>
    obtain ⟨rfl, -⟩ := List.cons.inj hcs
    exact absurd rfl ho
  | group hi hrest =>
    obtain ⟨-, rfl⟩ := List.cons.inj hcs
    rw [closeChars_group hi] at hclose
    cases hclose
    exact hrest

/-- A group that stays open does so whatever stands between the marks. -/
theorem closeChars_eq_none_of_marks {cs ds : List Char} (hmarks : marks ds = marks cs)
    (h : closeChars 0 cs = none) : closeChars 0 ds = none := by
  rw [Option.eq_none_iff_forall_not_mem]
  rintro ⟨l, r⟩ hclose
  have hds := append_of_closeChars hclose
  subst hds
  rw [marks_append, marks_cons_of_isMark rfl] at hmarks
  obtain ⟨l', r', rfl, hl, -⟩ := exists_of_marks_append hmarks.symm
  rw [closeChars_group ((balanced_of_closeChars hclose).of_marks hl)] at h
  cases h

/-! ### Pieces of a balanced text -/

theorem topLevelPieces_ne_nil (depth : Nat) (cs : List Char) : topLevelPieces depth cs ≠ [] := by
  fun_cases topLevelPieces depth cs with
  | case1 => exact List.cons_ne_nil _ _
  | case2 => exact consFirst_ne_nil _ _
  | case3 => exact consFirst_ne_nil _ _
  | case4 => exact List.cons_ne_nil _ _
  | case5 => exact consFirst_ne_nil _ _

/-- Joining the pieces gives the list back. -/
theorem intercalate_topLevelPieces (depth : Nat) (cs : List Char) :
    List.intercalate [','] (topLevelPieces depth cs) = cs := by
  fun_induction topLevelPieces depth cs with
  | case1 => simp
  | case2 depth cs ih => rw [intercalate_consFirst _ (topLevelPieces_ne_nil _ cs), ih]
  | case3 depth cs _ ih => rw [intercalate_consFirst _ (topLevelPieces_ne_nil _ cs), ih]
  | case4 depth c cs _ _ hsep ih =>
    obtain ⟨p, ps, hps⟩ := List.exists_cons_of_ne_nil (topLevelPieces_ne_nil 0 cs)
    rw [hps, List.intercalate_cons_cons, ← hps, ih, hsep.1]
    rfl
  | case5 depth c cs _ _ _ ih => rw [intercalate_consFirst _ (topLevelPieces_ne_nil _ cs), ih]

theorem isMember_of_mem_topLevelPieces {cs : List Char} (h : Balanced cs) :
    ∀ p ∈ topLevelPieces 0 cs, IsMember p := by
  induction h with
  | nil =>
    rw [topLevelPieces, List.forall_mem_singleton]
    exact .nil
  | @char c cs ho hc _ ih =>
    by_cases hcomma : c = ','
    · subst hcomma
      rw [topLevelPieces, if_neg ho, if_neg hc, if_pos ⟨rfl, rfl⟩, List.forall_mem_cons]
      exact ⟨.nil, ih⟩
    · obtain ⟨p, ps, hps⟩ := List.exists_cons_of_ne_nil (topLevelPieces_ne_nil 0 cs)
      rw [hps, List.forall_mem_cons] at ih
      rw [topLevelPieces_char ho hc (.inl hcomma), hps, consFirst, List.forall_mem_cons]
      exact ⟨.char ho hc hcomma ih.1, ih.2⟩
  | @group inner cs hi _ _ ih =>
    have hgroup := topLevelPieces_of_isMember (IsMember.group hi .nil) 0 cs
    obtain ⟨p, ps, hps⟩ := List.exists_cons_of_ne_nil (topLevelPieces_ne_nil 0 cs)
    rw [hps, List.forall_mem_cons] at ih
    rw [group_append, List.nil_append, hps, appendFirst_cons, group_append,
      List.nil_append] at hgroup
    rw [hgroup, List.forall_mem_cons]
    exact ⟨.group hi ih.1, ih.2⟩

theorem isMember_of_mem_topLevel {cs : List Char} (h : Balanced cs) :
    ∀ p ∈ topLevel cs, IsMember p := by
  rw [topLevel]
  split
  · exact List.forall_mem_nil _
  · exact isMember_of_mem_topLevelPieces h

/-- Members that are replaced by others are found where they were, if none that says something is
replaced by spaces. -/
theorem topLevel_intercalate_map {f : List Char → List Char} {cs : List Char}
    (hmember : ∀ p ∈ topLevel cs, IsMember (f p))
    (hblank : ∀ p ∈ topLevel cs, trimmed p ≠ [] → trimmed (f p) ≠ []) :
    topLevel (List.intercalate [','] ((topLevel cs).map f)) = (topLevel cs).map f := by
  by_cases hcs : trimmed cs = []
  · have hnone : topLevel cs = [] := if_pos hcs
    rw [hnone]
    rfl
  · have hpieces : topLevel cs = topLevelPieces 0 cs := if_neg hcs
    obtain ⟨p, ps, hps⟩ := List.exists_cons_of_ne_nil (topLevelPieces_ne_nil 0 cs)
    rw [hpieces, hps] at hmember hblank ⊢
    have hsome : trimmed (List.intercalate [','] ((p :: ps).map f)) ≠ [] := by
      cases ps with
      | nil =>
        -- the list is its only member
        have hp : p = cs := by simpa [hps] using intercalate_topLevelPieces 0 cs
        rw [List.map_singleton, List.intercalate_singleton]
        exact hblank p List.mem_cons_self (hp ▸ hcs)
      | cons q ps =>
        refine trimmed_ne_nil (c := ',') ?_ (by decide)
        rw [List.map_cons, List.map_cons, List.intercalate_cons_cons]
        simp
    rw [topLevel, if_neg hsome, List.map_cons]
    apply topLevelPieces_intercalate
    rw [← List.map_cons, List.forall_mem_map]
    exact hmember

end ContractAbi.Text
