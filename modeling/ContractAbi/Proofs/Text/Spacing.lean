import ContractAbi.Proofs.Text.Parens

/-!
# Spaces beside marks

A gap is a run of spaces. Lists in parentheses may be written with gaps inside the parentheses and
around the commas: the relation `Spaced` holds between a text and the same text with such gaps put
in. Its laws take a text with gaps apart where the text without them is put together.
-/

namespace ContractAbi.Text

/-! ### Gaps -/

/-- A gap of `n` spaces. -/
def spaces (n : Nat) : List Char :=
  List.replicate n ' '

theorem spaces_add (m n : Nat) : spaces (m + n) = spaces m ++ spaces n :=
  List.replicate_append_replicate.symm

theorem eq_space_of_mem_spaces {n : Nat} {c : Char} (h : c ∈ spaces n) : c = ' ' :=
  List.eq_of_mem_replicate h

theorem not_mem_spaces {n : Nat} {c : Char} (h : c ≠ ' ') : c ∉ spaces n :=
  fun hc => h (eq_space_of_mem_spaces hc)

theorem isMember_spaces (n : Nat) : IsMember (spaces n) := by
  apply isMember_of_forall
  intro c hc
  rw [eq_space_of_mem_spaces hc]
  decide

theorem trimmed_spaces (n : Nat) : trimmed (spaces n) = [] :=
  stripChars_eq_nil_iff.2 fun _ hc => decide_eq_true (eq_space_of_mem_spaces hc)

/-- The gaps around a text are dropped. -/
theorem trimmed_spaces_append {cs : List Char} (before behind : Nat)
    (hfirst : ∀ c ∈ cs.head?, c ≠ ' ') (hlast : ∀ c ∈ cs.getLast?, c ≠ ' ') :
    trimmed (spaces before ++ cs ++ spaces behind) = cs := by
  have hgap : ∀ n, ∀ c ∈ spaces n, decide (c = ' ') = true := by
    intro n c hc
    exact decide_eq_true (eq_space_of_mem_spaces hc)
  rw [trimmed, stripChars_append_append (hgap before) (hgap behind)]
  exact stripChars_eq_self (by simpa using hfirst) (by simpa using hlast)

/-! ### Gaps beside marks -/

/-- Whether the second text is the first one with gaps behind opening parentheses and commas, and
before commas and closing parentheses. -/
inductive Spaced : List Char → List Char → Prop
  | nil : Spaced [] []
  | cons {c cs text} (before behind : Nat) : before = 0 ∨ c = ',' ∨ c = ')' →
      behind = 0 ∨ c = '(' ∨ c = ',' → Spaced cs text →
      Spaced (c :: cs) (spaces before ++ c :: (spaces behind ++ text))

namespace Spaced

variable {as bs cs text : List Char}

theorem refl (cs : List Char) : Spaced cs cs := by
  induction cs with
  | nil => exact .nil
  | cons c cs ih => exact .cons 0 0 (.inl rfl) (.inl rfl) ih

theorem append {u v : List Char} (ha : Spaced as u) (hb : Spaced bs v) :
    Spaced (as ++ bs) (u ++ v) := by
  induction ha with
  | nil => exact hb
  | cons before behind hbefore hbehind _ ih =>
    rw [List.cons_append, List.append_assoc, List.cons_append, List.append_assoc]
    exact .cons before behind hbefore hbehind ih

/-- The gaps in a text are those in its parts. -/
theorem of_append (h : Spaced (as ++ bs) text) :
    ∃ u v, Spaced as u ∧ Spaced bs v ∧ text = u ++ v := by
  induction as generalizing text with
  | nil => exact ⟨[], text, .nil, h, rfl⟩
  | cons c as ih =>
    cases h with
    | cons before behind hbefore hbehind hrest =>
      obtain ⟨u, v, hu, hv, rfl⟩ := ih hrest
      refine ⟨_, v, .cons before behind hbefore hbehind hu, hv, ?_⟩
      simp

theorem of_open (h : Spaced ('(' :: cs) text) :
    ∃ n u, Spaced cs u ∧ text = '(' :: (spaces n ++ u) := by
  cases h with
  | cons before behind hbefore _ hrest =>
    obtain rfl : before = 0 := by simpa using hbefore
    exact ⟨behind, _, hrest, rfl⟩

theorem of_close (h : Spaced (')' :: cs) text) :
    ∃ n u, Spaced cs u ∧ text = spaces n ++ ')' :: u := by
  cases h with
  | cons before behind _ hbehind hrest =>
    obtain rfl : behind = 0 := by simpa using hbehind
    exact ⟨before, _, hrest, rfl⟩

theorem of_comma (h : Spaced (',' :: cs) text) :
    ∃ m n u, Spaced cs u ∧ text = spaces m ++ ',' :: (spaces n ++ u) := by
  cases h with
  | cons before behind _ _ hrest => exact ⟨before, behind, _, hrest, rfl⟩

/-- Without marks there is no place for a gap. -/
theorem eq_of_forall (h : Spaced cs text) (hno : ∀ c ∈ cs, c ≠ '(' ∧ c ≠ ')' ∧ c ≠ ',') :
    text = cs := by
  induction h with
  | nil => rfl
  | cons before behind hbefore hbehind _ ih =>
    rw [List.forall_mem_cons] at hno
    obtain ⟨⟨hopen, hclose, hcomma⟩, hno⟩ := hno
    obtain rfl : before = 0 := by simpa [hcomma, hclose] using hbefore
    obtain rfl : behind = 0 := by simpa [hopen, hcomma] using hbehind
    rw [ih hno]
    rfl

/-- Gaps bring no other characters in. -/
theorem not_mem (h : Spaced cs text) {c : Char} (hc : c ≠ ' ') (hno : c ∉ cs) : c ∉ text := by
  induction h with
  | nil => exact hno
  | cons before behind _ _ _ ih =>
    rw [List.mem_cons, not_or] at hno
    simp [not_mem_spaces hc, hno.1, ih hno.2]

/-- What is in parentheses keeps its place there, with gaps at its ends. -/
theorem of_group (h : Spaced ('(' :: (cs ++ ')' :: bs)) text) :
    ∃ m n inner rest, Spaced cs inner ∧ Spaced bs rest ∧
      text = '(' :: (spaces m ++ inner ++ spaces n ++ ')' :: rest) := by
  obtain ⟨m, u, hu, rfl⟩ := h.of_open
  obtain ⟨inner, v, hinner, hv, rfl⟩ := hu.of_append
  obtain ⟨n, rest, hrest, rfl⟩ := hv.of_close
  exact ⟨m, n, inner, rest, hinner, hrest, by simp⟩

end Spaced

end ContractAbi.Text
