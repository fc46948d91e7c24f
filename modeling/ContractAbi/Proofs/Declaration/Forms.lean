import ContractAbi.Proofs.Declaration.Parameter

/-!
# The forms of a parameter

A fragment declares a parameter exactly if its words are a type with a modifier and a name behind
it, each of which may be left out. A modifier is never taken for a name, so the last word of two is
a modifier if it can be one. Three of the modifiers are forgotten, and what is left is displayed as
words of which it can be read again. Main statement: `Parameter.ofFragment_forms`.
-/

namespace ContractAbi

theorem Modifier.ofText?_eq_none_iff {word : String} :
    ofText? word = none ↔ ∀ m : Modifier, word ≠ m.text := by
  rw [Option.eq_none_iff_forall_ne_some]
  refine forall_congr' fun m => not_congr ?_
  rw [ofText?_eq_some_iff, eq_comm]

namespace Parameter

/-- Whether some words are a type with a modifier and a name behind it, if there are any, and the
name is not the word of a modifier. -/
def HaveForm (ws : List String) (type : String) (modifier? : Option Modifier)
    (name? : Option String) : Prop :=
  ws = type :: ((modifier?.map Modifier.text).toList ++ name?.toList) ∧
    ∀ name ∈ name?, ∀ m : Modifier, name ≠ m.text

/-- The parameter with a type, a modifier and a name. A modifier that is not `indexed` leaves no
trace. -/
def ofForm (type : String) (modifier? : Option Modifier) (name? : Option String) : Parameter where
  type := type
  name := name?.getD ""
  indexed := modifier? = some .indexed
  internalType := none
  components := none

theorem declares_iff_haveForm {ws : List String} {p : Parameter} :
    Declares ws p ↔ ∃ type modifier? name?,
      HaveForm ws type modifier? name? ∧ p = ofForm type modifier? name? := by
  constructor
  · intro h
    cases h with
    | @type t => exact ⟨t, none, none, ⟨rfl, by simp⟩, rfl⟩
    | @modifier t m => exact ⟨t, some m, none, ⟨rfl, by simp⟩, by simp [ofForm, modify, plain]⟩
    | @name t n hn =>
      refine ⟨t, none, some n, ⟨rfl, ?_⟩, rfl⟩
      rintro _ ⟨⟩
      exact Modifier.ofText?_eq_none_iff.1 hn
    | @all t n m hn =>
      refine ⟨t, some m, some n, ⟨rfl, ?_⟩, by simp [ofForm, modify, plain]⟩
      rintro _ ⟨⟩
      exact Modifier.ofText?_eq_none_iff.1 hn
  · rintro ⟨t, modifier?, name?, ⟨rfl, hname⟩, rfl⟩
    cases modifier? with
    | none =>
      cases name? with
      | none => exact .type
      | some n => exact .name (Modifier.ofText?_eq_none_iff.2 (hname n rfl))
    | some m =>
      have hindexed : decide (some m = some Modifier.indexed) = decide (m = .indexed) := by simp
      cases name? with
      | none =>
        rw [ofForm, hindexed]
        exact .modifier
      | some n =>
        rw [ofForm, hindexed]
        exact .all (Modifier.ofText?_eq_none_iff.2 (hname n rfl))

/-- What a fragment declares is declared by its display, which has no parenthesis either. -/
theorem ofFragment_display {fragment : String} {p : Parameter} (h : ofFragment fragment = .ok p) :
    ofFragment p.display = .ok p := by
  obtain ⟨hopen, hdeclares⟩ := ofFragment_eq_ok_iff.1 h
  have hword : ∀ w ∈ Text.tokens fragment, Text.IsToken w ∧ '(' ∉ w.toList := fun w hw =>
    have ⟨htoken, hmem⟩ := Text.isToken_of_mem_tokens hw
    ⟨htoken, fun hc => hopen (hmem _ hc)⟩
  obtain ⟨htype, hname⟩ := hdeclares.mem
  refine ofFragment_eq_ok_iff.2 ⟨?_, declares_tokens_display
    (hdeclares.ofWords fun w hw => (hword w hw).1)⟩
  rw [toList_display, List.mem_append, List.mem_append, not_or, not_or]
  refine ⟨⟨(hword _ htype).2, ?_⟩, ?_⟩
  · split <;> decide
  · rcases hname with hname | hname
    · simp [hname]
    · split
      · simp
      · simpa using (hword _ hname).2

/-! ### Main statement -/

/-- A fragment declares a parameter exactly if it has no parenthesis and its words are a type, a
modifier and a name, of which the last two can be left out, and its display declares it again. -/
theorem ofFragment_forms (fragment : String) :
    (∀ p, ofFragment fragment = .ok p ↔ '(' ∉ fragment.toList ∧
      ∃ type modifier? name?, HaveForm (Text.tokens fragment) type modifier? name? ∧
        p = ofForm type modifier? name?) ∧
    ∀ p, ofFragment fragment = .ok p → ofFragment p.display = .ok p := by
  constructor
  · intro p
    rw [ofFragment_eq_ok_iff, declares_iff_haveForm]
  · intro p hp
    exact ofFragment_display hp

/-- A type spelled like a modifier, behind it that modifier, and a name with marks of a list in
it. -/
theorem ofFragment_forms_of_indexed :
    let fragment := " indexed   indexed b,c) "
    let p := ofForm "indexed" (some .indexed) (some "b,c)")
    HaveForm (Text.tokens fragment) "indexed" (some .indexed) (some "b,c)") ∧
      ofFragment fragment = .ok p ∧ p.display = "indexed indexed b,c)" ∧
      ofFragment p.display = .ok p := by
  intro fragment p
  have htokens : Text.tokens fragment = ["indexed", "indexed", "b,c)"] := by
    rw [Text.tokens_eq_words]
    decide
  have hform : HaveForm (Text.tokens fragment) "indexed" (some .indexed) (some "b,c)") := by
    rw [htokens]
    refine ⟨rfl, ?_⟩
    rintro _ ⟨⟩ m
    cases m <;> decide
  have hread : ofFragment fragment = .ok p :=
    ((ofFragment_forms fragment).1 p).2 ⟨by decide, _, _, _, hform, rfl⟩
  exact ⟨hform, hread, by decide, (ofFragment_forms fragment).2 p hread⟩

end Parameter

end ContractAbi
