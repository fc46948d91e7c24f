import Mathlib.Data.List.Induction
import ContractAbi.Proofs.Text.Numeral
import ContractAbi.Text.Hex

/-!
# Numerals of a base

`Numeral base cs n` says that the digits `cs` denote `n`. The digits above nine are letters of
either case. Main statements: the readers of decimal and of hexadecimal numerals are this relation.

    Numeral 10 cs n ↔ Decimal.isNumeral cs ∧ Decimal.value cs = n
    Numeral 16 cs n ↔ Hex.value? cs = some n
-/

namespace ContractAbi.Text

/-- A character and the number that it stands for as a digit. -/
def IsDigit (c : Char) (d : Nat) : Prop :=
  "0123456789abcdef".toList[d]? = some c ∨ "0123456789ABCDEF".toList[d]? = some c

instance (c : Char) (d : Nat) : Decidable (IsDigit c d) :=
  inferInstanceAs (Decidable (_ ∨ _))

/-- The numbers that digits denote: each digit at the end multiplies by the base what stands before
it. -/
inductive Numeral (base : Nat) : List Char → Nat → Prop
  | digit {c d} : IsDigit c d → d < base → Numeral base [c] d
  | concat {cs n c d} : Numeral base cs n → IsDigit c d → d < base →
      Numeral base (cs ++ [c]) (base * n + d)

theorem Numeral.lt_pow {base n : Nat} {cs : List Char} (h : Numeral base cs n) :
    n < base ^ cs.length := by
  induction h with
  | @digit c d _ hd => simpa using hd
  | @concat cs n c d _ _ hd ih =>
    rw [List.length_append, List.length_singleton]
    calc base * n + d < base * (n + 1) := by rw [Nat.mul_add_one]; omega
      _ ≤ base * base ^ cs.length := Nat.mul_le_mul_left base ih
      _ = base ^ (cs.length + 1) := (Nat.pow_succ').symm

/-! ### Decimal numerals -/

theorem isDigit_ten_iff {c : Char} {d : Nat} :
    IsDigit c d ∧ d < 10 ↔ c.isDigit = true ∧ Decimal.digitValue c = d := by
  constructor
  · rintro ⟨hc, hd⟩
    -- the two rows of digits are the same below ten
    have hlower : ∀ d < 10, "0123456789abcdef".toList[d]? = some (Decimal.digit d) := by decide
    have hupper : ∀ d < 10, "0123456789ABCDEF".toList[d]? = some (Decimal.digit d) := by decide
    have hdigit : c = Decimal.digit d := by
      rcases hc with hc | hc
      · exact Option.some.inj (hc.symm.trans (hlower d hd))
      · exact Option.some.inj (hc.symm.trans (hupper d hd))
    subst hdigit
    exact ⟨Decimal.isDigit_digit hd, Decimal.digitValue_digit hd⟩
  · rintro ⟨hc, hd⟩
    have hdigit : ∀ d < 10, IsDigit (Decimal.digit d) d := by decide
    subst hd
    have hlt := Decimal.digitValue_lt hc
    have hc' := hdigit (Decimal.digitValue c) hlt
    rw [Decimal.digit_digitValue hc] at hc'
    exact ⟨hc', hlt⟩

theorem isNumeral_concat {cs : List Char} {c : Char} :
    Decimal.isNumeral (cs ++ [c]) = true ↔
      (cs = [] ∨ Decimal.isNumeral cs = true) ∧ c.isDigit = true := by
  cases cs with
  | nil => simp [Decimal.isNumeral]
  | cons d ds => simp [Decimal.isNumeral, and_assoc]

theorem numeral_ten_iff {cs : List Char} {n : Nat} :
    Numeral 10 cs n ↔ Decimal.isNumeral cs = true ∧ Decimal.value cs = n := by
  constructor
  · intro h
    induction h with
    | @digit c d hc hd =>
      obtain ⟨hdigit, rfl⟩ := isDigit_ten_iff.1 ⟨hc, hd⟩
      refine ⟨isNumeral_concat.2 ⟨.inl rfl, hdigit⟩, ?_⟩
      show 10 * 0 + Decimal.digitValue c = Decimal.digitValue c
      omega
    | @concat cs n c d _ hc hd ih =>
      obtain ⟨hdigit, rfl⟩ := isDigit_ten_iff.1 ⟨hc, hd⟩
      refine ⟨isNumeral_concat.2 ⟨.inr ih.1, hdigit⟩, ?_⟩
      rw [Decimal.value_concat, ih.2]
  · rintro ⟨h, hn⟩
    induction cs using List.reverseRecOn generalizing n with
    | nil => cases h
    | append_singleton cs c ih =>
      obtain ⟨hcs, hc⟩ := isNumeral_concat.1 h
      obtain ⟨hc, hd⟩ := isDigit_ten_iff.2 ⟨hc, rfl⟩
      rw [Decimal.value_concat] at hn
      subst hn
      rcases hcs with rfl | hcs
      · show Numeral 10 [c] (10 * 0 + Decimal.digitValue c)
        rw [Nat.mul_zero, Nat.zero_add]
        exact .digit hc hd
      · exact .concat (ih hcs rfl) hc hd

/-! ### Hexadecimal numerals -/

theorem IsDigit.lt {c : Char} {d : Nat} (h : IsDigit c d) : d < 16 := by
  rcases h with h | h
  · exact (List.getElem?_eq_some_iff.1 h).1
  · exact (List.getElem?_eq_some_iff.1 h).1

theorem toNat_lt_of_digitValue? {c : Char} {d : Nat} (h : Hex.digitValue? c = some d) :
    c.toNat < 103 := by
  rw [Hex.digitValue?] at h
  split_ifs at h with h0 ha hA
  · have hle : c.toNat ≤ 57 := UInt32.le_iff_toNat_le.1 h0.2
    omega
  · have hle : c.toNat ≤ 102 := UInt32.le_iff_toNat_le.1 ha.2
    omega
  · have hle : c.toNat ≤ 70 := UInt32.le_iff_toNat_le.1 hA.2
    omega

theorem isDigit_iff {c : Char} {d : Nat} : IsDigit c d ↔ Hex.digitValue? c = some d := by
  constructor
  · intro h
    have hlower : ∀ d < 16, "0123456789abcdef".toList[d]?.bind Hex.digitValue? = some d := by decide
    have hupper : ∀ d < 16, "0123456789ABCDEF".toList[d]?.bind Hex.digitValue? = some d := by decide
    have hd := h.lt
    rcases h with h | h
    · rw [← hlower d hd, h, Option.bind_some]
    · rw [← hupper d hd, h, Option.bind_some]
  · intro h
    have hdigit : ∀ n < 103, ∀ d ∈ Hex.digitValue? (Char.ofNat n), IsDigit (Char.ofNat n) d := by
      decide
    have hlt := toNat_lt_of_digitValue? h
    rw [← Char.ofNat_toNat c] at h ⊢
    exact hdigit c.toNat hlt d h

theorem value?_concat (cs : List Char) (c : Char) :
    Hex.value? (cs ++ [c]) =
      (if cs = [] then some 0 else Hex.value? cs).bind fun n =>
        (Hex.digitValue? c).map (16 * n + ·) := by
  cases cs with
  | nil => rfl
  | cons d ds => simp [Hex.value?]

theorem numeral_sixteen_iff {cs : List Char} {n : Nat} :
    Numeral 16 cs n ↔ Hex.value? cs = some n := by
  constructor
  · intro h
    induction h with
    | @digit c d hc _ =>
      show (Hex.digitValue? c).map (16 * 0 + ·) = some d
      rw [isDigit_iff.1 hc, Option.map_some, Nat.mul_zero, Nat.zero_add]
    | @concat cs n c d hcs hc _ ih =>
      have hne : cs ≠ [] := by
        intro e
        rw [e] at ih
        cases ih
      rw [value?_concat, if_neg hne, ih, Option.bind_some, isDigit_iff.1 hc, Option.map_some]
  · intro h
    induction cs using List.reverseRecOn generalizing n with
    | nil => cases h
    | append_singleton cs c ih =>
      rw [value?_concat] at h
      obtain ⟨m, hm, h⟩ := Option.bind_eq_some_iff.1 h
      obtain ⟨d, hd, rfl⟩ := Option.map_eq_some_iff.1 h
      have hc := isDigit_iff.2 hd
      split at hm
      · next e =>
        obtain rfl := Option.some.inj hm
        subst e
        rw [Nat.mul_zero, Nat.zero_add]
        exact .digit hc hc.lt
      · exact .concat (ih hm) hc hc.lt

end ContractAbi.Text
