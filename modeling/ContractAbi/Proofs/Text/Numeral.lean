import Mathlib.Algebra.Group.Nat.Defs
import Mathlib.Data.List.Induction
import Mathlib.Tactic.ByContra
import ContractAbi.Shape.Suffix

/-!
# Numerals are unique

A number has one numeral without leading zeros, the one that `Decimal.digits` writes. So the sizes
and widths that a type may contain are in one-to-one correspondence with numbers:

    positive? cs = some n ↔ (1 ≤ n ∧ n < 2 ^ 64) ∧ cs = digits n
-/

namespace ContractAbi.Decimal

@[simp] theorem toList_text (n : Nat) : (text n).toList = digits n :=
  String.toList_ofList

theorem digits_ne_nil (n : Nat) : digits n ≠ [] := by
  have := isNumeral_digits n
  simp_all [isNumeral]

theorem isDigit_of_mem_digits {n : Nat} {c : Char} (h : c ∈ digits n) : c.isDigit = true := by
  have := isNumeral_digits n
  simp_all [isNumeral]

theorem not_mem_digits {n : Nat} {c : Char} (h : c.isDigit = false) : c ∉ digits n := by
  intro hc
  rw [isDigit_of_mem_digits hc] at h
  cases h

theorem digits_injective {m n : Nat} (h : digits m = digits n) : m = n := by
  rw [← value_digits m, h, value_digits]

theorem digits_of_lt {n : Nat} (h : n < 10) : digits n = [digit n] := by
  rw [digits, if_pos h]

theorem digits_of_le {n : Nat} (h : 10 ≤ n) : digits n = digits (n / 10) ++ [digit (n % 10)] := by
  rw [digits, if_neg (by omega)]

/-! ### Single digits -/

theorem toNat_of_isDigit {c : Char} (h : c.isDigit = true) : 48 ≤ c.toNat ∧ c.toNat ≤ 57 := by
  simpa [Char.isDigit, UInt32.le_iff_toNat_le] using h

theorem digitValue_lt {c : Char} (h : c.isDigit = true) : digitValue c < 10 := by
  have := toNat_of_isDigit h
  rw [digitValue]
  omega

theorem digit_digitValue {c : Char} (h : c.isDigit = true) : digit (digitValue c) = c := by
  have hc : 48 + digitValue c = c.toNat := by
    have := toNat_of_isDigit h
    rw [digitValue]
    omega
  rw [digit, hc, Char.ofNat_toNat]

/-! ### Runs of digits -/

theorem value_concat (cs : List Char) (c : Char) :
    value (cs ++ [c]) = 10 * value cs + digitValue c := by
  simp [value, valueFrom]

theorem head?_digits {n : Nat} (h : 0 < n) : (digits n).head? ≠ some '0' := by
  induction n using Nat.strongRecOn with
  | _ n ih =>
    by_cases hn : n < 10
    · have hd : ∀ n < 10, 0 < n → digit n ≠ '0' := by decide
      simpa [digits_of_lt hn] using hd n hn h
    · have ih := ih (n / 10) (by omega) (by omega)
      rw [digits_of_le (by omega), List.head?_append]
      cases hd : digits (n / 10) with
      | nil => exact absurd hd (digits_ne_nil _)
      | cons d ds => simpa [hd] using ih

/-- Of the numerals that `digits` writes, only `0` denotes zero. -/
theorem value_pos {cs : List Char} (h0 : cs.head? ≠ some '0') (h : digits (value cs) = cs) :
    1 ≤ value cs := by
  by_contra hz
  have hz : value cs = 0 := by omega
  rw [hz, digits_of_lt (by omega)] at h
  exact h0 (by simp [← h, digit])

/-- A numeral without leading zeros is the one that is written for its value. -/
theorem digits_value {cs : List Char} (h : isNumeral cs = true) (h0 : cs.head? ≠ some '0') :
    digits (value cs) = cs := by
  -- the value grows by the last digit, which is also the last that `digits` writes
  induction cs using List.reverseRecOn with
  | nil => simp [isNumeral] at h
  | append_singleton cs c ih =>
    have hc : c.isDigit = true := by simp_all [isNumeral]
    have hlt := digitValue_lt hc
    rw [value_concat]
    cases cs with
    | nil =>
      have hv : 10 * value [] + digitValue c = digitValue c := by simp [value, valueFrom]
      rw [hv, digits_of_lt hlt, digit_digitValue hc, List.nil_append]
    | cons d ds =>
      have h0' : (d :: ds).head? ≠ some '0' := by simpa using h0
      have ih := ih (by simp_all [isNumeral]) h0'
      have hpos := value_pos h0' ih
      have hq : (10 * value (d :: ds) + digitValue c) / 10 = value (d :: ds) := by omega
      have hr : (10 * value (d :: ds) + digitValue c) % 10 = digitValue c := by omega
      rw [digits_of_le (by omega), hq, hr, ih, digit_digitValue hc]

theorem positive?_eq_some_iff {cs : List Char} {n : Nat} :
    positive? cs = some n ↔ (1 ≤ n ∧ n < 2 ^ 64) ∧ cs = digits n := by
  rw [positive?]
  constructor
  · intro h
    split at h
    · next hc =>
      obtain rfl := Option.some.inj h
      have hd := digits_value hc.1 hc.2.1
      exact ⟨⟨value_pos hc.2.1 hd, hc.2.2⟩, hd.symm⟩
    · cases h
  · rintro ⟨⟨h1, h2⟩, rfl⟩
    rw [value_digits, if_pos ⟨isNumeral_digits n, head?_digits h1, h2⟩]

end ContractAbi.Decimal
