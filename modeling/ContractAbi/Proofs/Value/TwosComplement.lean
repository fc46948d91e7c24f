import Mathlib.Algebra.Order.Ring.Int
import ContractAbi.Binding

/-!
# Integers in words

An integer is read as a sign and a magnitude. A type of signed integers checks the magnitude against
its limit, which a negative integer may reach, and keeps the word for the integer, in which a
negative one is the complement of its magnitude and one more. Within the range of a type the word
stands for the integer in two's complement. Main statements: `Atom.ofInteger?_signed`,
`Atom.ofInteger?_unsigned`.
-/

namespace ContractAbi

namespace SignedMagnitude

/-- The integer that has the sign and the magnitude. -/
def value (m : SignedMagnitude) : Int :=
  if m.negative then -m.magnitude else m.magnitude

theorem value_natAbs (z : Int) : value ⟨z < 0, z.natAbs⟩ = z := by
  by_cases hz : z < 0
  · simp only [value, hz, decide_true, if_pos]
    omega
  · simp only [value, hz, decide_false, Bool.false_eq_true, if_false]
    omega

theorem toNat_value (m : SignedMagnitude) (h : 0 ≤ m.value) : m.value.toNat = m.magnitude := by
  obtain ⟨negative, magnitude⟩ := m
  cases negative with
  | false => exact Int.toNat_natCast magnitude
  | true =>
    -- the magnitude is zero
    have h : (0 : Int) ≤ -magnitude := h
    show (-(magnitude : Int)).toNat = magnitude
    omega

/-- The word stands for the integer, as far as 256 bits go. -/
theorem toInt_word (m : SignedMagnitude) : m.word.toInt = m.value.bmod (2 ^ 256) := by
  obtain ⟨negative, magnitude⟩ := m
  have hword : (BitVec.ofNat 256 magnitude).toInt = (magnitude : Int).bmod (2 ^ 256) :=
    BitVec.toInt_ofNat magnitude
  cases negative with
  | false => exact hword
  | true =>
    show (~~~BitVec.ofNat 256 magnitude + 1#256).toInt = (-(magnitude : Int)).bmod (2 ^ 256)
    rw [← BitVec.neg_eq_not_add, BitVec.toInt_neg, hword, Int.bmod_neg_bmod]

theorem toInt_word_of_le {m : SignedMagnitude} (hlow : -2 ^ 255 ≤ m.value)
    (hhigh : m.value < 2 ^ 255) : m.word.toInt = m.value := by
  rw [toInt_word]
  apply Int.bmod_eq_of_le_mul_two
  · omega
  · omega

/-- Within a range of any width the word stays in it, if need be for another integer. -/
theorem word_mem_range {bits : Nat} (m : SignedMagnitude)
    (h : -2 ^ (bits - 1) ≤ m.value ∧ m.value < 2 ^ (bits - 1)) :
    -2 ^ (bits - 1) ≤ m.word.toInt ∧ m.word.toInt < 2 ^ (bits - 1) := by
  by_cases hbits : bits - 1 ≤ 255
  · have hpow : (2 : Int) ^ (bits - 1) ≤ 2 ^ 255 := pow_le_pow_right₀ (by decide) hbits
    rwa [toInt_word_of_le (by omega) (by omega)]
  · have hpow : (2 : Int) ^ 255 ≤ 2 ^ (bits - 1) :=
      pow_le_pow_right₀ (by decide) (Nat.le_of_not_le hbits)
    have hlow : -2 ^ 255 ≤ m.word.toInt := m.word.le_toInt
    have hhigh : m.word.toInt < 2 ^ 255 := m.word.toInt_lt
    omega

end SignedMagnitude

theorem bitLength_le_iff {n bits : Nat} : bitLength n ≤ bits ↔ n < 2 ^ bits := by
  rw [bitLength]
  split
  · next h =>
    subst h
    exact iff_of_true (Nat.zero_le bits) (Nat.two_pow_pos bits)
  · next h => exact Nat.log2_lt h

namespace Atom

variable {bits : Nat} {m : SignedMagnitude}

/-- The check against the limit is the one that the integer is in range. -/
theorem ofInteger?_signed_eq : ofInteger? true bits m =
    if -2 ^ (bits - 1) ≤ m.value ∧ m.value < 2 ^ (bits - 1) then some (.int bits m.word.toInt)
    else none := by
  have hlimit : 0 < 2 ^ (bits - 1) := Nat.two_pow_pos (bits - 1)
  have hcast : (2 : Int) ^ (bits - 1) = (2 ^ (bits - 1) : Nat) := by push_cast; rfl
  have hrange : (if m.negative then decide (m.magnitude ≤ 2 ^ (bits - 1))
      else decide (m.magnitude < 2 ^ (bits - 1))) = true ↔
        -2 ^ (bits - 1) ≤ m.value ∧ m.value < 2 ^ (bits - 1) := by
    rw [SignedMagnitude.value, hcast]
    generalize 2 ^ (bits - 1) = limit at hlimit
    cases m.negative with
    | false =>
      show decide (m.magnitude < limit) = true ↔
        -(limit : Int) ≤ m.magnitude ∧ (m.magnitude : Int) < limit
      rw [decide_eq_true_iff]
      omega
    | true =>
      show decide (m.magnitude ≤ limit) = true ↔
        -(limit : Int) ≤ -m.magnitude ∧ (-m.magnitude : Int) < limit
      rw [decide_eq_true_iff]
      omega
  rw [ofInteger?, if_pos rfl, Nat.one_shiftLeft]
  simp only [hrange]

/-- A signed type has the integers in its range. -/
theorem ofInteger?_signed (hbits : bits ≤ 256) : ofInteger? true bits m =
    if -2 ^ (bits - 1) ≤ m.value ∧ m.value < 2 ^ (bits - 1) then some (.int bits m.value)
    else none := by
  have hpow : (2 : Int) ^ (bits - 1) ≤ 2 ^ 255 :=
    pow_le_pow_right₀ (by decide) (Nat.sub_le_sub_right hbits 1)
  rw [ofInteger?_signed_eq]
  split
  · next hrange => rw [SignedMagnitude.toInt_word_of_le (by omega) (by omega)]
  · rfl

/-- An unsigned type has the integers in its range; of the zeros with a minus sign it makes zero. -/
theorem ofInteger?_unsigned : ofInteger? false bits m =
    if 0 ≤ m.value ∧ m.value < 2 ^ bits then some (.uint bits m.value.toNat) else none := by
  have hcast : (2 : Int) ^ bits = (2 ^ bits : Nat) := by push_cast; rfl
  have hrefused : ((m.negative && decide (m.magnitude ≠ 0)) ||
      decide (bits < bitLength m.magnitude)) = true ↔ ¬(0 ≤ m.value ∧ m.value < 2 ^ bits) := by
    have hlength := @bitLength_le_iff m.magnitude bits
    have hpos := Nat.two_pow_pos bits
    rw [SignedMagnitude.value, hcast]
    generalize 2 ^ bits = limit at hlength hpos
    cases m.negative with
    | false =>
      show (false || decide (bits < bitLength m.magnitude)) = true ↔
        ¬((0 : Int) ≤ m.magnitude ∧ (m.magnitude : Int) < limit)
      rw [Bool.false_or, decide_eq_true_iff]
      omega
    | true =>
      show (decide (m.magnitude ≠ 0) || decide (bits < bitLength m.magnitude)) = true ↔
        ¬((0 : Int) ≤ -m.magnitude ∧ (-m.magnitude : Int) < limit)
      rw [Bool.or_eq_true, decide_eq_true_iff, decide_eq_true_iff]
      omega
  rw [ofInteger?, if_neg Bool.false_ne_true]
  simp only [hrefused, ite_not]
  split
  · next hrange => rw [m.toNat_value hrange.1]
  · rfl

end Atom

end ContractAbi
