import ContractAbi.Proofs.Shape.WellFormed
import ContractAbi.Proofs.Text.Digits
import ContractAbi.Proofs.Value.TwosComplement

/-!
# Integers bind exactly

`v.DenotesInteger z` says which integer a JSON value stands for, whatever the type, and
`HasInteger signed bits z` which integers a type has. A type of integers binds the values that
denote an integer it has, and binds them to that integer:

    bind v = .ok a ↔ ∃ z, v.DenotesInteger z ∧ HasInteger signed bits z ∧
      a = .atom (.ofInteger signed bits z)
-/

namespace ContractAbi

/-- The number of a numeral without sign. There are at most 64 digits behind `0x`; of decimal digits
there may be any number. -/
inductive Magnitude : List Char → Nat → Prop
  | decimal {cs n} : Text.Numeral 10 cs n → Magnitude cs n
  | hexadecimal {cs n} : Text.Numeral 16 cs n → cs.length ≤ 64 → Magnitude ('0' :: 'x' :: cs) n

/-- The integer that a JSON value stands for. -/
inductive Json.DenotesInteger : Json → Int → Prop
  /-- A number without fraction that 64 bits hold. -/
  | number {z} : DenotesInteger (.number (.integer z)) z
  | numeral {cs n} : Magnitude cs n → DenotesInteger (.string (String.ofList cs)) n
  /-- A minus sign in front of a zero changes nothing. -/
  | negative {cs n} : Magnitude cs n → DenotesInteger (.string (String.ofList ('-' :: cs))) (-n)

/-- Whether a type of this sign and width has the integer. -/
def Elementary.HasInteger (signed : Bool) (bits : Nat) (z : Int) : Prop :=
  if signed then -2 ^ (bits - 1) ≤ z ∧ z < 2 ^ (bits - 1) else 0 ≤ z ∧ z < 2 ^ bits

/-- The integer as an atom of the type. -/
def Atom.ofInteger (signed : Bool) (bits : Nat) (z : Int) : Atom :=
  if signed then .int bits z else .uint bits z.toNat

/-! ### Numerals are read as they denote -/

theorem magnitude_mark_iff {digits : List Char} {n : Nat} :
    Magnitude ('0' :: 'x' :: digits) n ↔ digits.length ≤ 64 ∧ Text.Numeral 16 digits n := by
  constructor
  · intro h
    cases h with
    | decimal h =>
      -- an `x` is no decimal digit
      have hx := (Text.numeral_ten_iff.1 h).1
      simp [Decimal.isNumeral] at hx
    | hexadecimal h hlen => exact ⟨hlen, h⟩
  · rintro ⟨hlen, h⟩
    exact .hexadecimal h hlen

theorem magnitude_iff_of_ne {cs : List Char} {n : Nat}
    (hmark : ∀ digits, cs ≠ '0' :: 'x' :: digits) : Magnitude cs n ↔ Text.Numeral 10 cs n := by
  constructor
  · intro h
    cases h with
    | decimal h => exact h
    | hexadecimal _ _ => exact absurd rfl (hmark _)
  · exact .decimal

/-- Of the numbers that numerals denote, those of 256 bits are read. -/
theorem magnitude?_eq_some_iff {cs : List Char} {n : Nat} :
    magnitude? cs = some n ↔ Magnitude cs n ∧ n < 2 ^ 256 := by
  unfold magnitude?
  split
  · next digits =>
    rw [magnitude_mark_iff, Option.ite_none_right_eq_some, ← Text.numeral_sixteen_iff]
    refine ⟨fun h => ⟨h, ?_⟩, And.left⟩
    calc n < 16 ^ digits.length := h.2.lt_pow
      _ ≤ 16 ^ 64 := Nat.pow_le_pow_right (by decide) h.1
      _ = 2 ^ 256 := by decide
  · next hmark =>
    rw [magnitude_iff_of_ne hmark, Text.numeral_ten_iff, Nat.one_shiftLeft,
      Option.ite_none_right_eq_some, Option.some_inj]
    constructor
    · rintro ⟨⟨hnumeral, hlt⟩, rfl⟩
      exact ⟨⟨hnumeral, rfl⟩, hlt⟩
    · rintro ⟨⟨hnumeral, rfl⟩, hlt⟩
      exact ⟨⟨hnumeral, hlt⟩, rfl⟩

theorem magnitude_digits (n : Nat) : Magnitude (Decimal.digits n) n :=
  .decimal (Text.numeral_ten_iff.2 ⟨Decimal.isNumeral_digits n, Decimal.value_digits n⟩)

theorem magnitude?_minus (cs : List Char) : magnitude? ('-' :: cs) = none := by
  simp [magnitude?, Decimal.isNumeral]

namespace Json

theorem denotesInteger_of_integerOrText? {v : Json} {m : SignedMagnitude}
    (h : v.integerOrText? = some m) : v.DenotesInteger m.value := by
  cases v with
  | string s =>
    rw [← String.ofList_toList (s := s)]
    change integerOfText? s = some m at h
    rw [integerOfText?] at h
    split at h
    · next rest hs =>
      obtain ⟨n, hn, rfl⟩ := Option.map_eq_some_iff.1 h
      rw [hs]
      exact .negative (magnitude?_eq_some_iff.1 hn).1
    · obtain ⟨n, hn, rfl⟩ := Option.map_eq_some_iff.1 h
      exact .numeral (magnitude?_eq_some_iff.1 hn).1
  | number x =>
    obtain ⟨z, hz, rfl⟩ := Option.map_eq_some_iff.1 h
    rw [SignedMagnitude.value_natAbs]
    cases x with
    | integer y =>
      obtain rfl := Option.some.inj hz
      exact .number
    | real _ _ => cases hz
  | _ => cases h

theorem integerOrText?_of_denotesInteger {v : Json} {z : Int} (h : v.DenotesInteger z)
    (hz : z.natAbs < 2 ^ 256) : ∃ m, v.integerOrText? = some m ∧ m.value = z := by
  cases h with
  | number => exact ⟨_, rfl, SignedMagnitude.value_natAbs z⟩
  | @numeral cs n h =>
    have hn : magnitude? cs = some n := magnitude?_eq_some_iff.2 ⟨h, by simpa using hz⟩
    refine ⟨⟨false, n⟩, ?_, rfl⟩
    show integerOfText? (String.ofList cs) = some ⟨false, n⟩
    rw [integerOfText?, String.toList_ofList]
    split
    · next rest =>
      rw [magnitude?_minus] at hn
      cases hn
    · rw [hn, Option.map_some]
  | @negative cs n h =>
    have hn : magnitude? cs = some n := magnitude?_eq_some_iff.2 ⟨h, by simpa using hz⟩
    refine ⟨⟨true, n⟩, ?_, rfl⟩
    show integerOfText? (String.ofList ('-' :: cs)) = some ⟨true, n⟩
    rw [integerOfText?, String.toList_ofList]
    show (magnitude? cs).map (fun n => SignedMagnitude.mk true n) = some ⟨true, n⟩
    rw [hn, Option.map_some]

end Json

/-! ### Types keep the integers that they have -/

theorem Atom.ofInteger?_eq_some_iff {signed : Bool} {bits : Nat} {m : SignedMagnitude} {a : Atom}
    (hbits : bits ≤ 256) : ofInteger? signed bits m = some a ↔
      Elementary.HasInteger signed bits m.value ∧ a = ofInteger signed bits m.value := by
  cases signed with
  | true =>
    show _ ↔ (-2 ^ (bits - 1) ≤ m.value ∧ m.value < 2 ^ (bits - 1)) ∧ a = .int bits m.value
    rw [ofInteger?_signed hbits, Option.ite_none_right_eq_some, Option.some_inj]
    exact and_congr_right fun _ => eq_comm
  | false =>
    show _ ↔ (0 ≤ m.value ∧ m.value < 2 ^ bits) ∧ a = .uint bits m.value.toNat
    rw [ofInteger?_unsigned, Option.ite_none_right_eq_some, Option.some_inj]
    exact and_congr_right fun _ => eq_comm

/-- No type has an integer that is too long to be read. -/
theorem Elementary.HasInteger.natAbs_lt {signed : Bool} {bits : Nat} {z : Int}
    (h : HasInteger signed bits z) (hbits : bits ≤ 256) : z.natAbs < 2 ^ 256 := by
  cases signed with
  | true =>
    have h : -2 ^ (bits - 1) ≤ z ∧ z < 2 ^ (bits - 1) := h
    have hpow : (2 : Int) ^ (bits - 1) ≤ 2 ^ 255 :=
      pow_le_pow_right₀ (by decide) (Nat.sub_le_sub_right hbits 1)
    omega
  | false =>
    have h : 0 ≤ z ∧ z < 2 ^ bits := h
    have hpow : (2 : Int) ^ bits ≤ 2 ^ 256 := pow_le_pow_right₀ (by decide) hbits
    omega

theorem Elementary.bind?_integer_iff {signed : Bool} {bits : Nat} {v : Json} {a : Atom}
    (hbits : bits ≤ 256) : (integer signed bits).bind? v = some a ↔
      ∃ z, v.DenotesInteger z ∧ HasInteger signed bits z ∧ a = .ofInteger signed bits z := by
  show v.integerOrText?.bind (Atom.ofInteger? signed bits) = some a ↔ _
  rw [Option.bind_eq_some_iff]
  constructor
  · rintro ⟨m, hm, ha⟩
    exact ⟨m.value, Json.denotesInteger_of_integerOrText? hm,
      (Atom.ofInteger?_eq_some_iff hbits).1 ha⟩
  · rintro ⟨z, hz, hhas, ha⟩
    obtain ⟨m, hm, rfl⟩ := Json.integerOrText?_of_denotesInteger hz (hhas.natAbs_lt hbits)
    exact ⟨m, hm, (Atom.ofInteger?_eq_some_iff hbits).2 ⟨hhas, ha⟩⟩

theorem Shape.bind_elementary_eq_ok_iff {kind : Elementary} {v : Json} {a : Value} :
    (elementary kind).bind v = .ok a ↔ ∃ b, kind.bind? v = some b ∧ a = .atom b := by
  rw [bind]
  constructor
  · intro h
    split at h
    · next b hb => exact ⟨b, hb, (Except.pure_eq_ok_iff.1 h).symm⟩
    · exact absurd h Except.throw_ne_ok
  · rintro ⟨b, hb, rfl⟩
    rw [hb]
    rfl

/-! ### Main statement -/

/-- A type of integers binds a value exactly if it denotes an integer that the type has, and to this
integer at the width of the type. -/
theorem Parameter.bind_integer_iff {p : Parameter} {signed : Bool} {bits : Nat}
    (h : p.shape = .ok (.elementary (.integer signed bits))) (v : Json) (a : Value) :
    (Shape.elementary (.integer signed bits)).bind v = .ok a ↔
      ∃ z, v.DenotesInteger z ∧ Elementary.HasInteger signed bits z ∧
        a = .atom (.ofInteger signed bits z) := by
  have hbits : bits ≤ 256 := (wellFormed_of_shape h).2.1
  rw [Shape.bind_elementary_eq_ok_iff]
  constructor
  · rintro ⟨b, hb, rfl⟩
    obtain ⟨z, hz, hhas, rfl⟩ := (Elementary.bind?_integer_iff hbits).1 hb
    exact ⟨z, hz, hhas, rfl⟩
  · rintro ⟨z, hz, hhas, rfl⟩
    exact ⟨_, (Elementary.bind?_integer_iff hbits).2 ⟨z, hz, hhas, rfl⟩, rfl⟩

/-- The least integer of eight bits, as a hexadecimal numeral behind a minus sign. -/
theorem Parameter.bind_integer_iff_of_least :
    (Parameter.plain "int8" "").shape = .ok (.elementary (.integer true 8)) ∧
      (Shape.elementary (.integer true 8)).bind (.string "-0x80") =
        .ok (.atom (.int 8 (-128))) := by
  have h : (Parameter.plain "int8" "").shape = .ok (.elementary (.integer true 8)) := by
    with_unfolding_all rfl
  have hnumeral : Text.Numeral 16 ['8', '0'] 128 :=
    .concat (.digit (c := '8') (d := 8) (by decide) (by decide)) (d := 0) (by decide) (by decide)
  have hdenotes : Json.DenotesInteger (.string "-0x80") (-128) :=
    .negative (.hexadecimal hnumeral (by decide))
  refine ⟨h, (Parameter.bind_integer_iff h _ _).2 ⟨-128, hdenotes, ?_, rfl⟩⟩
  show (-2 ^ (8 - 1) : Int) ≤ -128 ∧ (-128 : Int) < 2 ^ (8 - 1)
  decide

end ContractAbi
