/-!
# Decimal numerals

Numerals in base ten: `text` writes a natural number without leading zeros, and any non-empty run of
digits denotes a number, its `value`. Main statements: the digits that are written are a numeral,
`isNumeral_digits`, and denote the number they were written for, `value_digits`.
-/

namespace ContractAbi.Decimal

/-- The character of a digit below ten. -/
def digit (n : Nat) : Char :=
  Char.ofNat (48 + n)

/-- The number a digit stands for. -/
def digitValue (c : Char) : Nat :=
  c.toNat - 48

/-- The digits of `n`, most significant first, without leading zeros; `0` has the digit `0`. -/
def digits (n : Nat) : List Char :=
  if n < 10 then [digit n] else digits (n / 10) ++ [digit (n % 10)]

/-- The number that the digits `cs` denote after a beginning that denotes `start`. -/
def valueFrom (start : Nat) (cs : List Char) : Nat :=
  cs.foldl (fun n c => 10 * n + digitValue c) start

/-- The number that the digits `cs` denote. Leading zeros change nothing. -/
def value (cs : List Char) : Nat :=
  valueFrom 0 cs

/-- Whether `cs` is a numeral: at least one character, and nothing but ASCII digits. -/
def isNumeral (cs : List Char) : Bool :=
  !cs.isEmpty && cs.all Char.isDigit

/-- The numeral of `n`. -/
def text (n : Nat) : String :=
  String.ofList (digits n)

/-- The numeral of `z`, behind a minus sign if `z` is negative. -/
def signedText (z : Int) : String :=
  if z < 0 then "-" ++ text z.natAbs else text z.natAbs

/-! ### What the written digits denote -/

theorem digitValue_digit {n : Nat} (h : n < 10) : digitValue (digit n) = n := by
  have : ∀ n < 10, digitValue (digit n) = n := by decide
  exact this n h

theorem isDigit_digit {n : Nat} (h : n < 10) : (digit n).isDigit = true := by
  have : ∀ n < 10, (digit n).isDigit = true := by decide
  exact this n h

theorem isNumeral_digits (n : Nat) : isNumeral (digits n) = true := by
  induction n using Nat.strongRecOn with
  | _ n ih =>
    rw [digits]
    split
    · next h => simp [isNumeral, isDigit_digit h]
    · next h =>
      have := ih (n / 10) (by omega)
      have h10 : n % 10 < 10 := Nat.mod_lt _ (by omega)
      simp_all [isNumeral, isDigit_digit h10]

theorem value_digits (n : Nat) : value (digits n) = n := by
  induction n using Nat.strongRecOn with
  | _ n ih =>
    rw [digits]
    split
    · next h => simp [value, valueFrom, digitValue_digit h]
    · next h =>
      have hq := ih (n / 10) (by omega)
      simp only [value, valueFrom, List.foldl_append, List.foldl_cons, List.foldl_nil] at hq ⊢
      rw [hq, digitValue_digit (Nat.mod_lt _ (by omega))]
      omega

end ContractAbi.Decimal
