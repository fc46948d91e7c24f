import ContractAbi.Json.Binary64
import ContractAbi.Text.Decimal

/-!
# Numbers of JSON texts

A number is an integer of at most 64 bits, with or without sign, or else a binary64 number. It is
written with the fewest digits that read back.
-/

namespace ContractAbi.Json

/-- A number of a JSON text. -/
inductive Number
  /-- An integer from `-2 ^ 63` up to but not including `2 ^ 64`. -/
  | integer (value : Int)
  /-- Any other number, and the zero with a minus sign. -/
  | real (negative : Bool) (magnitude : Binary64)
  deriving DecidableEq, Repr, Inhabited

namespace Number

/-! ### Reading -/

/-- The parts of a numeral as it is written. A part that is absent has no digits. -/
structure Numeral where
  negative : Bool
  whole : List Char
  fraction : List Char
  exponentNegative : Bool
  exponent : List Char

/-- Append digits to `start` as long as the number stays below `2 ^ 64`; the digits from the
first that does not fit are returned. -/
def accumulate (start : Nat) : List Char → Nat × List Char
  | [] => (start, [])
  | c :: cs =>
    let next := 10 * start + Decimal.digitValue c
    if next < 1 <<< 64 then accumulate next cs else (start, c :: cs)

/-- The number a numeral denotes, if it is in range.

A numeral of digits only denotes an integer if 64 bits hold it. Any other numeral is scaled from
its leading digits: those of the whole part that do not fit into 64 bits only count as places,
those of the fraction are dropped. -/
def ofNumeral (n : Numeral) : Option Number :=
  let (leading, unread) := accumulate 0 n.whole
  let isInteger := unread.isEmpty && n.fraction.isEmpty && n.exponent.isEmpty
  if isInteger && !n.negative then some (.integer leading)
  else if isInteger && 0 < leading && leading ≤ 1 <<< 63 then some (.integer (-leading))
  else
    -- digits that fit again after some that did not are taken as if those were not there
    let (significand, dropped) := accumulate leading n.fraction
    let places : Int := (unread.length : Int) - (n.fraction.length - dropped.length : Nat)
    let written : Int := Decimal.value n.exponent
    let exponent := places + if n.exponentNegative then -written else written
    (Binary64.ofDecimal significand exponent).map (.real n.negative)

/-! ### Writing -/

/-- A decimal without an exponent, always with a fraction. -/
def positional (digits : List Char) (exponent : Int) : List Char :=
  if 0 ≤ exponent then digits ++ List.replicate exponent.toNat '0' ++ ['.', '0']
  else
    let places := exponent.natAbs
    if places < digits.length then
      digits.take (digits.length - places) ++ '.' :: digits.drop (digits.length - places)
    else '0' :: '.' :: (List.replicate (places - digits.length) '0' ++ digits)

/-- A decimal with one digit before the point and a signed exponent `e` after it. -/
def scientific (digits : List Char) (e : Int) : List Char :=
  let mantissa :=
    match digits with
    | first :: second :: rest => first :: '.' :: second :: rest
    | short => short
  mantissa ++ 'e' :: (if e < 0 then '-' else '+') :: Decimal.digits e.natAbs

/-- The digits of a magnitude and the exponent of the last of them. -/
def shortestDigits (x : Binary64) : List Char × Int :=
  if x.isZero then (['0'], 0)
  else
    let d := x.shortest
    (Decimal.digits d.digits, d.exponent)

/-- Put a minus sign in front of a negative number. -/
def withSign (negative : Bool) (text : List Char) : List Char :=
  if negative then '-' :: text else text

/-- The characters of the number as a JSON text. A real number whose first digit has the place
`10 ^ e` is written positionally for `-5 ≤ e < 16`, and with an exponent otherwise. -/
def chars : Number → List Char
  | .integer z => (Decimal.signedText z).toList
  | .real negative x =>
    let (digits, exponent) := shortestDigits x
    let e := exponent + digits.length - 1
    withSign negative
      (if -5 ≤ e ∧ e < 16 then positional digits exponent else scientific digits e)

/-- The number as a JSON text. -/
def text (n : Number) : String :=
  String.ofList n.chars

end Number

end ContractAbi.Json
