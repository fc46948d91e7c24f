/-!
# Binary64 magnitudes

The non-negative finite numbers of the 64-bit binary format, with exact arithmetic on natural
numbers: rounding a ratio to the nearest of them, scaling by a power of ten, and the shortest
decimal that rounds back to a given one.

No step is approximate. A ratio is rounded once, to the nearest representable number and to the
even mantissa on a tie; a decimal is accepted by comparing it with the two ends of the interval
that rounds to the number.
-/

namespace ContractAbi

/-- The number `mantissa * 2 ^ exponent`. Zero has mantissa `0`; of the other numbers the
mantissa has 53 bits, or fewer at the least exponent. -/
structure Binary64 where
  mantissa : Nat
  exponent : Int
  deriving DecidableEq, Repr, Inhabited

namespace Binary64

/-- The exponent of the least positive number. -/
def leastExponent : Int := -1074

/-- The exponent of the greatest number. -/
def greatestExponent : Int := 971

def zero : Binary64 := ⟨0, leastExponent⟩

def isZero (x : Binary64) : Bool := x.mantissa = 0

/-! ### Rounding -/

/-- The ratio of `num / den` to `2 ^ e`, as a numerator and a denominator. -/
def inUnits (num den : Nat) (e : Int) : Nat × Nat :=
  (num <<< (-e).toNat, den <<< e.toNat)

/-- The natural number nearest to `num / den`, the even one of two that are equally near. -/
def nearest (num den : Nat) : Nat :=
  let q := num / den
  let twice := 2 * (num % den)
  if twice < den ∨ (twice = den ∧ q % 2 = 0) then q else q + 1

/-- The number nearest to `num / den`, or nothing where that lies beyond the greatest number. -/
def ofRatio (num den : Nat) : Option Binary64 :=
  if num = 0 then some zero
  else
    -- in units of `2 ^ guess` the ratio lies between `2 ^ 51` and `2 ^ 53`
    let guess : Int := (num.log2 : Int) - den.log2 - 52
    let (n, d) := inUnits num den guess
    let e := max (if n < d <<< 52 then guess - 1 else guess) leastExponent
    let (n, d) := inUnits num den e
    let m := nearest n d
    -- rounding may fill the mantissa up to the next power of two
    let x : Binary64 := if m = 1 <<< 53 then ⟨1 <<< 52, e + 1⟩ else ⟨m, e⟩
    if x.exponent ≤ greatestExponent then some x else none

/-! ### Decimal scaling -/

/-- The number as a numerator and a denominator. -/
def ratio (x : Binary64) : Nat × Nat :=
  (x.mantissa <<< x.exponent.toNat, 1 <<< (-x.exponent).toNat)

/-- The power of ten nearest to `10 ^ k`; it is in range for `k ≤ 308`. -/
def powerOfTen (k : Nat) : Binary64 :=
  (ofRatio (Nat.pow 10 k) 1).getD zero

/-- The product, rounded. -/
def mul? (x y : Binary64) : Option Binary64 :=
  ofRatio (x.ratio.1 * y.ratio.1) (x.ratio.2 * y.ratio.2)

/-- The quotient by a positive number, rounded. -/
def div? (x y : Binary64) : Option Binary64 :=
  ofRatio (x.ratio.1 * y.ratio.2) (x.ratio.2 * y.ratio.1)

/-- `x / 10 ^ k`, dividing by the greatest power of ten in range as long as `k` exceeds it. -/
def shrink (x : Binary64) (k : Nat) : Option Binary64 :=
  if x.isZero then some zero
  else if k ≤ 308 then x.div? (powerOfTen k)
  else (x.div? (powerOfTen 308)).bind fun y => y.shrink (k - 308)
termination_by k

/-- The number denoted by `significand * 10 ^ exponent`: the significand is rounded first, and
the result of scaling it is rounded again. There is none where the number exceeds the range. -/
def ofDecimal (significand : Nat) (exponent : Int) : Option Binary64 :=
  (ofRatio significand 1).bind fun x =>
    if exponent < 0 then x.shrink exponent.natAbs
    else if exponent ≤ 308 then x.mul? (powerOfTen exponent.toNat)
    else if x.isZero then some zero
    else none

/-! ### The shortest decimal -/

/-- The decimal number `digits * 10 ^ exponent`. -/
structure Decimal where
  digits : Nat
  exponent : Int
  deriving DecidableEq, Repr, Inhabited

/-- Whether the decimal `c * 10 ^ p` rounds to `x`. The interval that does reaches half way to
the numbers above and below, and holds its ends exactly if the mantissa is even. All sides are
in quarters of the mantissa's unit. -/
def roundsBack (x : Binary64) (c : Nat) (p : Int) : Bool :=
  -- just above a power of two the number below is only half as far away
  let narrow := x.mantissa = 1 <<< 52 ∧ leastExponent < x.exponent
  let unit := x.exponent - 2
  let scale := Nat.pow 10 (-p).toNat <<< unit.toNat
  let low := (4 * x.mantissa - if narrow then 1 else 2) * scale
  let high := (4 * x.mantissa + 2) * scale
  let decimal := (c * Nat.pow 10 p.toNat) <<< (-unit).toNat
  if x.mantissa % 2 = 0 then low ≤ decimal && decimal ≤ high
  else low < decimal && decimal < high

/-- The multiple of `10 ^ p` that stands for `x`, if one of the two next to `x` rounds to it;
of two that do the nearer, and the even one of two that are equally near. -/
def onGrid (x : Binary64) (p : Int) : Option Decimal :=
  let num := x.ratio.1 * Nat.pow 10 (-p).toNat
  let den := x.ratio.2 * Nat.pow 10 p.toNat
  let below := num / den
  let above := below + 1
  match x.roundsBack below p, x.roundsBack above p with
  | true, true => some ⟨nearest num den, p⟩
  | true, false => some ⟨below, p⟩
  | false, true => some ⟨above, p⟩
  | false, false => none

/-- The powers of ten from the greatest that a number can reach down to the least it needs. -/
def grids : List Int :=
  (List.range 634).map fun (i : Nat) => 309 - (i : Int)

/-- The shortest decimal that rounds to `x`: a multiple of the greatest power of ten that has
such a multiple. -/
def shortest (x : Binary64) : Decimal :=
  (grids.findSome? x.onGrid).getD ⟨0, 0⟩

end Binary64

end ContractAbi
