import ContractAbi.Error
import ContractAbi.Text.Basic

/-!
# Array suffixes

A type is a base without brackets and any number of suffixes `[]` or `[n]` behind it, the innermost
array first. `Suffix.split` takes a type apart and `Suffix.text` writes a suffix.
-/

namespace ContractAbi

/-- The positive number below `2 ^ 64` that a numeral without leading zeros denotes. -/
def Decimal.positive? (cs : List Char) : Option Nat :=
  if isNumeral cs ∧ cs.head? ≠ some '0' ∧ value cs < 1 <<< 64 then some (value cs) else none

/-- One level of an array: of any length or of a fixed one. -/
inductive Suffix
  | dynamic
  | fixed (length : Nat)
  deriving DecidableEq, Repr, Inhabited

namespace Suffix

/-- The suffix as it is written. -/
def text : Suffix → String
  | dynamic => "[]"
  | fixed length => "[" ++ Decimal.text length ++ "]"

/-- The suffix with the given text between its brackets. -/
def ofSize? (size : List Char) : Option Suffix :=
  if size = [] then some dynamic else (Decimal.positive? size).map fixed

/-- The suffixes that a text consists of. -/
def listOf? : List Char → Option (List Suffix)
  | [] => some []
  | c :: cs =>
    if c = '[' then
      -- a bracket inside the size is no digit, so groups need not be matched
      match _h : Text.cutChars ']' cs with
      | none => none
      | some (size, rest) =>
        match ofSize? size with
        | none => none
        | some suffix => (listOf? rest).map (suffix :: ·)
    else none
termination_by cs => cs.length
decreasing_by
  have := (Text.cutChars_eq_some_iff.1 _h).1
  simp [this]; omega

/-- Whether a character is a bracket. -/
def isBracket (c : Char) : Bool :=
  c = '[' || c = ']'

/-- The base of a type and its suffixes in the order in which they are written. -/
def split (type : String) : Except AbiError (String × List Suffix) :=
  let cs := type.toList
  match listOf? (cs.dropWhile fun c => !isBracket c) with
  | some suffixes => .ok (String.ofList (cs.takeWhile fun c => !isBracket c), suffixes)
  | none => .error (.invalidArraySuffix type)

/-- The array of `element` that the suffix stands for. -/
def wrap (element : Shape) : Suffix → Shape
  | dynamic => .dynamicArray element
  | fixed length => .fixedArray element length

end Suffix

/-- The shape inside all the arrays that the suffixes stand for, the first one innermost. -/
def Shape.wrapAll (base : Shape) (suffixes : List Suffix) : Shape :=
  suffixes.foldl Suffix.wrap base

end ContractAbi
