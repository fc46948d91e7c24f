import ContractAbi.Text.Basic

/-!
# Blank characters

The characters with the Unicode property *White_Space*. The declaration grammar knows the space
only; these count where whole lines of a file are taken apart.
-/

namespace ContractAbi.Text

/-- The ranges of code points with the property White_Space, in order. -/
def blankRanges : List (Nat × Nat) :=
  [(0x0009, 0x000D), (0x0020, 0x0020), (0x0085, 0x0085), (0x00A0, 0x00A0), (0x1680, 0x1680),
   (0x2000, 0x200A), (0x2028, 0x2029), (0x202F, 0x202F), (0x205F, 0x205F), (0x3000, 0x3000)]

/-- Whether `c` has the property White_Space. -/
def isBlank (c : Char) : Bool :=
  isWithin blankRanges c

/-- `s` without the blank characters at its two ends. -/
def trimBlanks (s : String) : String :=
  strip isBlank s

end ContractAbi.Text
