import ContractAbi.Json.Basic
import ContractAbi.Text.Hex

/-!
# Writing JSON texts

Two layouts of one value: compact, without a blank outside strings, and indented, with one item or
member a line. Both write the members of an object in the order of its list.
-/

namespace ContractAbi.Json

/-- A character inside the quotes of a string. Quotes, backslashes and control characters are
escaped, by a letter where there is one. -/
def escapedChars (c : Char) : List Char :=
  match c with
  | '"' => ['\\', '"']
  | '\\' => ['\\', '\\']
  | '\x08' => ['\\', 'b']
  | '\x0c' => ['\\', 'f']
  | '\n' => ['\\', 'n']
  | '\r' => ['\\', 'r']
  | '\t' => ['\\', 't']
  | c =>
    if c.toNat < 0x20 then
      ['\\', 'u', '0', '0', Hex.digit (c.toNat / 16), Hex.digit (c.toNat % 16)]
    else [c]

/-- A string in quotes. -/
def quotedChars (s : String) : List Char :=
  '"' :: s.toList.flatMap escapedChars ++ ['"']

/-- A truth value. -/
def boolChars (b : Bool) : List Char :=
  if b then ['t', 'r', 'u', 'e'] else ['f', 'a', 'l', 's', 'e']

/-! ### The compact layout -/

mutual

/-- The value without blanks. -/
def compactChars : Json → List Char
  | .null => ['n', 'u', 'l', 'l']
  | .bool b => boolChars b
  | .number n => n.chars
  | .string s => quotedChars s
  | .array items => '[' :: (compactItems items ++ [']'])
  | .object members => '\x7b' :: (compactMembers members ++ ['\x7d'])

/-- The items of an array, with commas between them. -/
def compactItems : List Json → List Char
  | [] => []
  | [item] => item.compactChars
  | item :: next :: rest => item.compactChars ++ ',' :: compactItems (next :: rest)

/-- The members of an object, with commas between them. -/
def compactMembers : List (String × Json) → List Char
  | [] => []
  | [(name, value)] => quotedChars name ++ ':' :: value.compactChars
  | (name, value) :: next :: rest =>
    quotedChars name ++ ':' :: value.compactChars ++ ',' :: compactMembers (next :: rest)

end

/-- The value on one line, without blanks outside strings. -/
def compact (value : Json) : String :=
  String.ofList value.compactChars

/-! ### The indented layout -/

/-- A new line that is indented by `depth` steps of two spaces. -/
def newLine (depth : Nat) : List Char :=
  '\n' :: List.replicate (2 * depth) ' '

mutual

/-- The value over several lines, those after the first inside `depth` levels. -/
def prettyChars (depth : Nat) : Json → List Char
  | .null => ['n', 'u', 'l', 'l']
  | .bool b => boolChars b
  | .number n => n.chars
  | .string s => quotedChars s
  | .array [] => ['[', ']']
  | .array (item :: items) =>
    '[' :: (prettyItems (depth + 1) (item :: items) ++ newLine depth ++ [']'])
  | .object [] => ['\x7b', '\x7d']
  | .object (member :: members) =>
    '\x7b' :: (prettyMembers (depth + 1) (member :: members) ++ newLine depth ++ ['\x7d'])

/-- The items of an array, each on a line of its own. -/
def prettyItems (depth : Nat) : List Json → List Char
  | [] => []
  | [item] => newLine depth ++ prettyChars depth item
  | item :: next :: rest =>
    newLine depth ++ prettyChars depth item ++ ',' :: prettyItems depth (next :: rest)

/-- The members of an object, each on a line of its own. -/
def prettyMembers (depth : Nat) : List (String × Json) → List Char
  | [] => []
  | [(name, value)] =>
    newLine depth ++ quotedChars name ++ ':' :: ' ' :: prettyChars depth value
  | (name, value) :: next :: rest =>
    newLine depth ++ quotedChars name ++ ':' :: ' ' :: prettyChars depth value ++
      ',' :: prettyMembers depth (next :: rest)

end

/-- The value over several lines, indented by two spaces a level. -/
def pretty (value : Json) : String :=
  String.ofList (prettyChars 0 value)

end ContractAbi.Json
