import ContractAbi.Text.Decimal

/-!
# Shapes of values

The shape of a value is what its type says about it once names, aliases and notation are gone: an
elementary kind, an array of one shape, or a tuple of named fields.
-/

namespace ContractAbi

/-- The kinds of values that are not made of others. -/
inductive Elementary
  /-- An account: 20 bytes. -/
  | address
  | bool
  | string
  /-- Bytes, as many as `width` says, or any number of them. -/
  | bytes (width : Option Nat)
  /-- An integer of at most `bits` bits. -/
  | integer (signed : Bool) (bits : Nat)
  /-- An account and the selector of one of its functions: 24 bytes. -/
  | function
  deriving DecidableEq, Repr, Inhabited

/-- The shape of a value. -/
inductive Shape
  | elementary (kind : Elementary)
  | fixedArray (element : Shape) (length : Nat)
  | dynamicArray (element : Shape)
  | struct (fields : List (String × Shape))
  deriving Inhabited

/-- The fields of a tuple: names and shapes. -/
abbrev Fields := List (String × Shape)

/-- The name of an elementary type. -/
def Elementary.display : Elementary → String
  | address => "address"
  | bool => "bool"
  | string => "string"
  | bytes none => "bytes"
  | bytes (some n) => "bytes" ++ Decimal.text n
  | integer true bits => "int" ++ Decimal.text bits
  | integer false bits => "uint" ++ Decimal.text bits
  | function => "function"

namespace Shape

mutual

/-- The shape as a type, with the fields of tuples in parentheses. -/
def display : Shape → String
  | elementary kind => kind.display
  | fixedArray element length => element.display ++ "[" ++ Decimal.text length ++ "]"
  | dynamicArray element => element.display ++ "[]"
  | struct fields => "(" ++ ", ".intercalate (displayFields fields) ++ ")"

/-- Each field as a type and a name. -/
def displayFields : Fields → List String
  | [] => []
  | (name, shape) :: rest => (shape.display ++ " " ++ name) :: displayFields rest

end

/-- The shape of the field called `name`. -/
def field? (name : String) : Shape → Option Shape
  | struct fields => fields.lookup name
  | _ => none

/-- The shape of the elements of an array. -/
def element? : Shape → Option Shape
  | fixedArray element _ => some element
  | dynamicArray element => some element
  | elementary _ | struct _ => none

/-- How many levels of arrays there are before something else. -/
def dimensions : Shape → Nat
  | fixedArray element _ => element.dimensions + 1
  | dynamicArray element => element.dimensions + 1
  | elementary _ | struct _ => 0

end Shape

end ContractAbi
