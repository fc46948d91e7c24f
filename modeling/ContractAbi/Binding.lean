import ContractAbi.Error
import ContractAbi.Value

/-!
# Binding arguments to shapes

An argument is a JSON value. Binding checks that it has a shape and turns it into a value, or names
the first part of it that does not fit: that part as it was given, and the shape it should have.

Integers may be JSON numbers or strings, decimal or hexadecimal; bytes may be hexadecimal strings
or arrays of numbers; tuples may be objects with the names of the fields or arrays in their order.
-/

namespace ContractAbi

/-! ### Bytes -/

/-- The bytes, if there are `n` of them. -/
def Bytes.ofList? (n : Nat) (bytes : List UInt8) : Option (Bytes n) :=
  if h : bytes.length = n then some ⟨bytes, h⟩ else none

/-- The byte that a JSON number denotes. -/
def Json.byte? (value : Json) : Option UInt8 :=
  value.integer?.bind fun z => if 0 ≤ z ∧ z < 256 then some (UInt8.ofNat z.toNat) else none

/-- The bytes that an array of numbers denotes. -/
def Json.byteList? : List Json → Option (List UInt8)
  | [] => some []
  | item :: rest =>
    match item.byte?, byteList? rest with
    | some b, some bs => some (b :: bs)
    | _, _ => none

/-- The bytes that a hexadecimal string or an array of numbers denotes. -/
def Json.bytes? : Json → Option (List UInt8)
  | .string s => Hex.read? s
  | .array items => byteList? items
  | _ => none

/-! ### Integers -/

/-- The number that a numeral without sign denotes: digits behind `0x`, of which there may be 64,
or decimal digits below `2 ^ 256`. -/
def magnitude? (cs : List Char) : Option Nat :=
  match cs with
  | '0' :: 'x' :: digits => if digits.length ≤ 64 then Hex.value? digits else none
  | digits =>
    if Decimal.isNumeral digits ∧ Decimal.value digits < 1 <<< 256 then
      some (Decimal.value digits)
    else none

/-- An integer as its sign and its magnitude. A zero may have either sign. -/
structure SignedMagnitude where
  negative : Bool
  magnitude : Nat
  deriving DecidableEq, Repr

/-- The integer that a numeral with or without minus sign denotes. -/
def integerOfText? (s : String) : Option SignedMagnitude :=
  match s.toList with
  | '-' :: rest => (magnitude? rest).map fun n => ⟨true, n⟩
  | cs => (magnitude? cs).map fun n => ⟨false, n⟩

/-- The integer that a number or a string denotes. -/
def Json.integerOrText? : Json → Option SignedMagnitude
  | .string s => integerOfText? s
  | value => value.integer?.map fun z => ⟨z < 0, z.natAbs⟩

/-- How many binary digits a number has; zero has none. -/
def bitLength (n : Nat) : Nat :=
  if n = 0 then 0 else n.log2 + 1

/-- The word of 256 bits that stands for an integer: its magnitude, or the complement of it and one
more. -/
def SignedMagnitude.word (m : SignedMagnitude) : BitVec 256 :=
  let word := BitVec.ofNat 256 m.magnitude
  if m.negative then ~~~word + 1 else word

/-- The integer as an atom, if a type of this sign and width has it. -/
def Atom.ofInteger? (signed : Bool) (bits : Nat) (m : SignedMagnitude) : Option Atom :=
  if signed then
    let limit := 1 <<< (bits - 1)
    -- there is one negative number more
    let inRange : Bool := if m.negative then m.magnitude ≤ limit else m.magnitude < limit
    if inRange then some (.int bits m.word.toInt) else none
  else if (m.negative && m.magnitude ≠ 0) || bits < bitLength m.magnitude then none
  else some (.uint bits m.magnitude)

/-! ### Atoms -/

/-- The atom of an elementary kind that a JSON value stands for. -/
def Elementary.bind? (kind : Elementary) (value : Json) : Option Atom :=
  match kind with
  | address =>
    ((value.string?.bind Hex.read?).bind (Bytes.ofList? 20)).map .address
  | bool =>
    match value with
    | .bool b => some (.bool b)
    | _ => none
  | string => value.string?.map .string
  | bytes none => value.bytes?.map .bytes
  | bytes (some n) => (value.bytes?.filter fun bs => bs.length = n).map .fixedBytes
  | integer signed bits => value.integerOrText?.bind (Atom.ofInteger? signed bits)
  | function =>
    (value.string?.bind Hex.read?).bind fun bs =>
      match Bytes.ofList? 20 (bs.take 20), Bytes.ofList? 4 (bs.drop 20) with
      | some account, some selector => some (.function account selector)
      | _, _ => none

/-! ### Values -/

namespace Shape

/-- The error for a value that does not have the shape. -/
def mismatch (shape : Shape) (value : Json) : AbiError :=
  .valueMismatch shape value

mutual

/-- The value of the shape that a JSON value stands for. -/
def bind (shape : Shape) (value : Json) : Except AbiError Value :=
  match shape with
  | elementary kind =>
    match kind.bind? value with
    | some a => return .atom a
    | none => throw ((elementary kind).mismatch value)
  | fixedArray element length =>
    match value with
    | .array items => do
      if items.length ≠ length then throw ((fixedArray element length).mismatch value)
      return .array (← items.mapM element.bind)
    | _ => throw ((fixedArray element length).mismatch value)
  | dynamicArray element =>
    match value with
    | .array items => do return .array (← items.mapM element.bind)
    | _ => throw ((dynamicArray element).mismatch value)
  | struct fields =>
    match value with
    | .object members => do
      if members.length ≠ fields.length then throw ((struct fields).mismatch value)
      return .struct (← bindMembers ((struct fields).mismatch value) members fields)
    | .array items => do
      if items.length ≠ fields.length then throw ((struct fields).mismatch value)
      return .struct (← bindPositions items fields)
    | _ => throw ((struct fields).mismatch value)
termination_by structural shape

/-- The values of the fields of a tuple, looked up by name. A name that is missing is the error
`missing`, after the fields before it. -/
def bindMembers (missing : AbiError) (members : Json.Members) :
    Fields → Except AbiError (List (String × Value))
  | [] => return []
  | (name, shape) :: rest => do
    match members.get? name with
    | none => throw missing
    | some item =>
      let v ← shape.bind item
      return (name, v) :: (← bindMembers missing members rest)
termination_by structural fields => fields

/-- The values of the fields of a tuple, taken in order. -/
def bindPositions : (items : List Json) → Fields → Except AbiError (List (String × Value))
  | item :: items, (name, shape) :: rest => do
    let v ← shape.bind item
    return (name, v) :: (← bindPositions items rest)
  | _, _ => return []
termination_by structural _ fields => fields

end

end Shape

end ContractAbi
