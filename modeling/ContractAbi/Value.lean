import ContractAbi.Json.Basic
import ContractAbi.Text.Hex

/-!
# Values

The values that arguments stand for once they are bound to shapes, and their JSON form. Numbers of
any width are written as decimal strings, so that none loses precision.
-/

namespace ContractAbi

/-- A given number of bytes. -/
abbrev Bytes (n : Nat) := { bytes : List UInt8 // bytes.length = n }

/-- A value that is not made of others. -/
inductive Atom
  | address (account : Bytes 20)
  | bool (value : Bool)
  | string (value : String)
  /-- Bytes of a type that takes any number of them. -/
  | bytes (value : List UInt8)
  /-- Bytes of a type that takes as many as these. -/
  | fixedBytes (value : List UInt8)
  /-- An unsigned integer of a type of `bits` bits. -/
  | uint (bits : Nat) (value : Nat)
  /-- A signed integer of a type of `bits` bits. -/
  | int (bits : Nat) (value : Int)
  /-- A function of an account, by its selector. -/
  | function (account : Bytes 20) (selector : Bytes 4)
  deriving DecidableEq

/-- A value. -/
inductive Value
  | atom (atom : Atom)
  | array (items : List Value)
  | struct (fields : List (String × Value))

/-- The JSON form of an atom. -/
def Atom.toJson : Atom → Json
  | address account => .string (Hex.text account.val)
  | bool b => .bool b
  | string s => .string s
  | bytes bs => .string (Hex.text bs)
  | fixedBytes bs => .string (Hex.text bs)
  | uint _ n => .string (Decimal.text n)
  | int _ z => .string (Decimal.signedText z)
  | function account selector => .string (Hex.text (account.val ++ selector.val))

namespace Value

mutual

/-- The JSON form of a value. Binding it to the value's shape gives the value back. -/
def toJson : Value → Json
  | atom a => a.toJson
  | array items => .array (toJsonList items)
  | struct fields => .ofMembers (toJsonMembers fields)

/-- The JSON forms of a list of values. -/
def toJsonList : List Value → List Json
  | [] => []
  | v :: vs => v.toJson :: toJsonList vs

/-- The members of the JSON object of a tuple. -/
def toJsonMembers : List (String × Value) → Json.Members
  | [] => []
  | (name, v) :: rest => (name, v.toJson) :: toJsonMembers rest

end

/-! ### Equality is decidable -/

mutual

/-- Decides whether two values are equal. -/
def decEq : (v w : Value) → Decidable (v = w)
  | atom a, atom b => decidable_of_iff (a = b) (by simp)
  | array vs, array ws =>
    match decEqList vs ws with
    | isTrue h => isTrue (by rw [h])
    | isFalse h => isFalse (by simp [h])
  | struct fs, struct gs =>
    match decEqFields fs gs with
    | isTrue h => isTrue (by rw [h])
    | isFalse h => isFalse (by simp [h])
  | atom _, array _ => isFalse (by simp)
  | atom _, struct _ => isFalse (by simp)
  | array _, atom _ => isFalse (by simp)
  | array _, struct _ => isFalse (by simp)
  | struct _, atom _ => isFalse (by simp)
  | struct _, array _ => isFalse (by simp)

/-- Decides whether two lists of values are equal. -/
def decEqList : (vs ws : List Value) → Decidable (vs = ws)
  | [], [] => isTrue rfl
  | [], _ :: _ => isFalse (by simp)
  | _ :: _, [] => isFalse (by simp)
  | v :: vs, w :: ws =>
    match decEq v w, decEqList vs ws with
    | isTrue h, isTrue h' => isTrue (by rw [h, h'])
    | isFalse h, _ => isFalse (by simp [h])
    | _, isFalse h => isFalse (by simp [h])

/-- Decides whether two lists of fields are equal. -/
def decEqFields : (fs gs : List (String × Value)) → Decidable (fs = gs)
  | [], [] => isTrue rfl
  | [], _ :: _ => isFalse (by simp)
  | _ :: _, [] => isFalse (by simp)
  | (n, v) :: fs, (m, w) :: gs =>
    match decEq v w, decEqFields fs gs with
    | isTrue h, isTrue h' => decidable_of_iff (n = m) (by simp [h, h'])
    | isFalse h, _ => isFalse (by simp [h])
    | _, isFalse h => isFalse (by simp [h])

end

instance : DecidableEq Value := decEq

end Value

end ContractAbi
