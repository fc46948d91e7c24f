import ContractAbi.Json.Number

/-!
# JSON values

Values of JSON texts. The members of an object are a list; one that is built by `insert`, as a
read one is, has them in the order of their names and no name twice.
-/

namespace ContractAbi

/-- A JSON value. -/
inductive Json
  | null
  | bool (value : Bool)
  | number (value : Json.Number)
  | string (value : String)
  | array (items : List Json)
  | object (members : List (String × Json))
  deriving Inhabited

namespace Json

/-- The members of an object: names and values. -/
abbrev Members := List (String × Json)

/-- Put a member in its place in the order of names. One of the same name is replaced. -/
def Members.insert (name : String) (value : Json) : Members → Members
  | [] => [(name, value)]
  | (other, old) :: rest =>
    if name = other then (name, value) :: rest
    else if name < other then (name, value) :: (other, old) :: rest
    else (other, old) :: Members.insert name value rest

/-- The members in the order of their names; of several of one name the last. -/
def Members.sorted (members : Members) : Members :=
  members.foldl (fun sorted member => sorted.insert member.1 member.2) []

/-- The value of the member called `name`. -/
def Members.get? (members : Members) (name : String) : Option Json :=
  members.lookup name

/-- The object with these members, in the order of their names. -/
def ofMembers (members : Members) : Json :=
  .object members.sorted

/-- The text of a string. -/
def string? : Json → Option String
  | .string s => some s
  | _ => none

/-- The integer that a number is. -/
def integer? : Json → Option Int
  | .number (.integer z) => some z
  | _ => none

/-- Whether the value is a string. -/
def isString : Json → Bool
  | .string _ => true
  | _ => false

end Json

end ContractAbi
