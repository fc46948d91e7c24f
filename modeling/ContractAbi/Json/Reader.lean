import ContractAbi.Json.Token

/-!
# Reading JSON texts

A text is read by one pass over its tokens that keeps the open arrays and objects on a stack. Each
token is looked at once, so the recursion is on the list of tokens and needs no bound of its own;
the stack is limited to `maxDepth`.
-/

namespace ContractAbi.Json

/-- How many arrays and objects may be open at once. -/
def maxDepth : Nat := 127

/-- An array or object that is open and awaits a value. -/
inductive Frame
  /-- The items of the array so far, the last one first. -/
  | array (items : List Json)
  /-- The members of the object so far, and the name of the value that is awaited. -/
  | object (members : Members) (name : String)

mutual

/-- Read a value from the tokens and go on with what the stack awaits. -/
def readValue (stack : List Frame) : List Token → Option Json
  | .atom value :: rest => resume stack value rest
  | .string s :: rest => resume stack (.string s) rest
  | .openArray :: .closeArray :: rest =>
    if stack.length < maxDepth then resume stack (.array []) rest else none
  | .openArray :: rest =>
    if stack.length < maxDepth then readValue (.array [] :: stack) rest else none
  | .openObject :: .closeObject :: rest =>
    if stack.length < maxDepth then resume stack (.object []) rest else none
  | .openObject :: .string name :: .colon :: rest =>
    if stack.length < maxDepth then readValue (.object [] name :: stack) rest else none
  | _ => none
termination_by structural tokens => tokens

/-- Give a finished value to the innermost open array or object, or return it if none is open. -/
def resume (stack : List Frame) (value : Json) : List Token → Option Json
  | [] =>
    match stack with
    | [] => some value
    | _ :: _ => none
  | .comma :: .string name :: .colon :: rest =>
    match stack with
    | .object members last :: stack =>
      readValue (.object (members.insert last value) name :: stack) rest
    | _ => none
  | .comma :: rest =>
    match stack with
    | .array items :: stack => readValue (.array (value :: items) :: stack) rest
    | _ => none
  | .closeArray :: rest =>
    match stack with
    | .array items :: stack => resume stack (.array (value :: items).reverse) rest
    | _ => none
  | .closeObject :: rest =>
    match stack with
    | .object members last :: stack => resume stack (.object (members.insert last value)) rest
    | _ => none
  | _ => none
termination_by structural tokens => tokens

end

/-- The value that a JSON text denotes. -/
def parse? (text : String) : Option Json :=
  (tokens? text.toList).bind (readValue [])

end ContractAbi.Json
