import ContractAbi.Json.Basic
import ContractAbi.Mutability
import ContractAbi.Parameter

/-!
# Interface entries

The entries of a contract interface and the two forms in which they are written: as a declaration
on one line and as a JSON object.
-/

namespace ContractAbi

/-- What an entry describes. -/
inductive EntryKind
  | function
  | event
  | error
  | constructor
  | fallback
  | receive
  deriving DecidableEq, Repr, Inhabited

/-- The keyword of a kind of entry. -/
def EntryKind.text : EntryKind → String
  | function => "function"
  | event => "event"
  | error => "error"
  | constructor => "constructor"
  | fallback => "fallback"
  | receive => "receive"

/-- A function that can be called. -/
structure Function where
  name : String
  inputs : List Parameter
  outputs : List Parameter
  mutability : Mutability
  deriving DecidableEq, Inhabited

/-- An event that is logged. An anonymous one has no topic of its own. -/
structure Event where
  name : String
  inputs : List Parameter
  anonymous : Bool
  deriving DecidableEq, Inhabited

/-- An error that a call may end with. -/
structure CustomError where
  name : String
  inputs : List Parameter
  deriving DecidableEq, Inhabited

/-- The function that sets up a contract. -/
structure Constructor where
  inputs : List Parameter
  mutability : Mutability
  deriving DecidableEq, Inhabited

/-- An entry of an interface. The last two answer calls that name no function. -/
inductive Entry
  | function (f : Function)
  | event (e : Event)
  | error (e : CustomError)
  | constructor (c : Constructor)
  | fallback (mutability : Mutability)
  | receive (mutability : Mutability)
  deriving DecidableEq, Inhabited

namespace Entry

/-- What the entry describes. -/
def kind : Entry → EntryKind
  | function _ => .function
  | event _ => .event
  | error _ => .error
  | constructor _ => .constructor
  | fallback _ => .fallback
  | receive _ => .receive

/-- The name, which functions, events and errors have. -/
def name? : Entry → Option String
  | function f => some f.name
  | event e => some e.name
  | error e => some e.name
  | constructor _ | fallback _ | receive _ => none

/-- The name, empty if there is none. -/
def nameOrEmpty (e : Entry) : String :=
  e.name?.getD ""

/-- The parameters that are given to the entry. -/
def inputs : Entry → List Parameter
  | function f => f.inputs
  | event e => e.inputs
  | error e => e.inputs
  | constructor c => c.inputs
  | fallback _ | receive _ => []

/-- The parameters that the entry gives back. -/
def outputs : Entry → List Parameter
  | function f => f.outputs
  | _ => []

/-- The function that the entry describes. -/
def function? : Entry → Option Function
  | function f => some f
  | _ => none

/-- The event that the entry describes. -/
def event? : Entry → Option Event
  | event e => some e
  | _ => none

/-- The error that the entry describes. -/
def error? : Entry → Option CustomError
  | error e => some e
  | _ => none

/-! ### As a declaration -/

/-- A keyword after a blank, left out if it is the one that goes without saying. -/
def suffixUnless (usual m : Mutability) : String :=
  if m = usual then "" else " " ++ m.text

/-- The word `payable` after a blank, if it applies. -/
def payableSuffix (m : Mutability) : String :=
  if m = .payable then " payable" else ""

/-- The declaration of the entry on one line. -/
def display : Entry → String
  | function f =>
    "function " ++ f.name ++ "(" ++ Parameter.displayList f.inputs ++ ")" ++
      suffixUnless .nonpayable f.mutability ++
      (if f.outputs.isEmpty then "" else
        " returns (" ++ Parameter.displayList f.outputs ++ ")")
  | event e =>
    "event " ++ e.name ++ "(" ++ Parameter.displayList e.inputs ++ ")" ++
      (if e.anonymous then " anonymous" else "")
  | error e => "error " ++ e.name ++ "(" ++ Parameter.displayList e.inputs ++ ")"
  | constructor c =>
    "constructor(" ++ Parameter.displayList c.inputs ++ ")" ++ payableSuffix c.mutability
  | fallback m => "fallback() external" ++ payableSuffix m
  | receive _ => "receive() external payable"

end Entry

/-! ### As JSON -/

mutual

/-- The JSON object of a parameter. Members that say nothing are left out. -/
def Parameter.toJson : Parameter → Json
  | ⟨type, name, indexed, internalType, components⟩ =>
    .object <|
      [("type", .string type), ("name", .string name)] ++
      (if indexed then [("indexed", .bool true)] else []) ++
      (match internalType with
        | some t => [("internalType", .string t)]
        | none => []) ++
      (match components with
        | some ps => [("components", .array (Parameter.toJsonList ps))]
        | none => [])

/-- The JSON objects of a list of parameters. -/
def Parameter.toJsonList : List Parameter → List Json
  | [] => []
  | p :: ps => p.toJson :: Parameter.toJsonList ps

end

namespace Entry

/-- The member that tells the mutability. -/
def mutabilityMember (m : Mutability) : String × Json :=
  ("stateMutability", .string m.text)

/-- The member that holds a list of parameters. -/
def parametersMember (name : String) (ps : List Parameter) : String × Json :=
  (name, .array (Parameter.toJsonList ps))

/-- The members of the entry's JSON object behind its kind. -/
def members : Entry → Json.Members
  | function f =>
    [("name", .string f.name), parametersMember "inputs" f.inputs,
      parametersMember "outputs" f.outputs, mutabilityMember f.mutability]
  | event e =>
    [("name", .string e.name), parametersMember "inputs" e.inputs,
      ("anonymous", .bool e.anonymous)]
  | error e => [("name", .string e.name), parametersMember "inputs" e.inputs]
  | constructor c => [parametersMember "inputs" c.inputs, mutabilityMember c.mutability]
  | fallback m => [mutabilityMember m]
  | receive m => [mutabilityMember m]

/-- The JSON object of the entry. Its kind comes first. -/
def toJson (e : Entry) : Json :=
  .object (("type", .string e.kind.text) :: e.members)

end Entry

end ContractAbi
