import ContractAbi.Distinct
import ContractAbi.Error
import ContractAbi.Text.Basic

/-!
# Declarations

A declaration is one line of text such as

    function balanceOf(address owner) view returns (uint256 balance)

It is read from left to right: its heading tells the kind and the name, the first group in
parentheses holds the inputs, and what follows is the clause with mutability keywords and, for a
function, a second group with the outputs. `Entry.ofDeclaration` reads a whole declaration.
-/

namespace ContractAbi

/-! ### The heading -/

/-- What a declaration tells before its first parenthesis, and the text behind it. -/
structure Heading where
  kind : EntryKind
  name : String
  inner : String
  deriving DecidableEq, Repr

/-- The text from the first parenthesis on. -/
def Heading.rest (h : Heading) : String :=
  "(" ++ h.inner

/-- Whether a name begins with a letter, `_` or `$` and goes on with those and digits. -/
def isIdentifier (name : String) : Bool :=
  match name.toList with
  | [] => false
  | c :: cs =>
    (c.isAlpha || c = '_' || c = '$') && cs.all fun c => c.isAlphanum || c = '_' || c = '$'

/-- The words that begin declarations of other kinds and so name no function on their own. -/
def reservedNames : List String := ["constructor", "error", "event"]

/-- The kind and the name that the text before the first parenthesis tells. A function may leave
out its keyword, unless its name is reserved. -/
def Heading.kindAndName? (head : String) : Option (EntryKind × String) :=
  match Text.after? "function " head with
  | some rest => some (.function, Text.trim rest)
  | none =>
    if head = "constructor" then some (.constructor, "")
    else
      match Text.after? "error " head with
      | some rest => some (.error, Text.trim rest)
      | none =>
        match Text.after? "event " head with
        | some rest => some (.event, Text.trim rest)
        | none =>
          let name := Text.trim head
          if name ∈ reservedNames then none else some (.function, name)

/-- The heading of a declaration. -/
def Heading.ofDeclaration (declaration : String) : Except AbiError Heading :=
  match Text.cut '(' declaration with
  | none => throw (.unrecognizedDeclaration declaration)
  | some (head, inner) =>
    match kindAndName? head with
    | none => throw (.unrecognizedDeclaration declaration)
    | some (kind, name) =>
      if kind = .constructor ∨ isIdentifier name then return ⟨kind, name, inner⟩
      else throw (.unrecognizedDeclaration declaration)

/-! ### Parameters -/

/-- Mark a parameter as its modifier says. -/
def Parameter.modify (p : Parameter) (m : Modifier) : Parameter :=
  { p with indexed := m = .indexed }

/-- The parameter that a fragment of a list declares: a type, a modifier and a name, of which the
type is needed. A modifier that comes last is not a name. -/
def Parameter.ofFragment (fragment : String) : Except AbiError Parameter :=
  if Text.has '(' fragment then throw (.inlineTupleUnsupported fragment)
  else
    match Text.tokens fragment with
    | [type] => return .plain type ""
    | [type, last] =>
      match Modifier.ofText? last with
      | some m => return (Parameter.plain type "").modify m
      | none => return .plain type last
    | [type, modifier, name] =>
      match Modifier.ofText? modifier, Modifier.ofText? name with
      | some m, none => return (Parameter.plain type name).modify m
      | _, _ => throw (.invalidParameter fragment)
    | _ => throw (.invalidParameter fragment)

/-- The parameters that a list declares, with a comma after each but the last. -/
def Parameter.listOfText (list : String) : Except AbiError (List Parameter) :=
  if Text.trim list = "" then return []
  else (Text.split list ",").mapM fun fragment => Parameter.ofFragment (Text.trim fragment)

/-- The group in parentheses whose opening one has been read, and the text after it. A group does
not hold another one. -/
def splitGroup (declaration inner : String) : Except AbiError (String × String) :=
  match Text.cut ')' inner with
  | none => throw (.unrecognizedDeclaration declaration)
  | some (list, rest) =>
    if Text.has '(' list then throw (.inlineTupleUnsupported list) else return (list, rest)

/-! ### Mutability -/

/-- The mutabilities among some words, in order, each once. -/
def Mutability.distinct (words : List String) : List Mutability :=
  firstOccurrences (words.filterMap Mutability.ofText?)

/-- The mutability that the clause behind the inputs names, `nonpayable` if it names none. -/
def Mutability.ofClause (mode : Mode) (clause : String) : Except AbiError Mutability :=
  match distinct (Text.split clause " "), mode with
  | [], _ => return .nonpayable
  | [m], _ => return m
  | m :: _, .relaxed => return m
  | found, .strict => throw (.ambiguousMutability (Text.trim clause) found)

/-- The mutability of a declared constructor, which does not promise to keep the state. -/
def Mutability.ofConstructorClause (mode : Mode) (clause : String) : Except AbiError Mutability :=
  do
    let m ← ofClause mode clause
    if m.isReadOnly then throw (.invalidMutability .constructor m)
    return m

/-- Refuse a mutability in the clause of an entry that has none. -/
def Mutability.refuse (kind : EntryKind) (clause : String) : Except AbiError Unit :=
  match (Text.tokens clause).findSome? ofText? with
  | some m => throw (.invalidMutability kind m)
  | none => return ()

/-- The mutability that a declaration names behind its first closing parenthesis. -/
def Mutability.ofDeclaration (mode : Mode) (declaration : String) : Except AbiError Mutability :=
  match Text.cut ')' declaration with
  | none => throw (.unrecognizedDeclaration declaration)
  | some (_, clause) => ofClause mode clause

/-! ### Whole declarations -/

/-- The outputs that the clause of a function declares in its first group, if it has one. -/
def outputsOfClause (declaration clause : String) : Except AbiError (List Parameter) :=
  match Text.cut '(' clause with
  | none => return []
  | some (_, inner) => do
    let (list, _) ← splitGroup declaration inner
    Parameter.listOfText list

/-- The entry with a heading, inputs and the clause behind them. -/
def Entry.ofParts (mode : Mode) (declaration : String) (heading : Heading)
    (inputs : List Parameter) (clause : String) : Except AbiError Entry :=
  match heading.kind with
  | .function => do
    let outputs ← outputsOfClause declaration clause
    let mutability ← Mutability.ofClause mode clause
    return .function ⟨heading.name, inputs, outputs, mutability⟩
  | .event => do
    Mutability.refuse .event clause
    return .event ⟨heading.name, inputs, (Text.tokens clause).contains "anonymous"⟩
  | .error => do
    Mutability.refuse .error clause
    return .error ⟨heading.name, inputs⟩
  | .constructor => do
    let mutability ← Mutability.ofConstructorClause mode clause
    return .constructor ⟨inputs, mutability⟩
  | .fallback | .receive => throw (.unrecognizedDeclaration declaration)

/-- Refuse an entry other than an event that has an indexed parameter. -/
def Entry.refuseIndexed (entry : Entry) : Except AbiError Unit :=
  match entry with
  | .event _ => return ()
  | _ =>
    match (entry.inputs ++ entry.outputs).find? (·.indexed) with
    | some p => throw (.indexedOutsideEvent entry.kind p)
    | none => return ()

/-- The entry that a declaration declares. -/
def Entry.ofDeclaration (mode : Mode) (declaration : String) : Except AbiError Entry := do
  let declaration := Text.trim declaration
  let heading ← Heading.ofDeclaration declaration
  let (list, clause) ← splitGroup declaration heading.inner
  let inputs ← Parameter.listOfText list
  let entry ← Entry.ofParts mode declaration heading inputs clause
  entry.refuseIndexed
  return entry

end ContractAbi
