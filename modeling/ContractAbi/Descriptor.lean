import ContractAbi.Binding
import ContractAbi.Canonical
import ContractAbi.Distinct
import ContractAbi.Shape.Resolve

/-!
# Descriptors

The entries of an interface in the order in which they are declared, and the ways to look them up.

Functions may share a name, and a lookup by name finds all of them. Events and errors should not:
those that do are kept and reported, and a lookup by their name fails.
-/

namespace ContractAbi

/-- An interface: its entries in order. -/
structure Descriptor where
  entries : List Entry
  deriving DecidableEq, Inhabited

/-- The functions of one name, in order. There is one at least. -/
structure Overloads where
  name : String
  candidates : List Function

/-- What a lookup finds: a single entry, or all functions of a name. -/
inductive Lookup
  | entry (e : Entry)
  | overloads (o : Overloads)

namespace Descriptor

/-! ### Parts -/

/-- The functions, in order. -/
def functions (d : Descriptor) : List Function :=
  d.entries.filterMap Entry.function?

/-- The events, in order. -/
def events (d : Descriptor) : List Event :=
  d.entries.filterMap Entry.event?

/-- The errors, in order. -/
def errors (d : Descriptor) : List CustomError :=
  d.entries.filterMap Entry.error?

/-- The entries of a kind, in order. -/
def ofKind (d : Descriptor) (kind : EntryKind) : List Entry :=
  d.entries.filter fun e => e.kind = kind

/-! ### Names -/

/-- The kind and the name of an event or error. -/
def uniqueKey? (e : Entry) : Option (EntryKind × String) :=
  match e with
  | .event _ | .error _ => e.name?.map fun name => (e.kind, name)
  | _ => none

/-- An error for each name that several events or several errors have, in the order of their
second declarations. -/
def duplicates (d : Descriptor) : List AbiError :=
  (repeatedItems (d.entries.filterMap uniqueKey?)).map fun (kind, name) =>
    .duplicateName kind name

/-- Whether a function has one of the mutabilities; other entries always do. -/
def admits (allowed : Option (List Mutability)) (e : Entry) : Bool :=
  match e, allowed with
  | .function f, some ms => ms.contains f.mutability
  | _, _ => true

/-- The names of the entries of a kind, each once, in order. Functions may be restricted to some
mutabilities. -/
def namesOf (d : Descriptor) (kind : EntryKind) (allowed : Option (List Mutability)) :
    List String :=
  firstOccurrences (((d.ofKind kind).filter (admits allowed)).filterMap Entry.name?)

/-! ### Lookups -/

/-- The only entry of a kind with a name. Entries without names have every name. -/
def unique (d : Descriptor) (kind : EntryKind) (name : String) : Except AbiError Entry :=
  match (d.ofKind kind).filter fun e => e.name?.all (· = name) with
  | [] => throw (.entryNotFound kind name)
  | [e] => return e
  | first :: _ :: _ =>
    if first.name?.isNone then throw (.duplicateEntry kind) else throw (.duplicateName kind name)

/-- The functions of a name. -/
def function (d : Descriptor) (name : String) : Except AbiError Overloads :=
  match d.functions.filter fun f => f.name = name with
  | [] => throw (.entryNotFound .function name)
  | candidates => return ⟨name, candidates⟩

/-- What there is of a kind under a name. -/
def lookup (d : Descriptor) (kind : EntryKind) (name : String) : Except AbiError Lookup :=
  if kind = .function then (d.function name).map .overloads
  else (d.unique kind name).map .entry

/-- The event of a name. -/
def event (d : Descriptor) (name : String) : Except AbiError Event := do
  match (← d.unique .event name).event? with
  | some e => return e
  | none => throw (.entryNotFound .event name)

/-- The error of a name. -/
def error (d : Descriptor) (name : String) : Except AbiError CustomError := do
  match (← d.unique .error name).error? with
  | some e => return e
  | none => throw (.entryNotFound .error name)

/-- The first constructor. -/
def constructor? (d : Descriptor) : Option Constructor :=
  d.entries.findSome? fun
    | .constructor c => some c
    | _ => none

/-- The mutability of the first entry for calls that name no function. -/
def fallback? (d : Descriptor) : Option Mutability :=
  d.entries.findSome? fun
    | .fallback m => some m
    | _ => none

/-- The mutability of the first entry for calls that only send value. -/
def receive? (d : Descriptor) : Option Mutability :=
  d.entries.findSome? fun
    | .receive m => some m
    | _ => none

end Descriptor

namespace Overloads

/-- The only one of some functions of the name. -/
def unique (o : Overloads) : List Function → Except AbiError Function
  | [] => throw (.entryNotFound .function o.name)
  | [f] => return f
  | fs => throw (.ambiguousOverload o.name fs.length)

/-- The function of the name, if it is the only one. -/
def single (o : Overloads) : Except AbiError Function :=
  o.unique o.candidates

/-- The function whose inputs have the given types, however these are written. -/
def byInputTypes (o : Overloads) (types : List String) : Except AbiError Function :=
  o.unique (o.candidates.filter fun f =>
    Parameter.canonicalTypes f.inputs = types.map canonicalText)

/-- Whether arguments bind to shapes, one to each. -/
def accepts : List Shape → List Json → Bool
  | [], [] => true
  | shape :: shapes, arg :: args => (shape.bind arg).isOk && accepts shapes args
  | _, _ => false

/-- Whether a function takes the arguments. One whose inputs have no shapes takes none. -/
def takes (args : List Json) (f : Function) : Bool :=
  match Parameter.shapes f.inputs with
  | .ok shapes => accepts shapes args
  | .error _ => false

/-- The function that takes the arguments. -/
def matchingArgs (o : Overloads) (args : List Json) : Except AbiError Function :=
  o.unique (o.candidates.filter (takes args))

end Overloads

/-- The function of a name whose inputs have the given types. -/
def Descriptor.functionByTypes (d : Descriptor) (name : String) (types : List String) :
    Except AbiError Function := do
  (← d.function name).byInputTypes types

/-- The interface as a JSON array. -/
def Descriptor.toJson (d : Descriptor) : Json :=
  .array (d.entries.map Entry.toJson)

/-- The interface as an indented JSON text. -/
def Descriptor.toJsonText (d : Descriptor) : String :=
  d.toJson.pretty

end ContractAbi
