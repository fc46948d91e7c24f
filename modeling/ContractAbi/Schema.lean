import ContractAbi.Descriptor
import ContractAbi.Json.Reader
import ContractAbi.Text.Blank

/-!
# Interfaces in JSON

An interface is a JSON array with an element for each entry. An element is an object, or an array
with the members in a fixed order; its members are read one after the other, so that the first one
that is of the wrong kind decides, and then the entry they describe is checked. The first element
that is not an entry fails the whole interface.
-/

namespace ContractAbi

namespace Schema

/-! ### Single members -/

/-- A text. -/
def string : Json → Except SchemaFault String
  | .string s => return s
  | v => throw (.unexpected v .string)

/-- A truth value. -/
def boolean : Json → Except SchemaFault Bool
  | .bool b => return b
  | v => throw (.unexpected v .boolean)

/-- A member that may be `null`, which counts as absent. -/
def optional {α : Type} (read : Json → Except SchemaFault α) : Json → Except SchemaFault (Option α)
  | .null => return none
  | v => return some (← read v)

/-! ### Parameters -/

/-- The members of a parameter as far as they have been read. -/
structure ParameterDraft where
  type : Option String
  name : String
  indexed : Bool
  internalType : Option String
  components : Option (List Parameter)

/-- A parameter of which nothing has been read. -/
def ParameterDraft.empty : ParameterDraft :=
  ⟨none, "", false, none, none⟩

/-- The parameter that was read, if it has a type. -/
def ParameterDraft.finish (d : ParameterDraft) : Except SchemaFault Parameter :=
  match d.type with
  | some type => return ⟨type, d.name, d.indexed, d.internalType, d.components⟩
  | none => throw .missingType

mutual

/-- The parameter that an object, or an array in place of one, describes. -/
def parameter : Json → Except SchemaFault Parameter
  | .object members => do
    let draft ← parameterMembers .empty members
    draft.finish
  | .array [] => throw (.tooFewElements 0 .parameter 5)
  | .array (type :: rest) => do
    let type ← string type
    let name ← match rest with
      | name :: _ => string name
      | _ => pure ""
    let indexed ← match rest with
      | _ :: indexed :: _ => boolean indexed
      | _ => pure false
    let internalType ← match rest with
      | _ :: _ :: internalType :: _ => optional string internalType
      | _ => pure none
    let components ← match rest with
      | _ :: _ :: _ :: parts :: _ => components parts
      | _ => pure none
    if 4 < rest.length then throw (.tooManyElements (rest.length + 1))
    return ⟨type, name, indexed, internalType, components⟩
  | v => throw (.unexpected v .parameter)
termination_by structural v => v

/-- The components of a parameter, which may be absent. -/
def components : Json → Except SchemaFault (Option (List Parameter))
  | .null => return none
  | .array items => return some (← parameterList items)
  | v => throw (.unexpected v .sequence)
termination_by structural v => v

/-- Read members of a parameter in their order. -/
def parameterMembers (draft : ParameterDraft) : Json.Members → Except SchemaFault ParameterDraft
  | [] => return draft
  | (name, v) :: rest => do
    let draft ← match name with
      | "type" => do pure { draft with type := some (← string v) }
      | "name" => do pure { draft with name := ← string v }
      | "indexed" => do pure { draft with indexed := ← boolean v }
      | "internalType" => do pure { draft with internalType := ← optional string v }
      | "components" => do pure { draft with components := ← components v }
      | _ => pure draft
    parameterMembers draft rest
termination_by structural members => members

/-- The parameters of a list. -/
def parameterList : List Json → Except SchemaFault (List Parameter)
  | [] => return []
  | v :: vs => do
    let p ← parameter v
    return p :: (← parameterList vs)
termination_by structural vs => vs

end

/-- A list of parameters. -/
def parameters : Json → Except SchemaFault (List Parameter)
  | .array items => parameterList items
  | v => throw (.unexpected v .sequence)

mutual

/-- Check a parameter: it has a type, only an input of an event is indexed, and it has components
exactly if it is a tuple. -/
def checkParameter (inEvent : Bool) : Parameter → Except SchemaFault Unit
  | ⟨type, name, indexed, internalType, components⟩ => do
    let p : Parameter := ⟨type, name, indexed, internalType, components⟩
    if Text.trimBlanks type = "" then throw .blankType
    if indexed && !inEvent then throw (.indexedOutsideEvent p)
    match components with
    | none => if p.isTuple then throw (.missingComponents p)
    | some ps =>
      if p.isTuple then checkParameters false ps
      else throw (.superfluousComponents p)
termination_by structural p => p

/-- Check the parameters of a list in order. -/
def checkParameters (inEvent : Bool) : List Parameter → Except SchemaFault Unit
  | [] => return ()
  | p :: ps => do
    checkParameter inEvent p
    checkParameters inEvent ps
termination_by structural ps => ps

end

/-! ### Entries -/

/-- The members of an entry as far as they have been read. -/
structure EntryDraft where
  kind : Option String
  name : Option String
  inputs : Option (List Parameter)
  outputs : Option (List Parameter)
  mutability : Option String
  constant : Option Bool
  payable : Option Bool
  anonymous : Option Bool

namespace EntryDraft

/-- An entry of which nothing has been read. -/
def empty : EntryDraft :=
  ⟨none, none, none, none, none, none, none, none⟩

/-- The members of an entry in the order of the array form. -/
def memberNames : List String :=
  ["type", "name", "inputs", "outputs", "stateMutability", "constant", "payable", "anonymous"]

/-- Read one member. Members of other names say nothing. -/
def set (d : EntryDraft) (name : String) (v : Json) : Except SchemaFault EntryDraft := do
  match name with
  | "type" => return { d with kind := ← optional string v }
  | "name" => return { d with name := ← optional string v }
  | "inputs" => return { d with inputs := ← optional parameters v }
  | "outputs" => return { d with outputs := ← optional parameters v }
  | "stateMutability" => return { d with mutability := ← optional string v }
  | "constant" => return { d with constant := ← optional boolean v }
  | "payable" => return { d with payable := ← optional boolean v }
  | "anonymous" => return { d with anonymous := ← optional boolean v }
  | _ => return d

/-- Read the members of an object in their order. -/
def setMembers (d : EntryDraft) : Json.Members → Except SchemaFault EntryDraft
  | [] => return d
  | (name, v) :: rest => do (← d.set name v).setMembers rest

/-- Read the elements of the array form, of which `count` have been read. -/
def setElements (d : EntryDraft) (count : Nat) :
    List String → List Json → Except SchemaFault EntryDraft
  | [], [] => return d
  | [], rest => throw (.tooManyElements (count + rest.length))
  | _ :: _, [] => throw (.tooFewElements count .entry memberNames.length)
  | name :: names, v :: vs => do (← d.set name v).setElements (count + 1) names vs

/-- Read all members of an element. -/
def ofJson : Json → Except SchemaFault EntryDraft
  | .object members => empty.setMembers members
  | .array items => empty.setElements 0 memberNames items
  | v => throw (.unexpected v .entry)

/-- The name, which must not be empty. -/
def requireName (d : EntryDraft) : Except SchemaFault String :=
  match d.name with
  | some name => if name = "" then throw .missingName else return name
  | none => throw .missingName

/-- The mutability. Where it is not stated, two truth values that were used before decide. -/
def requireMutability (d : EntryDraft) : Except SchemaFault Mutability :=
  match d.mutability with
  | some text =>
    match Mutability.ofText? text with
    | some m => return m
    | none => throw (.unknownMutability text)
  | none =>
    if d.constant = some true then return .view
    else if d.payable = some true then return .payable
    else return .nonpayable

/-- The mutability of an entry that does not promise to keep the state. -/
def requirePayability (d : EntryDraft) : Except SchemaFault Mutability := do
  let m ← d.requireMutability
  if m.isReadOnly then throw (.mutabilityNotAllowed m)
  return m

/-- The entry that the members describe. Without a kind it is a function. -/
def finish (d : EntryDraft) : Except SchemaFault Entry := do
  let kind := d.kind.getD "function"
  let inputs := d.inputs.getD []
  checkParameters (kind = "event") inputs
  match kind with
  | "function" =>
    let outputs := d.outputs.getD []
    checkParameters false outputs
    let name ← d.requireName
    return .function ⟨name, inputs, outputs, ← d.requireMutability⟩
  | "event" => return .event ⟨← d.requireName, inputs, d.anonymous.getD false⟩
  | "error" => return .error ⟨← d.requireName, inputs⟩
  | "constructor" => return .constructor ⟨inputs, ← d.requirePayability⟩
  | "fallback" => return .fallback (← d.requirePayability)
  | "receive" =>
    if d.mutability.any (· ≠ Mutability.payable.text) then throw .receiveNotPayable
    return .receive .payable
  | other => throw (.unknownEntryType other)

end EntryDraft

/-- The entry that an element describes. -/
def entry (element : Json) : Except SchemaFault Entry := do
  if element.isString then throw .declarationText
  (← EntryDraft.ofJson element).finish

/-! ### Interfaces -/

/-- Whether an interface has at most one entry of a kind. -/
def isSingular : EntryKind → Bool
  | .constructor | .fallback | .receive => true
  | .function | .event | .error => false

/-- What came of reading an interface: the entries up to the first fault, and the fault. -/
structure Ingestion where
  accepted : List Entry
  fault : Option AbiError

/-- Read elements from position `index` on, after elements that gave the entries `before`. -/
def ingestFrom (index : Nat) (before : List Entry) : List Json → Ingestion
  | [] => ⟨[], none⟩
  | element :: rest =>
    match entry element with
    | .error fault => ⟨[], some (.schemaViolation index fault)⟩
    | .ok e =>
      -- the element is an entry of its own; only those before it may speak against it
      if isSingular e.kind && before.any (·.kind = e.kind) then
        ⟨[], some (.schemaViolation index (.repeated e.kind))⟩
      else
        let later := ingestFrom (index + 1) (e :: before) rest
        ⟨e :: later.accepted, later.fault⟩

/-- Read an interface. -/
def ingest : Json → Ingestion
  | .array elements => ingestFrom 0 [] elements
  | _ => ⟨[], some (.schemaViolation 0 .notAnArray)⟩

end Schema

/-- The interface that a JSON value describes. -/
def Descriptor.ofJson (v : Json) : Except AbiError Descriptor :=
  let ingestion := Schema.ingest v
  match ingestion.fault with
  | none => .ok ⟨ingestion.accepted⟩
  | some e => .error e

/-- The interface that a JSON text describes. -/
def Descriptor.ofJsonText (text : String) : Except AbiError Descriptor :=
  match Json.parse? text with
  | some v => ofJson v
  | none => .error .malformedJson

end ContractAbi
