import ContractAbi.Entry
import ContractAbi.Json.Printer
import ContractAbi.Shape.Basic
import ContractAbi.Text.Quoted

/-!
# Errors

Why a declaration, a JSON interface, a type, a value or a lookup is refused. A constructor holds
the cause; the wording is in `AbiError.message` and `SchemaFault.message` only.
-/

namespace ContractAbi

/-- What a place in a JSON interface calls for. -/
inductive Expectation
  | string
  | boolean
  | sequence
  | entry
  | parameter
  deriving DecidableEq, Repr

/-- The expectation in words. -/
def Expectation.text : Expectation → String
  | string => "a string"
  | boolean => "a boolean"
  | sequence => "a sequence"
  | entry => "struct RawEntry"
  | parameter => "struct Parameter"

/-- Why an element of a JSON interface is not an entry. -/
inductive SchemaFault
  /-- The interface is not an array. -/
  | notAnArray
  /-- The element is a string, which only an interface of declarations may hold. -/
  | declarationText
  /-- A value of another kind stands where a text, truth value, list or object is expected. -/
  | unexpected (found : Json) (expected : Expectation)
  /-- A parameter has no type. -/
  | missingType
  /-- An array that stands for an object of `size` members ends after `count` elements. -/
  | tooFewElements (count : Nat) (expected : Expectation) (size : Nat)
  /-- An array that stands for an object goes on too long. -/
  | tooManyElements (count : Nat)
  | missingName
  | unknownMutability (text : String)
  | mutabilityNotAllowed (mutability : Mutability)
  | receiveNotPayable
  | unknownEntryType (text : String)
  /-- An entry of which an interface has at most one occurs again. -/
  | repeated (kind : EntryKind)
  | blankType
  | indexedOutsideEvent (parameter : Parameter)
  | missingComponents (parameter : Parameter)
  | superfluousComponents (parameter : Parameter)

/-- What a value is, as told to one who expected something else. -/
def SchemaFault.describe : Json → String
  | .null => "null"
  | .bool b => "boolean `" ++ (if b then "true" else "false") ++ "`"
  | .number (.integer z) => "integer `" ++ Decimal.signedText z ++ "`"
  | .number n => "floating point `" ++ n.text ++ "`"
  | .string s => "string " ++ Text.quoted s
  | .array _ => "sequence"
  | .object _ => "map"

/-- The fault in words. -/
def SchemaFault.message : SchemaFault → String
  | notAnArray => "an ABI must be a JSON array"
  | declarationText => "human-readable declaration inside a JSON ABI"
  | unexpected found expected =>
    "invalid type: " ++ describe found ++ ", expected " ++ expected.text
  | missingType => "missing field `type`"
  | tooFewElements count expected size =>
    "invalid length " ++ Decimal.text count ++ ", expected " ++ expected.text ++ " with " ++
      Decimal.text size ++ " elements"
  | tooManyElements count =>
    "invalid length " ++ Decimal.text count ++ ", expected fewer elements in array"
  | missingName => "missing name"
  | unknownMutability text => "unknown stateMutability `" ++ text ++ "`"
  | mutabilityNotAllowed mutability => "`" ++ mutability.text ++ "` is not allowed here"
  | receiveNotPayable => "receive must be payable"
  | unknownEntryType text => "unknown entry type `" ++ text ++ "`"
  | repeated kind => "more than one " ++ kind.text
  | blankType => "parameter without a type"
  | indexedOutsideEvent p => "`" ++ p.display ++ "` is indexed outside an event"
  | missingComponents p => "tuple `" ++ p.display ++ "` has no components"
  | superfluousComponents p => "`" ++ p.display ++ "` has components but is not a tuple"

/-- Why an operation is refused. -/
inductive AbiError
  | unrecognizedDeclaration (declaration : String)
  /-- A declaration has several mutability keywords. -/
  | ambiguousMutability (clause : String) (found : List Mutability)
  /-- An entry cannot have the mutability that its declaration names. -/
  | invalidMutability (kind : EntryKind) (mutability : Mutability)
  | invalidParameter (fragment : String)
  /-- A list of parameters holds a tuple in parentheses. -/
  | inlineTupleUnsupported (text : String)
  | indexedOutsideEvent (kind : EntryKind) (parameter : Parameter)
  | unknownAbiType (type : String)
  | invalidArraySuffix (type : String)
  | missingTupleComponents (type : String)
  /-- Several functions of one name fit. -/
  | ambiguousOverload (name : String) (count : Nat)
  /-- Several events or several errors have one name. -/
  | duplicateName (kind : EntryKind) (name : String)
  /-- There are several entries of a kind without names. -/
  | duplicateEntry (kind : EntryKind)
  | duplicateFieldName (owner field : String)
  | entryNotFound (kind : EntryKind) (name : String)
  | schemaViolation (index : Nat) (fault : SchemaFault)
  /-- A value does not have a shape. -/
  | valueMismatch (expected : Shape) (found : Json)
  /-- A text is not JSON. -/
  | malformedJson

/-- What is said of a text that is not JSON. -/
def Json.malformedMessage : String := "the text is not valid JSON"

/-- The error in words. -/
def AbiError.message : AbiError → String
  | unrecognizedDeclaration declaration => "unrecognized declaration: " ++ declaration
  | ambiguousMutability clause found =>
    "ambiguous state mutability in `" ++ clause ++ "`: found [" ++
      ", ".intercalate (found.map fun m => Text.quoted m.text) ++ "]"
  | invalidMutability kind mutability => kind.text ++ " cannot be `" ++ mutability.text ++ "`"
  | invalidParameter fragment => "invalid parameter `" ++ fragment ++ "`"
  | inlineTupleUnsupported text =>
    "inline tuple parameters are not supported in human-readable form: `" ++ text ++ "`"
  | indexedOutsideEvent kind parameter =>
    "parameter `" ++ parameter.display ++ "` is marked indexed outside of an event (" ++
      kind.text ++ ")"
  | unknownAbiType type => "unknown ABI type `" ++ type ++ "`"
  | invalidArraySuffix type => "invalid array suffix in `" ++ type ++ "`"
  | missingTupleComponents type => "tuple type `" ++ type ++ "` has no components"
  | ambiguousOverload name count =>
    "`" ++ name ++ "` matches " ++ Decimal.text count ++ " function overloads"
  | duplicateName kind name => "duplicate " ++ kind.text ++ " name `" ++ name ++ "`"
  | duplicateEntry kind => "more than one " ++ kind.text
  | duplicateFieldName owner field => "duplicate field `" ++ field ++ "` in `" ++ owner ++ "`"
  | entryNotFound kind name => "no " ++ kind.text ++ " named `" ++ name ++ "`"
  | schemaViolation index fault =>
    "ABI entry " ++ Decimal.text index ++ " does not conform to the schema: " ++ fault.message
  | valueMismatch expected found =>
    "expected " ++ expected.display ++ ", found " ++ found.compact
  | malformedJson => "invalid JSON ABI: " ++ Json.malformedMessage

end ContractAbi
