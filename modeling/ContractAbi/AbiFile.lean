import ContractAbi.FileTree
import ContractAbi.Journal

/-!
# Interface files

A file holds an interface in one of three forms: JSON with the entries, JSON with declarations, or
one declaration a line. JSON may also be the output of a compiler, which holds the interface under
`abi`. The extension of the file tells JSON from lines.
-/

namespace ContractAbi

/-- Why a file cannot be read as text. -/
inductive ReadFault
  | missing
  | directory
  | notText
  deriving DecidableEq, Repr

/-- The fault in words. -/
def ReadFault.message : ReadFault → String
  | missing => "No such file or directory (os error 2)"
  | directory => "Is a directory (os error 21)"
  | notText => "stream did not contain valid UTF-8"

/-- A link in the chain from a failure to its reason. -/
inductive Cause
  | note (text : String)
  | unreadable (fault : ReadFault)
  | malformedJson
  | abi (error : AbiError)

/-- The link in words. -/
def Cause.message : Cause → String
  | note text => text
  | unreadable fault => fault.message
  | malformedJson => Json.malformedMessage
  | abi error => error.message

/-- Why JSON holds no interface. -/
inductive SourceFault
  /-- An object has no member `abi`. -/
  | noInterface
  | notAnArray
  | invalid (error : AbiError)

/-- Why an interface file cannot be loaded. -/
inductive LoadError
  | unreadable (path : String) (fault : ReadFault)
  | malformedJson (path : String)
  | noInterface (path : String) (fault : SourceFault)

/-- What is wrong, from the outside in. -/
def LoadError.causes : LoadError → List Cause
  | unreadable path fault => [.note ("Failed to read " ++ path), .unreadable fault]
  | malformedJson path => [.note ("Failed to parse JSON in " ++ path), .malformedJson]
  | noInterface path fault =>
    [.note ("Invalid ABI in " ++ path),
      match fault with
      | .noInterface => .note "ABI not found in artifact"
      | .notAnArray => .note "Expected a JSON array of ABI entries"
      | .invalid error => .abi error]

/-- The form in which an interface is given. -/
inductive Source
  /-- Declarations with their line numbers. -/
  | lines (placed : List (Nat × String))
  /-- Declarations in an array. -/
  | declarations (texts : List String)
  /-- Entries in JSON. -/
  | entries (value : Json)

namespace Source

/-- The lines of a text that declare something, numbered from one. Blank lines and those that
begin with two slashes do not. -/
def ofLines (text : String) : Source :=
  .lines <|
    ((Text.lines text).zipIdx.map fun (line, i) => (i + 1, Text.trimBlanks line)).filter
      fun (_, line) => line ≠ "" && (Text.after? "//" line).isNone

/-- The interface inside the output of a compiler; any other value stands for itself. -/
def unwrap : Json → Option Json
  | .object members => Json.Members.get? members "abi"
  | v => some v

/-- The interface that a JSON value holds. -/
def ofJson (value : Json) : Except SourceFault Source :=
  match unwrap value with
  | none => .error .noInterface
  | some (.array items) =>
    if !items.isEmpty && items.all Json.isString then
      .ok (.declarations (items.filterMap Json.string?))
    else .ok (.entries (.array items))
  | some _ => .error .notAnArray

/-- The interface that a file holds. -/
def ofFile (path text : String) : Except LoadError Source :=
  if Path.hasExtension "json" path then
    match Json.parse? text with
    | none => .error (.malformedJson path)
    | some value => (ofJson value).mapError (.noInterface path)
  else .ok (ofLines text)

end Source

/-- An interface file that was loaded. -/
structure AbiFile where
  path : String
  descriptor : Descriptor
  rejected : List Rejection

/-- What came of loading a file, and what was told on the way. -/
structure Loading where
  journal : List LogLine
  result : Except LoadError AbiFile

namespace AbiFile

/-- The line on a file that was loaded. -/
def logLine (f : AbiFile) : LogLine :=
  ⟨.info, "Loaded " ++ Decimal.text f.descriptor.entries.length ++ " entries from " ++ f.path ++
    " (" ++ Decimal.text f.rejected.length ++ " rejected)"⟩

/-- The end of loading a file. -/
def done (f : AbiFile) (journal : List LogLine) : Loading :=
  ⟨journal ++ [f.logLine], .ok f⟩

/-- Read the interface that a source gives. -/
def ofSource (mode : Mode) (path : String) : Source → Loading
  | .lines placed =>
    let report := Report.ofPlaced mode placed
    done ⟨path, report.descriptor, report.rejected⟩ report.journal
  | .declarations texts =>
    let report := Report.ofDeclarations mode texts
    done ⟨path, report.descriptor, report.rejected⟩
      (⟨.debug, "Treating JSON string array as human-readable declarations"⟩ :: report.journal)
  | .entries value =>
    let ingestion := Schema.ingest value
    match ingestion.fault with
    | none => done ⟨path, ⟨ingestion.accepted⟩, []⟩ ingestion.journal
    | some e => ⟨ingestion.journal, .error (.noInterface path (.invalid e))⟩

/-- The text of what lies at a path. -/
def readText : Option FileTree → Except ReadFault String
  | none => .error .missing
  | some (.directory _) => .error .directory
  | some (.file contents) =>
    match String.fromUTF8? contents with
    | some text => .ok text
    | none => .error .notText

/-- Load the file `found` at a path. -/
def load (mode : Mode) (path : String) (found : Option FileTree) : Loading :=
  match readText found with
  | .error fault => ⟨[], .error (.unreadable path fault)⟩
  | .ok text =>
    match Source.ofFile path text with
    | .error e => ⟨[], .error e⟩
    | .ok source => ofSource mode path source

end AbiFile

end ContractAbi
