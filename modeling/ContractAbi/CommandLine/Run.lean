import ContractAbi.AbiFile
import ContractAbi.CommandLine.Options

/-!
# The command line

What a command line prints: the entries of a file, each with its identifier and the shapes of its
parameters; a function with arguments bound to it; an interface as JSON; and for a directory the
same for each interface file, with a summary at the end.

Running is a function from the options and from what lies at the input path to a list of outputs, in
the order in which they appear, and a failure.
-/

namespace ContractAbi.CommandLine

/-- Something that is shown. -/
inductive Output
  /-- A line on the standard output. -/
  | out (line : String)
  /-- A line on the standard error output. -/
  | err (line : String)
  /-- A line of the journal. -/
  | log (line : LogLine)
  deriving DecidableEq, Repr

/-- Why a command fails. -/
inductive CommandError
  | load (error : LoadError)
  | noSuchInput
  | noEntryNamed (name path : String)
  /-- There are arguments, but no function for them is named. -/
  | noFunctionForArgs
  | malformedArgs
  | argsNotAnArray
  | argumentCount (signature : String) (expected found : Nat)
  | argument (parameter : Parameter) (signature : String) (error : AbiError)
  | abi (error : AbiError)

/-- What is wrong, from the outside in. -/
def CommandError.causes : CommandError → List Cause
  | load error => error.causes
  | noSuchInput => [.note "Invalid input path"]
  | noEntryNamed name path => [.note ("No entry named `" ++ name ++ "` in " ++ path)]
  | noFunctionForArgs => [.note "--args needs --entry or --signature"]
  | malformedArgs => [.note "--args must be JSON", .malformedJson]
  | argsNotAnArray => [.note "--args must be a JSON array"]
  | argumentCount signature expected found =>
    [.note (signature ++ " takes " ++ Decimal.text expected ++ " arguments, got " ++
      Decimal.text found)]
  | argument parameter signature error =>
    [.note ("Argument `" ++ parameter.display ++ "` of " ++ signature), .abi error]
  | abi error => [.abi error]

/-- The failure on one line. -/
def CommandError.summary (e : CommandError) : String :=
  ": ".intercalate (e.causes.map Cause.message)

/-- A text whose lines after the first are indented like the first one. -/
def hanging (indent : Nat) (s : String) : String :=
  ("\n" ++ String.ofList (List.replicate indent ' ')).intercalate (Text.lines s)

/-- The failure with its causes below it, numbered if there are several. -/
def CommandError.report (e : CommandError) : String :=
  match e.causes with
  | [] => "Error: "
  | [only] => "Error: " ++ only.message
  | [outer, inner] =>
    "Error: " ++ outer.message ++ "\n\nCaused by:\n    " ++ hanging 4 inner.message
  | outer :: inner =>
    "Error: " ++ outer.message ++ "\n\nCaused by:" ++
      String.join (inner.zipIdx.map fun (cause, i) =>
        "\n    " ++ Decimal.text i ++ ": " ++ hanging 7 cause.message)

/-- What is shown until a step ends or fails. -/
structure Trace where
  outputs : List Output
  failure : Option CommandError

namespace Trace

/-- Show some lines on the standard output. -/
def print (lines : List String) : Trace :=
  ⟨lines.map .out, none⟩

/-- Fail. -/
def fail (e : CommandError) : Trace :=
  ⟨[], some e⟩

/-- One step and, unless it fails, the next. -/
def andThen (first next : Trace) : Trace :=
  match first.failure with
  | some e => ⟨first.outputs, some e⟩
  | none => ⟨first.outputs ++ next.outputs, next.failure⟩

/-- Go on with a result, or fail for want of it. -/
def withResult {α : Type} (result : Except CommandError α) (next : α → Trace) : Trace :=
  match result with
  | .ok a => next a
  | .error e => fail e

end Trace

/-! ### Showing entries -/

/-- The line on a parameter: its place, its declaration in a column, and its shape or why it has
none. -/
def parameterLine (place : String) (p : Parameter) : String :=
  "   " ++ place ++ " " ++ Text.padRight 24 p.display ++ " " ++
    match p.shape with
    | .ok shape => shape.display
    | .error e => "✘ " ++ e.message

/-- The line on a selector. -/
def selectorLine (selector : List UInt8) : String :=
  "   selector " ++ Hex.text selector

/-- The line on the first topic of an event. -/
def topicLine (e : Event) : String :=
  match e.topic? with
  | some topic => "   topic " ++ Hex.text topic
  | none => "   anonymous"

/-- The lines on what an entry is known by and on its parameters. -/
def detailLines : Entry → List String
  | .function f =>
    selectorLine f.selector ::
      (f.inputs.map (parameterLine "in ") ++ f.outputs.map (parameterLine "out"))
  | .event e =>
    topicLine e ::
      e.inputs.map fun p => parameterLine (if p.indexed then "topic" else "data ") p
  | .error e => selectorLine e.selector :: e.inputs.map (parameterLine "in ")
  | .constructor c => c.inputs.map (parameterLine "in ")
  | .fallback _ | .receive _ => []

/-- The lines on an entry. -/
def entryLines (e : Entry) : List String :=
  e.display :: detailLines e

/-! ### Selecting and binding -/

/-- The arguments that a text gives. -/
def readArgs (text : String) : Except CommandError (List Json) :=
  match Json.parse? text with
  | none => .error .malformedArgs
  | some (.array items) => .ok items
  | some _ => .error .argsNotAnArray

/-- The name in a signature. -/
def signatureName (signature : String) : String :=
  Text.trimBlanks (String.ofList (signature.toList.takeWhile (· ≠ '(')))

/-- The function that a selection names, by its arguments where it names several. -/
def selectFunction (o : Options) (d : Descriptor) : Except CommandError Function :=
  match o.selection with
  | .signature text =>
    (d.functionByTypes (signatureName text) (signatureTypes text)).mapError .abi
  | .all => .error .noFunctionForArgs
  | .entry name => do
    let overloads ← (d.function name).mapError CommandError.abi
    match o.args with
    | some text =>
      let args ← readArgs text
      (overloads.matchingArgs args).mapError .abi
    | none => overloads.single.mapError .abi

/-- Bind arguments one by one and show each. -/
def bindEach (signature : String) : List Parameter → List Shape → List Json → Trace
  | p :: ps, shape :: shapes, arg :: args =>
    match shape.bind arg with
    | .error e => .fail (.argument p signature e)
    | .ok v =>
      (Trace.print ["   ✔ " ++ p.display ++ " = " ++ v.toJson.compact]).andThen
        (bindEach signature ps shapes args)
  | _, _, _ => .print []

/-- Bind the arguments that a text gives to a function. -/
def bindArguments (f : Function) (text : String) : Trace :=
  .withResult (readArgs text) fun args =>
  .withResult (f.shape.mapError .abi) fun shape =>
    if shape.inputs.length ≠ args.length then
      .fail (.argumentCount f.signature shape.inputs.length args.length)
    else bindEach f.signature f.inputs shape.inputs args

/-! ### Files -/

/-- The line on a declaration that was refused. -/
def rejectionLine (path : String) (r : Rejection) : Output :=
  .err ("✘ " ++ path ++ ":" ++ Decimal.text r.position ++ " `" ++ r.source ++ "`: " ++
    r.error.message)

/-- Show a selected function and bind arguments to it. -/
def showFunction (o : Options) (d : Descriptor) : Trace :=
  .withResult (selectFunction o d) fun f =>
    (Trace.print (entryLines (.function f))).andThen
      (match o.args with
        | some text => bindArguments f text
        | none => .print [])

/-- Show entries, as JSON or line by line. -/
def showEntries (o : Options) (path : String) (entries : List Entry) : Trace :=
  if o.json then
    let d : Descriptor := ⟨entries⟩
    ⟨d.journal.map .log ++ [.out d.toJsonText], none⟩
  else
    .print <|
      ["ABI " ++ path, String.ofList (List.replicate 50 '-')] ++ entries.flatMap entryLines

/-- Show what the options select from an interface. -/
def showSelection (o : Options) (path : String) (d : Descriptor) : Trace :=
  match o.selection, o.args with
  | .signature _, _ => showFunction o d
  | _, some _ => showFunction o d
  | .all, none => showEntries o path d.entries
  | .entry name, none =>
    match d.entries.filter fun e => e.name? = some name with
    | [] => .fail (.noEntryNamed name path)
    | entries => showEntries o path entries

/-- Show what the options select from a loaded file. -/
def showFile (o : Options) (f : AbiFile) : Trace :=
  (Trace.mk (f.rejected.map (rejectionLine f.path)) none).andThen
    (showSelection o f.path f.descriptor)

/-- Show what came of loading a file. -/
def showLoading (o : Options) (loading : Loading) : Trace :=
  (Trace.mk (loading.journal.map .log) none).andThen
    (.withResult (loading.result.mapError .load) (showFile o))

/-- Load a file and show it. -/
def runFile (o : Options) (path : String) (contents : ByteArray) : Trace :=
  showLoading o (AbiFile.load o.mode path (some (.file contents)))

/-! ### Directories -/

/-- The run on one file of a directory. -/
structure FileRun where
  path : String
  loading : Loading
  trace : Trace

namespace FileRun

/-- Load and show a file. -/
def ofFile (o : Options) (path : String) (contents : ByteArray) : FileRun :=
  let loading := AbiFile.load o.mode path (some (.file contents))
  ⟨path, loading, showLoading o loading⟩

/-- How many entries were loaded. -/
def entryCount (r : FileRun) : Nat :=
  match r.loading.result with
  | .ok f => f.descriptor.entries.length
  | .error _ => 0

/-- How many declarations were refused. -/
def rejectedCount (r : FileRun) : Nat :=
  match r.loading.result with
  | .ok f => f.rejected.length
  | .error _ => 0

/-- Whether the run failed. -/
def failed (r : FileRun) : Bool :=
  r.trace.failure.isSome

/-- What could not be done with the file. -/
def failedVerb (r : FileRun) : String :=
  match r.loading.result with
  | .ok _ => "process"
  | .error _ => "load"

/-- What is shown on the file. A failure is told and does not end the run on the directory. -/
def outputs (r : FileRun) : List Output :=
  r.trace.outputs ++
    match r.trace.failure with
    | none => []
    | some e => [.log ⟨.warn, "Failed to " ++ r.failedVerb ++ " " ++ r.path ++ ": " ++ e.summary⟩]

end FileRun

/-- The lines at the end of the run on a directory. -/
def summaryLines (runs : List FileRun) : List String :=
  let entries := runs.foldl (fun count run => count + run.entryCount) 0
  let rejected := runs.foldl (fun count run => count + run.rejectedCount) 0
  let failed := runs.countP FileRun.failed
  ["", "Summary",
    "   " ++ Decimal.text entries ++ " entries across " ++
      Decimal.text runs.length ++ " files"] ++
  (if 0 < rejected then ["   " ++ Decimal.text rejected ++ " declarations rejected"] else []) ++
  (if 0 < failed then ["   " ++ Decimal.text failed ++ " files failed"] else [])

/-- Show the interface files of a directory, and a summary unless JSON is asked for. -/
def runDirectory (o : Options) (files : List (String × ByteArray)) : Trace :=
  let runs := files.map fun (path, contents) => FileRun.ofFile o path contents
  let nothing : List Output :=
    if files.isEmpty then [.log ⟨.warn, "No ABI files found in " ++ o.input⟩] else []
  let summary := if o.json then [] else summaryLines runs
  ⟨nothing ++ runs.flatMap FileRun.outputs ++ summary.map .out, none⟩

/-! ### Whole runs -/

/-- What is shown for the options, given what lies at the input path. -/
def run (o : Options) : Option FileTree → Trace
  | some (.file contents) => runFile o o.input contents
  | some (.directory children) =>
    runDirectory o ((FileTree.directory children).interfaceFiles o.input)
  | none =>
    ⟨[.log ⟨.error, "Input path does not exist: " ++ o.input⟩], some .noSuchInput⟩

/-- Whether an output is shown. The least important lines of the journal are left out unless they
are asked for. -/
def isShown (verbose : Bool) : Output → Bool
  | .log line => verbose || line.level ≠ .debug
  | .out _ | .err _ => true

/-- What a whole run shows, and the code it ends with. -/
structure Outcome where
  outputs : List Output
  code : Nat

/-- The name and the version of the program. -/
def versionLine : String := "abi-shapes 0.1.0"

/-- What the program can be asked for. -/
def helpLines : List String :=
  ["Parse contract ABIs and resolve the value shapes of their entries",
   "",
   "Usage: abi-shapes [OPTIONS] --input <INPUT>",
   "",
   "Options:",
   "  -i, --input <INPUT>          An ABI file or a directory of them",
   "  -e, --entry <ENTRY>          Only show the function, event or error with this name",
   "  -s, --signature <SIGNATURE>  Select a function overload by canonical signature",
   "  -a, --args <ARGS>            JSON array of arguments to bind against the function",
   "      --json                   Print the normalised descriptor as a JSON ABI",
   "      --relaxed                Take the first mutability keyword [env: ABI_SHAPES_RELAXED]",
   "  -v, --verbose                Enable verbose logging",
   "  -h, --help                   Print help",
   "  -V, --version                Print version"]

/-- The whole run for a command line. `at?` tells what lies at the input path. -/
def outcome (invocation : Invocation) (at? : String → Option FileTree) : Outcome :=
  match invocation with
  | .version => ⟨[.out versionLine], 0⟩
  | .help => ⟨helpLines.map .out, 0⟩
  | .misuse => ⟨[], 2⟩
  | .run o =>
    let trace := run o (at? o.input)
    let shown := trace.outputs.filter (isShown o.verbose)
    match trace.failure with
    | none => ⟨shown, 0⟩
    | some e => ⟨shown ++ [.err e.report], 1⟩

end ContractAbi.CommandLine
