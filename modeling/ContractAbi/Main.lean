import ContractAbi.CommandLine.Run

/-!
# The program

Reads what lies at the input path and shows what the command line asks for. Everything that is
decided is decided by `CommandLine.parse` and `CommandLine.outcome`.
-/

namespace ContractAbi.CommandLine

/-- What lies at a path below an input path. Links are not followed, and what cannot be read is left
out. -/
partial def readTree (entry : IO.FS.DirEntry) : IO (Option FileTree) := do
  try
    match (← entry.path.symlinkMetadata).type with
    | .file => return some (.file (← IO.FS.readBinFile entry.path))
    | .dir =>
      let children ← (← entry.path.readDir).toList.filterMapM fun child => do
        return (← readTree child).map fun tree => (child.fileName, tree)
      return some (.directory children)
    | _ => return none
  catch _ => return none

/-- What lies at an input path, a link being followed. -/
def readInput (path : String) : IO (Option FileTree) := do
  try
    let path := System.mkFilePath [path]
    if ← path.isDir then
      let children ← (← path.readDir).toList.filterMapM fun child => do
        return (← readTree child).map fun tree => (child.fileName, tree)
      return some (.directory children)
    else return some (.file (← IO.FS.readBinFile path))
  catch _ => return none

/-- Show one output where it belongs. -/
def Output.put : Output → IO Unit
  | .out line => IO.println line
  | .err line => IO.eprintln line
  | .log line => IO.eprintln line.text

/-- Carry out a command line. -/
def carryOut (invocation : Invocation) : IO UInt32 := do
  let found ← match invocation with
    | .run options => readInput options.input
    | _ => pure none
  let result := outcome invocation fun _ => found
  if result.code = 2 then IO.eprintln "error: these arguments are not understood; try --help"
  for output in result.outputs do output.put
  return UInt32.ofNat result.code

end ContractAbi.CommandLine

/-- The entry point: its arguments are the words of the command line. -/
def main (arguments : List String) : IO UInt32 := do
  let relaxed ← IO.getEnv "ABI_SHAPES_RELAXED"
  ContractAbi.CommandLine.carryOut (ContractAbi.CommandLine.parse arguments relaxed)
