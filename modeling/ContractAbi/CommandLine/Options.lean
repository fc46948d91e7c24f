import ContractAbi.Mutability
import ContractAbi.Text.Basic

/-!
# Options of the command line

The words of a command line are read from left to right. A word either stands for itself or begins
with a dash and names options; an option that takes a value has it behind its name in the same
word, or in the next one. Each option may be given once.
-/

namespace ContractAbi.CommandLine

/-- Which entries of an interface are asked for. -/
inductive Selection
  | all
  /-- Those of a name. -/
  | entry (name : String)
  /-- The function of a signature. -/
  | signature (text : String)
  deriving DecidableEq, Repr

/-- What a command line asks for. -/
structure Options where
  /-- The path of a file or directory. -/
  input : String
  selection : Selection
  /-- The text of a JSON array of arguments. -/
  args : Option String
  /-- Whether entries are printed as JSON. -/
  json : Bool
  mode : Mode
  /-- Whether all of the journal is shown. -/
  verbose : Bool
  deriving DecidableEq, Repr

/-- What becomes of a command line. -/
inductive Invocation
  | run (options : Options)
  | version
  | help
  | misuse
  deriving DecidableEq, Repr

/-- The options that take a value. -/
inductive Key
  | input
  | entry
  | signature
  | args
  deriving DecidableEq, Repr

/-- The options that are there or not. -/
inductive Switch
  | json
  | relaxed
  | verbose
  | version
  | help
  deriving DecidableEq, Repr

/-- The options read so far. -/
structure Draft where
  values : List (Key × String)
  switches : List Switch

/-- Nothing read so far. -/
def Draft.empty : Draft := ⟨[], []⟩

/-- Why reading stops before the end. -/
inductive Stop
  | version
  | help
  | misuse

/-- Give an option its value. The path must not be empty. -/
def Draft.give (d : Draft) (key : Key) (value : String) : Except Stop Draft :=
  if (d.values.lookup key).isSome ∨ (key = .input ∧ value = "") then throw .misuse
  else return { d with values := (key, value) :: d.values }

/-- Turn a switch on. Two of them are obeyed at once. -/
def Draft.turnOn (d : Draft) (switch : Switch) : Except Stop Draft :=
  match switch with
  | .version => throw .version
  | .help => throw .help
  | switch =>
    if switch ∈ d.switches then throw .misuse
    else return { d with switches := switch :: d.switches }

/-- The option of a long name. -/
def longName? (name : String) : Option (Key ⊕ Switch) :=
  match name with
  | "input" => some (.inl .input)
  | "entry" => some (.inl .entry)
  | "signature" => some (.inl .signature)
  | "args" => some (.inl .args)
  | "json" => some (.inr .json)
  | "relaxed" => some (.inr .relaxed)
  | "verbose" => some (.inr .verbose)
  | "version" => some (.inr .version)
  | "help" => some (.inr .help)
  | _ => none

/-- The option of a letter. -/
def letter? (c : Char) : Option (Key ⊕ Switch) :=
  match c with
  | 'i' => some (.inl .input)
  | 'e' => some (.inl .entry)
  | 's' => some (.inl .signature)
  | 'a' => some (.inl .args)
  | 'v' => some (.inr .verbose)
  | 'V' => some (.inr .version)
  | 'h' => some (.inr .help)
  | _ => none

/-- Read the letters behind a single dash. The first one that takes a value takes the rest of the
word, less an equals sign; if nothing is left, it awaits the next word. -/
def readLetters (d : Draft) : List Char → Except Stop (Draft × Option Key)
  | [] => return (d, none)
  | c :: cs =>
    match letter? c, cs with
    | none, _ => throw .misuse
    | some (.inr switch), cs => do readLetters (← d.turnOn switch) cs
    | some (.inl key), [] => return (d, some key)
    | some (.inl key), '=' :: value => return (← d.give key (String.ofList value), none)
    | some (.inl key), value => return (← d.give key (String.ofList value), none)

/-- Read the long name behind two dashes, and the value behind an equals sign. -/
def readLong (d : Draft) (word : String) : Except Stop (Draft × Option Key) :=
  let (name, value) :=
    match Text.cut '=' word with
    | some (name, value) => (name, some value)
    | none => (word, none)
  match longName? name, value with
  | some (.inl key), some value => return (← d.give key value, none)
  | some (.inl key), none => return (d, some key)
  | some (.inr switch), none => return (← d.turnOn switch, none)
  | _, _ => throw .misuse

/-- Whether a word names options. A lone dash does not. -/
def namesOptions (word : String) : Bool :=
  word ≠ "-" && word.toList.head? = some '-'

/-- Read one word that no option awaits. Only options are expected. -/
def readWord (d : Draft) (word : String) : Except Stop (Draft × Option Key) :=
  match Text.after? "--" word with
  | some long => readLong d long
  | none =>
    if namesOptions word then readLetters d (word.toList.drop 1) else throw .misuse

/-- Read the words of a command line, the first of which `awaiting` may take as its value. A word
of two dashes ends the options, and nothing may follow it. -/
def readWords (d : Draft) (awaiting : Option Key) : List String → Except Stop Draft
  | [] => if awaiting.isSome then throw .misuse else return d
  | word :: rest =>
    match awaiting with
    | some key =>
      -- a value that looks like an option is taken for one, and then the value is missing
      if namesOptions word then throw .misuse
      else do readWords (← d.give key word) none rest
    | none =>
      if word = "--" then if rest.isEmpty then return d else throw .misuse
      else do
        let (d, awaiting) ← readWord d word
        readWords d awaiting rest

/-- How mutability is taken: as the command line says, or else as the environment does, which has
to say `true` or `false`. -/
def Draft.mode? (d : Draft) (environment : Option String) : Option Mode :=
  if .relaxed ∈ d.switches then some .relaxed
  else
    match environment with
    | none => some .strict
    | some "true" => some .relaxed
    | some "false" => some .strict
    | some _ => none

/-- The selection, unless there are two. -/
def Draft.selection? (d : Draft) : Option Selection :=
  match d.values.lookup .entry, d.values.lookup .signature with
  | none, none => some .all
  | some name, none => some (.entry name)
  | none, some text => some (.signature text)
  | some _, some _ => none

/-- What the options come to. -/
def Draft.invocation (d : Draft) (environment : Option String) : Invocation :=
  match d.values.lookup .input, d.selection?, d.mode? environment with
  | some input, some selection, some mode =>
    .run ⟨input, selection, d.values.lookup .args, d.switches.contains .json, mode,
      d.switches.contains .verbose⟩
  | _, _, _ => .misuse

/-- Read a command line. -/
def parse (words : List String) (environment : Option String) : Invocation :=
  match readWords .empty none words with
  | .ok d => d.invocation environment
  | .error .version => .version
  | .error .help => .help
  | .error .misuse => .misuse

end ContractAbi.CommandLine
