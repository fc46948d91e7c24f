import ContractAbi.Report
import ContractAbi.Schema

/-!
# Journal

What is told about reading interfaces: every entry that was read, every declaration that was left
out and every name that is used twice, in the order in which they come up.
-/

namespace ContractAbi

/-- How much a line of the journal matters. -/
inductive Level
  | debug
  | info
  | warn
  | error
  deriving DecidableEq, Repr

/-- The name of a level. -/
def Level.text : Level → String
  | debug => "DEBUG"
  | info => "INFO"
  | warn => "WARN"
  | error => "ERROR"

/-- A line of the journal. -/
structure LogLine where
  level : Level
  message : String
  deriving DecidableEq, Repr

/-! ### Showing a line -/

/-- Whether a terminal obeys a character instead of showing it: bell, backspace, form feed, escape,
delete, and the second block of controls. -/
def isCommand (c : Char) : Bool :=
  Text.isWithin [(0x07, 0x08), (0x0C, 0x0C), (0x1B, 0x1B), (0x7F, 0x9F)] c

/-- A character of a message. Those that a terminal obeys are escaped. -/
def shownChar (c : Char) : List Char :=
  if !isCommand c then [c]
  else if c.toNat < 0x80 then
    ['\\', 'x', Hex.digit (c.toNat / 16), Hex.digit (c.toNat % 16)]
  else '\\' :: 'u' :: '\x7b' :: (Text.hexDigits c.toNat ++ ['\x7d'])

/-- The line as it is shown: the level and the message. -/
def LogLine.text (line : LogLine) : String :=
  line.level.text ++ " " ++ String.ofList (line.message.toList.flatMap shownChar)

/-! ### What is told -/

/-- The names that are used twice. -/
def Descriptor.journal (d : Descriptor) : List LogLine :=
  d.duplicates.map fun e => ⟨.warn, e.message⟩

/-- The line on an entry that was read. -/
def Entry.logLine (verb : String) (e : Entry) : LogLine :=
  ⟨.debug, verb ++ " " ++ e.kind.text ++ " `" ++ e.nameOrEmpty ++ "`"⟩

/-- The line on a declaration, which is counted from zero within its batch. -/
def Outcome.logLine (o : Outcome) (index : Nat) : LogLine :=
  match o.result with
  | .ok e => e.logLine "Parsed"
  | .error e => ⟨.warn, "Skipping declaration " ++ Decimal.text index ++ ": " ++ e.message⟩

/-- What is told about a batch of declarations. -/
def Report.journal (r : Report) : List LogLine :=
  r.outcomes.zipIdx.map (fun (o, i) => o.logLine i) ++ r.descriptor.journal

/-- What is told about an interface in JSON. Names are looked at only once all entries are there. -/
def Schema.Ingestion.journal (i : Schema.Ingestion) : List LogLine :=
  i.accepted.map (Entry.logLine "Ingested") ++
    match i.fault with
    | none => Descriptor.journal ⟨i.accepted⟩
    | some _ => []

end ContractAbi
