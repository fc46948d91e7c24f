import ContractAbi.Entry
import ContractAbi.Keccak
import ContractAbi.Text.Parens

/-!
# Canonical types and signatures

The canonical type of a parameter has one spelling: integers tell their width and tuples are
written out. The canonical types of its inputs behind its name make the signature of an entry,
whose hash identifies it on the chain.

`Parameter.canonicalType` starts from a parameter, `canonicalText` from a written type.
-/

namespace ContractAbi

/-- The full name of an elementary type that has a short one. -/
def canonicalRoot (root : String) : String :=
  if root = "uint" then "uint256" else if root = "int" then "int256" else root

/-- What stands before the first bracket of a type, and the rest. -/
def splitRoot (type : List Char) : List Char × List Char :=
  (type.takeWhile (· ≠ '['), type.dropWhile (· ≠ '['))

namespace Parameter

mutual

/-- The canonical type of a parameter. -/
def canonicalType : Parameter → String
  | ⟨type, _, _, _, components⟩ =>
    let (root, suffixes) := splitRoot type.toList
    match components with
    | some ps =>
      if String.ofList root = "tuple" then
        "(" ++ ",".intercalate (canonicalTypes ps) ++ ")" ++ String.ofList suffixes
      else canonicalRoot (String.ofList root) ++ String.ofList suffixes
    | none => canonicalRoot (String.ofList root) ++ String.ofList suffixes
termination_by structural p => p

/-- The canonical types of a list of parameters. -/
def canonicalTypes : List Parameter → List String
  | [] => []
  | p :: ps => p.canonicalType :: canonicalTypes ps
termination_by structural ps => ps

end

/-- The canonical types of a list of parameters, with commas between them. -/
def canonicalList (ps : List Parameter) : String :=
  ",".intercalate (canonicalTypes ps)

end Parameter

/-! ### Written types -/

/-- The canonical form of a type without parentheses around it. -/
def canonicalPlainChars (type : List Char) : List Char :=
  let (root, suffixes) := splitRoot type
  (canonicalRoot (String.ofList (Text.trimmed root))).toList ++ suffixes

/-- The canonical form of a written type. If the text begins with a parenthesis that is closed,
the members inside are put into their canonical forms and what follows is kept. -/
def canonicalChars (type : List Char) : List Char :=
  match _h : Text.trimmed type with
  | '(' :: inner =>
    match _h' : Text.closeChars 0 inner with
    | some (list, rest) =>
      let members := (Text.topLevel list).attach.map fun ⟨member, _⟩ => canonicalChars member
      '(' :: List.intercalate [','] members ++ ')' :: Text.trimmed rest
    -- a parenthesis that stays open is taken as a character like any other
    | none => canonicalPlainChars (Text.trimmed type)
  | plain => canonicalPlainChars plain
termination_by type.length
decreasing_by
  have h₁ := Text.length_le_of_mem_topLevel (by assumption)
  have h₂ := congrArg List.length (Text.append_of_closeChars _h')
  have h₃ : (Text.trimmed type).length ≤ type.length := Text.length_stripChars _ _
  rw [_h] at h₃
  simp at h₂ h₃
  omega

/-- The canonical form of a written type, such as `(uint256,bool)[2]` for `(uint, bool)[2]`. -/
def canonicalText (type : String) : String :=
  String.ofList (canonicalChars type.toList)

/-- The types listed behind the name in a signature, as they are written. -/
def signatureTypes (signature : String) : List String :=
  match Text.cutChars '(' signature.toList with
  | none => []
  | some (_, inner) =>
    let list :=
      match Text.closeChars 0 inner with
      | some (list, _) => list
      | none => inner
    if '(' ∈ list then (Text.topLevel list).map String.ofList
    else if list = [] then []
    else Text.split (String.ofList list) ","

/-! ### Signatures -/

/-- The selector of a signature: the first four bytes of its hash. -/
def selectorOf (signature : String) : List UInt8 :=
  (Keccak.hashText signature).take 4

/-- The name and the types of the inputs. -/
def Function.signature (f : Function) : String :=
  f.name ++ "(" ++ Parameter.canonicalList f.inputs ++ ")"

/-- The signature and the types of the outputs. -/
def Function.fullSignature (f : Function) : String :=
  f.signature ++ "(" ++ Parameter.canonicalList f.outputs ++ ")"

/-- The bytes that select the function in a call. -/
def Function.selector (f : Function) : List UInt8 :=
  selectorOf f.signature

/-- The name and the types of the inputs. -/
def Event.signature (e : Event) : String :=
  e.name ++ "(" ++ Parameter.canonicalList e.inputs ++ ")"

/-- The first topic of the event when it is logged, which an anonymous one does not have. -/
def Event.topic? (e : Event) : Option (List UInt8) :=
  if e.anonymous then none else some (Keccak.hashText e.signature)

/-- The name and the types of the inputs. -/
def CustomError.signature (e : CustomError) : String :=
  e.name ++ "(" ++ Parameter.canonicalList e.inputs ++ ")"

/-- The bytes that announce the error in the result of a call. -/
def CustomError.selector (e : CustomError) : List UInt8 :=
  selectorOf e.signature

end ContractAbi
