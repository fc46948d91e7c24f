import ContractAbi.Shape.Suffix

/-!
# The shape of a parameter

A type is resolved by taking its suffixes off, resolving what is left as an elementary type or as
a tuple with the parameter's components, and putting the arrays back around the result.
-/

namespace ContractAbi

/-! ### Elementary types -/

/-- The number of bits that an integer type names; 256 if it names none. -/
def Elementary.bits? (digits : List Char) : Option Nat :=
  if digits = [] then some 256
  else
    (Decimal.positive? digits).filter fun n => 8 ≤ n && n ≤ 256 && n % 8 = 0

/-- The number of bytes that a type of fixed width names. -/
def Elementary.width? (digits : List Char) : Option Nat :=
  (Decimal.positive? digits).filter fun n => n ≤ 32

/-- The types whose name ends with a number. -/
def Elementary.sized? (name : String) : Option Elementary :=
  match Text.after? "bytes" name with
  | some digits => (width? digits.toList).map fun n => .bytes (some n)
  | none =>
    match Text.after? "uint" name with
    | some digits => (bits? digits.toList).map (.integer false)
    | none => (Text.after? "int" name).bind fun digits => (bits? digits.toList).map (.integer true)

/-- The elementary kind that a type without suffixes names. A tuple is none. -/
def Elementary.ofName (name : String) : Except AbiError Elementary :=
  if name = "address" then .ok .address
  else if name = "bool" then .ok .bool
  else if name = "string" then .ok .string
  else if name = "bytes" then .ok (.bytes none)
  else if name = "function" then .ok .function
  else if name = "tuple" then .error (.missingTupleComponents name)
  else
    match sized? name with
    | some kind => .ok kind
    | none => .error (.unknownAbiType name)

/-! ### Parameters -/

/-- The name of a field: that of its parameter, or its position if the parameter has none. -/
def Parameter.fieldName (p : Parameter) (position : Nat) : String :=
  if p.name = "" then Decimal.text position else p.name

mutual

/-- The shape of the values of a parameter. -/
def Parameter.shape : Parameter → Except AbiError Shape
  | ⟨type, _, _, _, components⟩ => do
    let (base, suffixes) ← Suffix.split type
    if base = "tuple" then
      match components with
      | none => throw (.missingTupleComponents type)
      | some ps =>
        let fields ← Parameter.fieldsFrom type 0 [] ps
        return (Shape.struct fields).wrapAll suffixes
    else
      let kind ← Elementary.ofName base
      return (Shape.elementary kind).wrapAll suffixes
termination_by structural p => p

/-- The fields of a list of parameters that begins at `position` and may not use the names
`taken`. A name that is taken is an error before the parameter's type is looked at. -/
def Parameter.fieldsFrom (owner : String) (position : Nat) (taken : List String) :
    List Parameter → Except AbiError Fields
  | [] => return []
  | p :: ps => do
    let name := p.fieldName position
    if name ∈ taken then throw (.duplicateFieldName owner name)
    let shape ← p.shape
    let rest ← Parameter.fieldsFrom owner (position + 1) (name :: taken) ps
    return (name, shape) :: rest
termination_by structural ps => ps

end

/-- The fields that a list of parameters makes up; their names differ. -/
def Parameter.fields (owner : String) (ps : List Parameter) : Except AbiError Fields :=
  Parameter.fieldsFrom owner 0 [] ps

/-- The shapes of a list of parameters, in order. -/
def Parameter.shapes : List Parameter → Except AbiError (List Shape)
  | [] => return []
  | p :: ps => do
    let shape ← p.shape
    let rest ← Parameter.shapes ps
    return shape :: rest

/-! ### Entries -/

/-- What a call gives back. -/
inductive OutputShape
  | unit
  | single (shape : Shape)
  | tuple (shapes : List Shape)
  deriving Inhabited

/-- The result of a call with these values. -/
def OutputShape.ofShapes : List Shape → OutputShape
  | [] => unit
  | [shape] => single shape
  | shapes => tuple shapes

/-- What a function takes and gives back. -/
structure FunctionShape where
  inputs : List Shape
  output : OutputShape
  deriving Inhabited

/-- The fields of an event: those among its topics and those in its data. -/
structure EventShape where
  indexed : Fields
  data : Fields
  deriving Inhabited

/-- The shape of a function. -/
def Function.shape (f : Function) : Except AbiError FunctionShape := do
  let inputs ← Parameter.shapes f.inputs
  let outputs ← Parameter.shapes f.outputs
  return ⟨inputs, .ofShapes outputs⟩

/-- The fields whose parameters are or are not indexed. -/
def Fields.select (indexed : Bool) (fields : Fields) (ps : List Parameter) : Fields :=
  ((fields.zip ps).filter fun (_, p) => p.indexed = indexed).map (·.1)

/-- The shape of an event. All its fields must have different names. -/
def Event.shape (e : Event) : Except AbiError EventShape := do
  let fields ← Parameter.fields e.name e.inputs
  return ⟨Fields.select true fields e.inputs, Fields.select false fields e.inputs⟩

end ContractAbi
