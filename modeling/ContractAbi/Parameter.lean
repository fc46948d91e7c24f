/-!
# Parameters

A parameter of an interface entry: the text of its type, its name, and for tuples the parameters
that make up its components.
-/

namespace ContractAbi

/-- A parameter of an entry, or a component of another parameter. -/
structure Parameter where
  /-- The text of the type, such as `uint256[3][]`. -/
  type : String
  /-- The name; empty if the parameter has none. -/
  name : String
  /-- Whether an event files the parameter under its topics. -/
  indexed : Bool
  /-- The type in the source language of the contract. -/
  internalType : Option String
  /-- The members of a tuple. -/
  components : Option (List Parameter)
  deriving Inhabited

namespace Parameter

/-- A parameter with a type and a name only. -/
def plain (type name : String) : Parameter :=
  ⟨type, name, false, none, none⟩

/-- The text of the type up to its first bracket. -/
def rootType (p : Parameter) : String :=
  String.ofList (p.type.toList.takeWhile (· ≠ '['))

/-- Whether the type is a tuple or an array of tuples. -/
def isTuple (p : Parameter) : Bool :=
  p.rootType = "tuple"

/-- The parameter as it stands in a declaration. -/
def display (p : Parameter) : String :=
  p.type ++ (if p.indexed then " indexed" else "") ++ (if p.name = "" then "" else " " ++ p.name)

/-- The parameters of a list as they stand in a declaration. -/
def displayList (ps : List Parameter) : String :=
  ", ".intercalate (ps.map display)

/-! ### Equality is decidable -/

mutual

/-- Decides whether two parameters are equal. -/
def decEq : (p q : Parameter) → Decidable (p = q)
  | ⟨t, n, i, s, none⟩, ⟨t', n', i', s', none⟩ =>
    decidable_of_iff (t = t' ∧ n = n' ∧ i = i' ∧ s = s') (by simp)
  | ⟨t, n, i, s, some cs⟩, ⟨t', n', i', s', some cs'⟩ =>
    match decEqList cs cs' with
    | isTrue h => decidable_of_iff (t = t' ∧ n = n' ∧ i = i' ∧ s = s') (by simp [h])
    | isFalse h => isFalse (by simp [h])
  | ⟨_, _, _, _, none⟩, ⟨_, _, _, _, some _⟩ => isFalse (by simp)
  | ⟨_, _, _, _, some _⟩, ⟨_, _, _, _, none⟩ => isFalse (by simp)

/-- Decides whether two lists of parameters are equal. -/
def decEqList : (ps qs : List Parameter) → Decidable (ps = qs)
  | [], [] => isTrue rfl
  | [], _ :: _ => isFalse (by simp)
  | _ :: _, [] => isFalse (by simp)
  | p :: ps, q :: qs =>
    match decEq p q, decEqList ps qs with
    | isTrue hp, isTrue hps => isTrue (by rw [hp, hps])
    | isFalse hp, _ => isFalse (by simp [hp])
    | _, isFalse hps => isFalse (by simp [hps])

end

instance : DecidableEq Parameter := decEq

end Parameter

/-- A word that may stand between the type and the name of a parameter. Only `indexed` means
something; the others tell where a value is kept and are forgotten. -/
inductive Modifier
  | calldata
  | indexed
  | memory
  | storage
  deriving DecidableEq, Repr, Inhabited

namespace Modifier

/-- The keyword of a modifier. -/
def text : Modifier → String
  | calldata => "calldata"
  | indexed => "indexed"
  | memory => "memory"
  | storage => "storage"

/-- The four modifiers. -/
def all : List Modifier := [calldata, indexed, memory, storage]

/-- The modifier whose keyword a word is. -/
def ofText? (word : String) : Option Modifier :=
  all.find? fun m => m.text = word

theorem ofText?_eq_some_iff {word : String} {m : Modifier} :
    ofText? word = some m ↔ m.text = word := by
  constructor
  · intro h; simpa using List.find?_some h
  · rintro rfl; cases m <;> decide

end Modifier

end ContractAbi
