/-!
# State mutability

What calling a function may do to the state of the chain, and how a declaration with more than one
mutability keyword is taken.
-/

namespace ContractAbi

/-- What a call may do: nothing that depends on the state, read it, change it, or change it and
receive value. -/
inductive Mutability
  | pure
  | view
  | nonpayable
  | payable
  deriving DecidableEq, Repr, Inhabited

namespace Mutability

/-- The keyword of a mutability. -/
def text : Mutability → String
  | pure => "pure"
  | view => "view"
  | nonpayable => "nonpayable"
  | payable => "payable"

/-- The four mutabilities. -/
def all : List Mutability := [pure, view, nonpayable, payable]

/-- The mutability whose keyword a word is. -/
def ofText? (word : String) : Option Mutability :=
  all.find? fun m => m.text = word

/-- Whether a call leaves the state as it is. -/
def isReadOnly : Mutability → Bool
  | pure | view => true
  | nonpayable | payable => false

theorem ofText?_eq_some_iff {word : String} {m : Mutability} :
    ofText? word = some m ↔ m.text = word := by
  constructor
  · intro h; simpa using List.find?_some h
  · rintro rfl; cases m <;> decide

end Mutability

/-- How several mutability keywords in one declaration are taken. -/
inductive Mode
  /-- They make the declaration ambiguous. -/
  | strict
  /-- The first one holds. -/
  | relaxed
  deriving DecidableEq, Repr, Inhabited

end ContractAbi
