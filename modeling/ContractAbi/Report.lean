import ContractAbi.Declaration
import ContractAbi.Descriptor

/-!
# Batches of declarations

Declarations are read one by one, and one that is refused does not keep the others from being
read. The report on a batch holds the outcome of each declaration in its place; the interface and
the list of refused declarations are views of it.
-/

namespace ContractAbi

/-- A declaration, its position in its batch, and what came of it. -/
structure Outcome where
  position : Nat
  source : String
  result : Except AbiError Entry

/-- A declaration that was refused. -/
structure Rejection where
  position : Nat
  source : String
  error : AbiError

/-- The outcomes of a batch of declarations, in order. -/
structure Report where
  outcomes : List Outcome

namespace Outcome

/-- The entry that was declared. -/
def entry? (o : Outcome) : Option Entry :=
  match o.result with
  | .ok e => some e
  | .error _ => none

/-- The refusal, if the declaration was refused. -/
def rejection? (o : Outcome) : Option Rejection :=
  match o.result with
  | .ok _ => none
  | .error e => some ⟨o.position, o.source, e⟩

end Outcome

namespace Report

/-- Read declarations that are given with their positions. -/
def ofPlaced (mode : Mode) (declarations : List (Nat × String)) : Report :=
  ⟨declarations.map fun (position, source) =>
    ⟨position, source, Entry.ofDeclaration mode source⟩⟩

/-- Read a batch of declarations; positions count from zero. -/
def ofDeclarations (mode : Mode) (declarations : List String) : Report :=
  ofPlaced mode (declarations.zipIdx.map fun (source, i) => (i, source))

/-- The interface of the declarations that were read. -/
def descriptor (r : Report) : Descriptor :=
  ⟨r.outcomes.filterMap Outcome.entry?⟩

/-- The declarations that were refused, in order. -/
def rejected (r : Report) : List Rejection :=
  r.outcomes.filterMap Outcome.rejection?

/-- Whether every declaration was read. -/
def isClean (r : Report) : Bool :=
  r.rejected.isEmpty

end Report

end ContractAbi
