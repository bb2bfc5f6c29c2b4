import Chomsky.Derivation.Basic

/-!
# Exit status
-/

namespace Chomsky

inductive Status where
  | success
  | failure
  | interrupted
  deriving DecidableEq, Repr

namespace Status

/-- The number a process exits with. -/
def code : Status → Nat
  | success => 0
  | failure => 1
  | interrupted => 130

/-- A search that found nothing is a failure only when the run was asked to check. -/
def ofDerivation (d : Derivation) (check : Bool) : Status :=
  if !check || d.isFound then success else failure

end Status

/-- Whether the user has asked to stop; once raised it stays so. -/
structure Interrupt where
  raised : Bool
  deriving DecidableEq, Repr

namespace Interrupt

def quiet : Interrupt := ⟨false⟩

def raise (_ : Interrupt) : Interrupt := ⟨true⟩

/-- An interrupted run says so, whatever it ended with. -/
def settle (i : Interrupt) (s : Status) : Status := if i.raised then .interrupted else s

end Interrupt

end Chomsky
