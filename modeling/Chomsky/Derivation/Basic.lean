import Chomsky.Grammar.Production

/-!
# Limits and outcomes of a derivation search
-/

namespace Chomsky

/-- Bounds on a search. -/
structure Limits where
  /-- The longest derivation to explore, counted in forms with the start symbol. -/
  maxDepth : Nat
  /-- The number of distinct forms to discover before giving up. -/
  maxStates : Nat
  deriving DecidableEq, Repr

namespace Limits

def standard : Limits := ⟨20, 100000⟩

end Limits

/-- The answer of a search. -/
inductive Derivation where
  /-- Every form from the start symbol to the target. -/
  | found (steps : List Word)
  /-- Only derivations longer than the limit are left. -/
  | depthExceeded
  | stateLimitReached
  | notFound
  deriving DecidableEq, Repr

namespace Derivation

def isFound : Derivation → Bool
  | found _ => true
  | _ => false

theorem isFound_iff {d : Derivation} : d.isFound ↔ ∃ steps, d = found steps := by
  cases d <;> simp [isFound]

/-- The forms of a derivation that was found. -/
def steps : Derivation → List Word
  | found steps => steps
  | _ => []

/-- The name of an answer in machine-readable output. -/
def name : Derivation → Text
  | found _ => "found".toList
  | depthExceeded => "depth_exceeded".toList
  | stateLimitReached => "state_limit".toList
  | notFound => "not_found".toList

end Derivation

/-- What one turn of a search leaves: the answer, or the state for the next turn. -/
inductive Turn (σ : Type) where
  | answer (d : Derivation)
  | next (s : σ)
  deriving DecidableEq, Repr

/-- What every step of a fold keeps holds at its end. -/
theorem foldlM_induction {σ α : Type} {f : σ → α → Option σ} {motive : σ → Prop} {as : List α}
    {s t : σ} (taken : as.foldlM f s = some t) (start : motive s)
    (step : ∀ a ∈ as, ∀ u v, f u a = some v → motive u → motive v) : motive t := by
  induction as generalizing s with
  | nil => exact Option.some.inj taken ▸ start
  | cons a as ih =>
    rw [List.foldlM_cons] at taken
    obtain ⟨u, first, rest⟩ := Option.bind_eq_some_iff.1 taken
    obtain ⟨here, later⟩ := List.forall_mem_cons.1 step
    exact ih rest (here s u first start) later

/-- Where a partial function has a value for each element, it has one for the list. -/
theorem mapM_eq_some_map {α β : Type} {f : α → Option β} {g : α → β} {as : List α}
    (each : ∀ a ∈ as, f a = some (g a)) : as.mapM f = some (as.map g) := by
  induction as with
  | nil => rfl
  | cons a as ih =>
    obtain ⟨first, others⟩ := List.forall_mem_cons.1 each
    simp [first, ih others]

end Chomsky
