import Chomsky.Derivation.Basic
import Chomsky.Derivation.Successors

/-!
# Search with whole paths

The plain breadth-first search: the queue holds whole derivations, and besides it there is only the
list of the forms discovered so far. It explores in the same order and with the same limits as the
search on a table of parents, and serves to say what that search answers.
-/

namespace Chomsky

structure PathSearch where
  known : List Word
  /-- Derivations whose last form waits for its turn, last form first. -/
  queue : List (List Word)
  truncated : Bool
  deriving DecidableEq, Repr

namespace PathSearch

def initial (start : Word) : PathSearch := ⟨[start], [[start]], false⟩

/-- Takes in one form next to the last form of `path`. -/
def offer (limits : Limits) (path : List Word) (s : PathSearch) (form : Word) : Option PathSearch :=
  if s.known.contains form then some s
  else if limits.maxDepth ≤ path.length then some { s with truncated := true }
  else if limits.maxStates ≤ s.known.length then none
  else some ⟨form :: s.known, s.queue ++ [form :: path], s.truncated⟩

def remaining (limits : Limits) (s : PathSearch) : Nat :=
  (limits.maxStates - s.known.length) + s.queue.length

/-- All that a form taken in can change. -/
theorem offer_eq_some {limits : Limits} {path : List Word} {s t : PathSearch} {form : Word}
    (taken : offer limits path s form = some t) :
    (form ∈ s.known ∧ t = s) ∨
    (form ∉ s.known ∧ limits.maxDepth ≤ path.length ∧ t = { s with truncated := true }) ∨
    (form ∉ s.known ∧ path.length < limits.maxDepth ∧ s.known.length < limits.maxStates ∧
      t = ⟨form :: s.known, s.queue ++ [form :: path], s.truncated⟩) := by
  unfold offer at taken
  simp only [List.contains_iff_mem] at taken
  split at taken
  · next known => exact Or.inl ⟨known, (Option.some.inj taken).symm⟩
  · next fresh =>
    split at taken
    · next past => exact Or.inr (Or.inl ⟨fresh, past, (Option.some.inj taken).symm⟩)
    · next short =>
      split at taken
      · cases taken
      · next room =>
        exact Or.inr (Or.inr
          ⟨fresh, Nat.lt_of_not_le short, Nat.lt_of_not_le room, (Option.some.inj taken).symm⟩)

/-- A form is refused only when it is new and near enough but there is no room for it. -/
theorem offer_eq_none {limits : Limits} {path : List Word} {s : PathSearch} {form : Word}
    (refused : offer limits path s form = none) :
    form ∉ s.known ∧ path.length < limits.maxDepth ∧ limits.maxStates ≤ s.known.length := by
  unfold offer at refused
  simp only [List.contains_iff_mem] at refused
  split at refused
  · cases refused
  · next fresh =>
    split at refused
    · cases refused
    · next short =>
      split at refused
      · next full => exact ⟨fresh, Nat.lt_of_not_le short, full⟩
      · cases refused

theorem remaining_of_offer {limits : Limits} {path : List Word} {s t : PathSearch} {form : Word}
    (h : offer limits path s form = some t) : remaining limits t = remaining limits s := by
  rcases offer_eq_some h with ⟨_, rfl⟩ | ⟨_, _, rfl⟩ | ⟨_, _, room, rfl⟩
  · rfl
  · rfl
  · simp only [remaining, List.length_cons, List.length_append, List.length_nil]
    omega

theorem remaining_of_foldlM {limits : Limits} {path forms : List Word} {s t : PathSearch}
    (h : forms.foldlM (offer limits path) s = some t) :
    remaining limits t = remaining limits s :=
  foldlM_induction (motive := fun u => remaining limits u = remaining limits s) h rfl
    fun _ _ _ _ taken same => (remaining_of_offer taken).trans same

/-- Takes the oldest path. The search is over when its last form is the goal, when the state limit is
met or when no path is left. -/
def turn (g : Grammar) (goal : Word) (limits : Limits) (s : PathSearch) : Turn PathSearch :=
  match s.queue with
  | [] => .answer (if s.truncated then .depthExceeded else .notFound)
  | [] :: rest => .next { s with queue := rest }
  | (form :: earlier) :: rest =>
    if form = goal then .answer (.found (form :: earlier).reverse)
    else
      match (g.successors form).foldlM (offer limits (form :: earlier)) { s with queue := rest } with
      | none => .answer .stateLimitReached
      | some next => .next next

theorem remaining_of_turn {g : Grammar} {goal : Word} {limits : Limits} {s t : PathSearch}
    (h : turn g goal limits s = .next t) : remaining limits t < remaining limits s := by
  unfold turn at h
  split at h
  · cases h
  · next rest hq =>
    cases h
    simp [remaining, hq]
  · next form earlier rest hq =>
    split at h
    · cases h
    · split at h
      · cases h
      · next hx =>
        cases h
        rw [remaining_of_foldlM hx]
        simp [remaining, hq]

/-- Takes turns until there is an answer. -/
def run (g : Grammar) (goal : Word) (limits : Limits) (s : PathSearch) : Derivation :=
  match _h : turn g goal limits s with
  | .answer d => d
  | .next t => run g goal limits t
termination_by remaining limits s
decreasing_by exact remaining_of_turn _h

theorem run_of_answer {g : Grammar} {goal : Word} {limits : Limits} {s : PathSearch} {d : Derivation}
    (ends : turn g goal limits s = .answer d) : run g goal limits s = d := by
  rw [run]
  split <;> simp_all

theorem run_of_next {g : Grammar} {goal : Word} {limits : Limits} {s t : PathSearch}
    (goes : turn g goal limits s = .next t) : run g goal limits s = run g goal limits t := by
  rw [run]
  split <;> simp_all

end PathSearch

/-- The answer of the plain search. -/
def Grammar.derivePlain (g : Grammar) (target : Word) (limits : Limits) : Derivation :=
  PathSearch.run g (goal target) limits (PathSearch.initial g.start)

end Chomsky
