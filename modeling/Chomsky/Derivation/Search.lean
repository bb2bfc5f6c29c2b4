import Std.Data.HashSet
import Chomsky.Derivation.Basic
import Chomsky.Derivation.Queue
import Chomsky.Derivation.Sweep

/-!
# Breadth-first derivation search

The search keeps a table of the forms it has discovered, packed in strings. Each form stands there
once, with the index of the form it came from; the queue holds indices only, with the number of
forms on the way from the start symbol. Forms past the depth limit are never stored, and no more
forms than the state limit allows. Main statements: `expand_eq_foldlM`, which says what a turn does
with the successors of a form, and `remaining_of_turn`, by which the search ends.
-/

namespace Chomsky

/-- A discovered form and the index of its parent; the start symbol has none. -/
structure Discovery where
  packed : String
  parent : Option Nat
  deriving DecidableEq, Repr

/-- The form that was discovered. -/
def Discovery.form (d : Discovery) : Word := d.packed.toList

@[simp] theorem Discovery.form_ofList (form : Word) (parent : Option Nat) :
    Discovery.form ⟨String.ofList form, parent⟩ = form :=
  String.toList_ofList

structure Search where
  table : Array Discovery
  /-- The forms of the table, for fast look-up. -/
  known : Std.HashSet String
  /-- Indices that wait for their turn, each with its depth. -/
  queue : Queue (Nat × Nat)
  /-- Some form was left out because it lies past the depth limit. -/
  truncated : Bool

namespace Search

def initial (start : String) : Search where
  table := #[⟨start, none⟩]
  known := (∅ : Std.HashSet String).insert start
  queue := .singleton (0, 1)
  truncated := false

/-- The forms from the start symbol to an index, last form first. -/
def ancestry (table : Array Discovery) (index : Nat) : List Word :=
  match table[index]? with
  | none => []
  | some d =>
    match d.parent with
    | none => [d.form]
    | some parent => if parent < index then d.form :: ancestry table parent else [d.form]

/-- The forms from the start symbol to an index. -/
def trace (table : Array Discovery) (index : Nat) : List Word := (ancestry table index).reverse

/-- A new entry changes no path to an older one. -/
theorem ancestry_push {table : Array Discovery} {index : Nat} (d : Discovery)
    (stored : index < table.size) : ancestry (table.push d) index = ancestry table index := by
  induction index using Nat.strongRecOn with
  | ind index ih =>
    have entry : (table.push d)[index]? = table[index]? := by
      rw [Array.getElem?_push, if_neg (Nat.ne_of_lt stored)]
    rw [ancestry, ancestry, entry]
    cases table[index]? with
    | none => rfl
    | some e =>
      cases hp : e.parent with
      | none => simp only [hp]
      | some parent =>
        simp only [hp]
        split
        · next before => rw [ih parent before (Nat.lt_trans before stored)]
        · rfl

/-- The path to a new entry is the path to its parent and one form more. -/
theorem ancestry_push_size {table : Array Discovery} {index : Nat} (form : String)
    (stored : index < table.size) :
    ancestry (table.push ⟨form, some index⟩) table.size = form.toList :: ancestry table index := by
  rw [ancestry, Array.getElem?_push_size]
  simp only [if_pos stored, ancestry_push _ stored, Discovery.form]

theorem ancestry_eq_cons {table : Array Discovery} {index : Nat} {d : Discovery}
    (entry : table[index]? = some d) : ∃ earlier, ancestry table index = d.form :: earlier := by
  rw [ancestry, entry]
  cases hp : d.parent with
  | none => exact ⟨[], by simp only [hp]⟩
  | some parent =>
    simp only [hp]
    split
    · exact ⟨_, rfl⟩
    · exact ⟨[], rfl⟩

/-- Takes in one form next to the form at `index`, which has the given depth. A known form changes
nothing; a form past the depth limit is only noted; `none` when the table is full. -/
def offer (limits : Limits) (index depth : Nat) (s : Search) (form : String) : Option Search :=
  if s.known.contains form then some s
  else if limits.maxDepth ≤ depth then some { s with truncated := true }
  else if limits.maxStates ≤ s.table.size then none
  else
    let fresh := s.table.size
    some {
      table := s.table.push ⟨form, some index⟩
      known := s.known.insert form
      queue := s.queue.enqueue (fresh, depth + 1)
      truncated := s.truncated }

/-- Offers the successors of the form at `index`, in order. Past the depth limit they can only be
noted, which is done once. -/
def expand (g : Grammar) (limits : Limits) (index depth : Nat) (form : String) (s : Search) :
    Option Search :=
  if limits.maxDepth ≤ depth ∧ s.truncated then some s
  else g.sweep (offer limits index depth) form s

/-- Bounds the turns to come: the room in the table and the indices that wait. -/
def remaining (limits : Limits) (s : Search) : Nat :=
  (limits.maxStates - s.table.size) + s.queue.size

/-- All that a form taken in can change. -/
theorem offer_eq_some {limits : Limits} {index depth : Nat} {s t : Search} {form : String}
    (taken : offer limits index depth s form = some t) :
    (form ∈ s.known ∧ t = s) ∨
    (form ∉ s.known ∧ limits.maxDepth ≤ depth ∧ t = { s with truncated := true }) ∨
    (form ∉ s.known ∧ depth < limits.maxDepth ∧ s.table.size < limits.maxStates ∧
      t = { table := s.table.push ⟨form, some index⟩
            known := s.known.insert form
            queue := s.queue.enqueue (s.table.size, depth + 1)
            truncated := s.truncated }) := by
  unfold offer at taken
  split at taken
  · next known => exact Or.inl ⟨known, (Option.some.inj taken).symm⟩
  · next fresh =>
    split at taken
    · next past => exact Or.inr (Or.inl ⟨fresh, past, (Option.some.inj taken).symm⟩)
    · next short =>
      split at taken
      · cases taken
      · next room =>
        exact Or.inr (Or.inr
          ⟨fresh, Nat.lt_of_not_le short, Nat.lt_of_not_le room, (Option.some.inj taken).symm⟩)

theorem remaining_of_offer {limits : Limits} {index depth : Nat} {s t : Search} {form : String}
    (h : offer limits index depth s form = some t) : remaining limits t = remaining limits s := by
  rcases offer_eq_some h with ⟨_, rfl⟩ | ⟨_, _, rfl⟩ | ⟨_, _, room, rfl⟩
  · rfl
  · rfl
  · simp only [remaining, Array.size_push, Queue.size_enqueue]
    omega

theorem remaining_of_foldlM {limits : Limits} {index depth : Nat} {forms : List Word}
    {s t : Search}
    (h : forms.foldlM (fun s w => offer limits index depth s (String.ofList w)) s = some t) :
    remaining limits t = remaining limits s :=
  foldlM_induction (motive := fun u => remaining limits u = remaining limits s) h rfl
    fun _ _ _ _ taken same => (remaining_of_offer taken).trans same

theorem offer_of_truncated {limits : Limits} {index depth : Nat} {s : Search}
    (past : limits.maxDepth ≤ depth) (noted : s.truncated) (form : String) :
    offer limits index depth s form = some s := by
  have hs : { s with truncated := true } = s := by simp [← noted]
  unfold offer
  rw [if_pos past, hs]
  split <;> rfl

/-- All successors are offered, in order, up to the first that the full table refuses. -/
theorem expand_eq_foldlM (g : Grammar) (limits : Limits) (index depth : Nat) (form : String)
    (s : Search) :
    expand g limits index depth form s =
      (g.successors form.toList).foldlM
        (fun s w => offer limits index depth s (String.ofList w)) s := by
  unfold expand
  split
  · next h =>
    generalize g.successors form.toList = forms
    induction forms with
    | nil => rfl
    | cons w forms ih => rw [List.foldlM_cons, offer_of_truncated h.1 h.2]; exact ih
  · exact g.sweep_eq_foldlM _ _ _

theorem remaining_of_expand {g : Grammar} {limits : Limits} {index depth : Nat} {form : String}
    {s t : Search} (h : expand g limits index depth form s = some t) :
    remaining limits t = remaining limits s :=
  remaining_of_foldlM (expand_eq_foldlM g limits index depth form s ▸ h)

/-- Takes the oldest index. The search is over when its form is the goal, when the table is full or
when no index is left. -/
def turn (g : Grammar) (goal : String) (limits : Limits) (s : Search) : Turn Search :=
  match s.queue.dequeue? with
  | none => .answer (if s.truncated then .depthExceeded else .notFound)
  | some ((index, depth), rest) =>
    match s.table[index]? with
    | none => .next { s with queue := rest }
    | some current =>
      if current.packed = goal then .answer (.found (trace s.table index))
      else
        match expand g limits index depth current.packed { s with queue := rest } with
        | none => .answer .stateLimitReached
        | some next => .next next

section

variable {g : Grammar} {goal : String} {limits : Limits} {index depth : Nat}
  {rest : Queue (Nat × Nat)} {s t : Search} {d : Discovery}

/-- A turn that goes on has taken an index. -/
theorem exists_dequeue? (goes : turn g goal limits s = .next t) :
    ∃ index depth rest, s.queue.dequeue? = some ((index, depth), rest) := by
  unfold turn at goes
  split at goes
  · cases goes
  · next index depth rest first => exact ⟨index, depth, rest, first⟩

/-- A turn goes on when the form it takes is not the goal and its successors find room. -/
theorem turn_eq_next_iff (first : s.queue.dequeue? = some ((index, depth), rest))
    (entry : s.table[index]? = some d) :
    turn g goal limits s = .next t ↔
      d.packed ≠ goal ∧ expand g limits index depth d.packed { s with queue := rest } = some t := by
  simp only [turn, first, entry]
  by_cases same : d.packed = goal
  · simp [same]
  · cases expand g limits index depth d.packed { s with queue := rest } <;> simp [same]

theorem turn_eq_found (first : s.queue.dequeue? = some ((index, depth), rest))
    (entry : s.table[index]? = some d) :
    turn g d.packed limits s = .answer (.found (trace s.table index)) := by
  simp [turn, first, entry]

/-- What a turn finds is the path to the form it takes. -/
theorem exists_of_turn_eq_found {steps : List Word}
    (ends : turn g goal limits s = .answer (.found steps)) :
    ∃ index depth rest d, s.queue.dequeue? = some ((index, depth), rest) ∧
      s.table[index]? = some d ∧ d.packed = goal ∧ steps = trace s.table index := by
  unfold turn at ends
  split at ends
  · split at ends <;> cases ends
  · next index depth rest first =>
    split at ends
    · cases ends
    · next d entry =>
      split at ends
      · next same =>
        obtain rfl := Derivation.found.inj (Turn.answer.inj ends)
        exact ⟨index, depth, rest, d, first, entry, same, rfl⟩
      · split at ends <;> cases ends

end

theorem remaining_of_turn {g : Grammar} {goal : String} {limits : Limits} {s t : Search}
    (h : turn g goal limits s = .next t) : remaining limits t < remaining limits s := by
  unfold turn at h
  split at h
  · cases h
  · next index depth rest hq =>
    have hsize := Queue.size_of_dequeue? hq
    split at h
    · cases h
      simp only [remaining]
      omega
    · split at h
      · cases h
      · split at h
        · cases h
        · next hx =>
          cases h
          rw [remaining_of_expand hx]
          simp only [remaining]
          omega

/-- Takes turns until there is an answer. -/
def run (g : Grammar) (goal : String) (limits : Limits) (s : Search) : Derivation :=
  match _h : turn g goal limits s with
  | .answer d => d
  | .next t => run g goal limits t
termination_by remaining limits s
decreasing_by exact remaining_of_turn _h

theorem run_of_answer {g : Grammar} {goal : String} {limits : Limits} {s : Search} {d : Derivation}
    (ends : turn g goal limits s = .answer d) : run g goal limits s = d := by
  rw [run]
  split <;> simp_all

theorem run_of_next {g : Grammar} {goal : String} {limits : Limits} {s t : Search}
    (goes : turn g goal limits s = .next t) : run g goal limits s = run g goal limits t := by
  rw [run]
  split <;> simp_all

end Search

/-- Searches for a shortest derivation of a target; the marker of the empty string as target asks
for the empty form. -/
def Grammar.derive (g : Grammar) (target : Word) (limits : Limits) : Derivation :=
  Search.run g (String.ofList (goal target)) limits (Search.initial (String.ofList g.start))

end Chomsky
