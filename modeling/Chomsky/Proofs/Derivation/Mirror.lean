import Mathlib.Data.List.Forall2
import Chomsky.Derivation.PathSearch
import Chomsky.Derivation.Search

/-!
# The table holds the paths

The search on a table of parents and the plain search on whole paths go through the same states: an
index in the queue of the one stands for a path in the queue of the other, the path that `ancestry`
rebuilds (`Search.Stands`). Each form taken in and each turn keep the two alike (`Mirrors.offer`,
`Mirrors.turn`), so both runs give one answer (`Mirrors.run`, `Grammar.derive_eq_derivePlain`).
-/

namespace Chomsky

/-- Two turns that give the same answer, or next states of which `R` holds. -/
inductive Turn.Agree {σ τ : Type} (R : σ → τ → Prop) : Turn σ → Turn τ → Prop where
  | answer (d : Derivation) : Agree R (.answer d) (.answer d)
  | next {s : σ} {t : τ} (related : R s t) : Agree R (.next s) (.next t)

namespace Search

variable {s : Search} {p : PathSearch}
  {table : Array Discovery} {waiting : Nat × Nat} {index depth : Nat} {path : List Word}

theorem ofList_beq (form other : Word) :
    (String.ofList form == String.ofList other) = (other == form) := by
  rw [Bool.eq_iff_iff, beq_iff_eq, beq_iff_eq, String.ofList_inj, eq_comm]

/-- An index that waits stands for the path that the table holds for it, of the noted length. -/
structure Stands (table : Array Discovery) (waiting : Nat × Nat) (path : List Word) : Prop where
  stored : waiting.1 < table.size
  path_eq : ancestry table waiting.1 = path
  length_eq : path.length = waiting.2

theorem Stands.push (stands : Stands table waiting path) (d : Discovery) :
    Stands (table.push d) waiting path where
  stored := by
    rw [Array.size_push]
    exact Nat.lt_succ_of_lt stands.stored
  path_eq := by rw [ancestry_push d stands.stored, stands.path_eq]
  length_eq := stands.length_eq

theorem Stands.child (stands : Stands table (index, depth) path) (form : Word) :
    Stands (table.push ⟨String.ofList form, some index⟩) (table.size, depth + 1) (form :: path) where
  stored := by simp
  path_eq := by rw [ancestry_push_size _ stands.stored, stands.path_eq, String.toList_ofList]
  length_eq := by rw [List.length_cons, stands.length_eq]

/-- Both searches know the same forms, and what waits in the one stands for what waits in the other. -/
structure Mirrors (s : Search) (p : PathSearch) : Prop where
  known : ∀ form, s.known.contains (String.ofList form) = p.known.contains form
  size : s.table.size = p.known.length
  queue : List.Forall₂ (Stands s.table) s.queue.toList p.queue
  truncated : s.truncated = p.truncated

namespace Mirrors

theorem initial (start : Word) :
    Mirrors (Search.initial (String.ofList start)) (PathSearch.initial start) where
  known := by
    intro form
    rw [Search.initial, PathSearch.initial, Std.HashSet.contains_insert, ofList_beq]
    simp [Bool.beq_eq_decide_eq]
  size := rfl
  queue := by
    refine .cons ⟨by simp [Search.initial], ?_, rfl⟩ .nil
    simp [Search.initial, ancestry, Discovery.form]
  truncated := rfl

/-- A new form, stored under the parent at `index` by the one and put on its path by the other. -/
theorem store (mirrors : Mirrors s p) (stands : Stands s.table (index, depth) path) (form : Word) :
    Mirrors
      { table := s.table.push ⟨String.ofList form, some index⟩
        known := s.known.insert (String.ofList form)
        queue := s.queue.enqueue (s.table.size, depth + 1)
        truncated := s.truncated }
      ⟨form :: p.known, p.queue ++ [form :: path], p.truncated⟩ where
  known := by
    intro other
    rw [Std.HashSet.contains_insert, List.contains_cons, mirrors.known other, ofList_beq]
  size := by rw [Array.size_push, List.length_cons, mirrors.size]
  queue := by
    rw [Queue.toList_enqueue]
    have kept := mirrors.queue.imp fun _ _ stands => Stands.push stands ⟨String.ofList form, some index⟩
    exact List.rel_append kept (.cons (stands.child form) .nil)
  truncated := mirrors.truncated

theorem offer (mirrors : Mirrors s p) (stands : Stands s.table (index, depth) path)
    (limits : Limits) (form : Word) :
    Option.Rel (fun t q => Mirrors t q ∧ Stands t.table (index, depth) path)
      (Search.offer limits index depth s (String.ofList form))
      (PathSearch.offer limits path p form) := by
  have length : path.length = depth := stands.length_eq
  rw [Search.offer, PathSearch.offer, mirrors.known form, mirrors.size, length]
  by_cases known : p.known.contains form
  · rw [if_pos known, if_pos known]
    exact .some ⟨mirrors, stands⟩
  · rw [if_neg known, if_neg known]
    by_cases past : limits.maxDepth ≤ depth
    · rw [if_pos past, if_pos past]
      exact .some ⟨{ mirrors with truncated := rfl }, stands⟩
    · rw [if_neg past, if_neg past]
      by_cases full : limits.maxStates ≤ p.known.length
      · rw [if_pos full, if_pos full]
        exact .none
      · rw [if_neg full, if_neg full]
        exact .some ⟨mirrors.size ▸ mirrors.store stands form, stands.push _⟩

theorem foldlM (mirrors : Mirrors s p) (stands : Stands s.table (index, depth) path)
    (limits : Limits) (forms : List Word) :
    Option.Rel Mirrors
      (forms.foldlM (fun s w => Search.offer limits index depth s (String.ofList w)) s)
      (forms.foldlM (PathSearch.offer limits path) p) := by
  induction forms generalizing s p with
  | nil => exact .some mirrors
  | cons form forms ih =>
    rw [List.foldlM_cons, List.foldlM_cons]
    have first := mirrors.offer stands limits form
    generalize Search.offer limits index depth s (String.ofList form) = t at first ⊢
    generalize PathSearch.offer limits path p form = q at first ⊢
    cases first with
    | some both => exact ih both.1 both.2
    | none => exact .none

theorem turn (mirrors : Mirrors s p) (g : Grammar) (goal : Word) (limits : Limits) :
    Turn.Agree Mirrors (Search.turn g (String.ofList goal) limits s)
      (PathSearch.turn g goal limits p) := by
  cases taken : s.queue.dequeue? with
  | none =>
    have idle : s.queue.toList = [] := Queue.dequeue?_eq_none_iff.1 taken
    have queue := mirrors.queue
    rw [idle, List.forall₂_nil_left_iff] at queue
    simp only [Search.turn, taken, PathSearch.turn, queue, mirrors.truncated]
    exact .answer _
  | some first =>
    obtain ⟨⟨index, depth⟩, rest⟩ := first
    have queue := mirrors.queue
    rw [Queue.toList_of_dequeue? taken, List.forall₂_cons_left_iff] at queue
    obtain ⟨path, paths, stands, others, front⟩ := queue
    obtain ⟨d, entry⟩ : ∃ d, s.table[index]? = some d :=
      ⟨_, Array.getElem?_eq_getElem stands.stored⟩
    obtain ⟨earlier, rebuilt⟩ := ancestry_eq_cons entry
    obtain rfl := rebuilt.symm.trans stands.path_eq
    have goal_iff : d.packed = String.ofList goal ↔ d.form = goal := by
      rw [Discovery.form, ← String.toList_inj, String.toList_ofList]
    simp only [Search.turn, taken, entry, PathSearch.turn, front]
    by_cases same : d.form = goal
    · rw [if_pos (goal_iff.2 same), if_pos same, trace, rebuilt]
      exact .answer _
    · rw [if_neg (fun found => same (goal_iff.1 found)), if_neg same, expand_eq_foldlM]
      have before : Mirrors { s with queue := rest } { p with queue := paths } :=
        { mirrors with queue := others }
      have after := before.foldlM stands limits (g.successors d.form)
      rw [← Discovery.form]
      generalize (g.successors d.form).foldlM
        (fun s w => Search.offer limits index depth s (String.ofList w))
        { s with queue := rest } = t at after ⊢
      generalize (g.successors d.form).foldlM (PathSearch.offer limits (d.form :: earlier))
        { p with queue := paths } = q at after ⊢
      cases after with
      | some related => exact .next related
      | none => exact .answer _

/-- The search on the table answers as the plain search does. -/
theorem run (mirrors : Mirrors s p) (g : Grammar) (goal : Word) (limits : Limits) :
    Search.run g (String.ofList goal) limits s = PathSearch.run g goal limits p := by
  induction s using Search.run.induct g (String.ofList goal) limits generalizing p with
  | case1 s d ends =>
    have turns := mirrors.turn g goal limits
    rw [ends] at turns
    cases h : PathSearch.turn g goal limits p with
    | answer e =>
      rw [h] at turns
      cases turns
      rw [Search.run_of_answer ends, PathSearch.run_of_answer h]
    | next q =>
      rw [h] at turns
      cases turns
  | case2 s t goes ih =>
    have turns := mirrors.turn g goal limits
    rw [goes] at turns
    cases h : PathSearch.turn g goal limits p with
    | answer e =>
      rw [h] at turns
      cases turns
    | next q =>
      rw [h] at turns
      cases turns with
      | next related => rw [Search.run_of_next goes, PathSearch.run_of_next h, ih related]

end Mirrors

end Search

/-- Storing each form once, with the index of the form it came from, loses nothing: the answer and its
steps are those of the search that carries whole paths. -/
theorem Grammar.derive_eq_derivePlain (g : Grammar) (target : Word) (limits : Limits) :
    g.derive target limits = g.derivePlain target limits :=
  (Search.Mirrors.initial g.start).run g (goal target) limits

end Chomsky
