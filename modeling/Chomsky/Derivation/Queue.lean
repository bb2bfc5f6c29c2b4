/-!
# First-in, first-out queues

Two lists, so that both ends are cheap. Main statements: `toList_enqueue` and `toList_of_dequeue?`.
-/

namespace Chomsky

structure Queue (α : Type) where
  front : List α
  /-- The newer part, youngest first. -/
  back : List α

namespace Queue

variable {α : Type}

/-- The elements, oldest first. -/
def toList (q : Queue α) : List α := q.front ++ q.back.reverse

def singleton (a : α) : Queue α := ⟨[a], []⟩

def enqueue (q : Queue α) (a : α) : Queue α := ⟨q.front, a :: q.back⟩

/-- The oldest element and the others. -/
def dequeue? (q : Queue α) : Option (α × Queue α) :=
  match q.front with
  | a :: front => some (a, ⟨front, q.back⟩)
  | [] =>
    match q.back.reverse with
    | a :: front => some (a, ⟨front, []⟩)
    | [] => none

/-- The number of elements. -/
def size (q : Queue α) : Nat := q.toList.length

@[simp] theorem toList_singleton (a : α) : (singleton a).toList = [a] := rfl

@[simp] theorem toList_enqueue (q : Queue α) (a : α) : (q.enqueue a).toList = q.toList ++ [a] := by
  simp [enqueue, toList]

theorem toList_of_dequeue? {q r : Queue α} {a : α} (h : q.dequeue? = some (a, r)) :
    q.toList = a :: r.toList := by
  unfold dequeue? at h
  split at h
  · next front hf =>
    obtain ⟨rfl, rfl⟩ := Prod.mk.inj (Option.some.inj h)
    simp [toList, hf]
  · next hf =>
    split at h
    · next front hb =>
      obtain ⟨rfl, rfl⟩ := Prod.mk.inj (Option.some.inj h)
      simp [toList, hf, hb]
    · exact absurd h (by simp)

theorem dequeue?_eq_none_iff {q : Queue α} : q.dequeue? = none ↔ q.toList = [] := by
  cases hf : q.front <;> cases hb : q.back.reverse <;> simp [dequeue?, toList, hf, hb]

@[simp] theorem size_enqueue (q : Queue α) (a : α) : (q.enqueue a).size = q.size + 1 := by
  simp [size]

theorem size_of_dequeue? {q r : Queue α} {a : α} (h : q.dequeue? = some (a, r)) :
    q.size = r.size + 1 := by
  simp [size, toList_of_dequeue? h]

end Queue

end Chomsky
