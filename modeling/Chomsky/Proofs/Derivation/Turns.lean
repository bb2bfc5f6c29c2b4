import Mathlib.Data.List.Range
import Chomsky.Derivation.Search
import Chomsky.Proofs.Derivation.Levels

/-!
# The turns of a search

`Search.Visits` are the states in which a search takes its turns. In all of them the table is rooted
in the start symbol (`Search.Rooted`): each entry leads back over its parents, so the path to it is
a derivation. The queue holds what is stored and was not yet taken, in order and with the lengths
of the paths (`Search.Invariant`). A form taken in keeps this while the index in hand counts as the
first of the queue (`Invariant.offer`); then the index is let go (`Invariant.release`). Main
statement: `Grammar.turns_of_derive`.
-/

namespace Chomsky

namespace Search

/-- The states in which a search takes its turns, each with the indices that were taken from the
queue before, oldest first. -/
inductive Visits (g : Grammar) (goal : String) (limits : Limits) : List Nat → Search → Prop where
  | start : Visits g goal limits [] (initial (String.ofList g.start))
  | turn {taken : List Nat} {index depth : Nat} {rest : Queue (Nat × Nat)} {s t : Search}
      (visits : Visits g goal limits taken s)
      (first : s.queue.dequeue? = some ((index, depth), rest))
      (goes : Search.turn g goal limits s = .next t) : Visits g goal limits (taken ++ [index]) t

/-- The older table is the front of the newer one, and the paths to its entries stay. -/
structure Extends (older newer : Array Discovery) : Prop where
  size_le : older.size ≤ newer.size
  entry_eq : ∀ index < older.size, newer[index]? = older[index]?
  trace_eq : ∀ index < older.size, trace newer index = trace older index

/-- The start symbol comes first and has no parent. Every other form is one step from its parent,
which stands before it. -/
structure Rooted (g : Grammar) (table : Array Discovery) : Prop where
  root : table[0]? = some ⟨String.ofList g.start, none⟩
  parent : ∀ index d, table[index]? = some d → index ≠ 0 →
    ∃ before e, d.parent = some before ∧ before < index ∧ table[before]? = some e ∧
      g.Step e.form d.form

/-- What holds whenever a search takes a turn: `taken` are the indices that were taken from the
queue, `waiting` are those in it, each with its depth. -/
structure Invariant (g : Grammar) (limits : Limits) (taken : List Nat) (waiting : List (Nat × Nat))
    (s : Search) : Prop where
  distinct : (s.table.toList.map Discovery.form).Nodup
  rooted : Rooted g s.table
  few : s.table.size ≤ limits.states
  known_iff : ∀ form, form ∈ s.known ↔ ∃ d ∈ s.table, d.packed = form
  /-- Indices are taken in the order in which they are stored, and none gets lost. -/
  in_turn : taken ++ waiting.map Prod.fst = List.range s.table.size
  rising : (waiting.map Prod.snd).Pairwise (· ≤ ·)
  close : ∀ first ∈ waiting, ∀ second ∈ waiting, second.2 ≤ first.2 + 1
  short : ∀ pair ∈ waiting, pair.2 ≤ limits.depth
  depth_eq : ∀ pair ∈ waiting, (trace s.table pair.1).length = pair.2

variable {g : Grammar} {goal : String} {limits : Limits} {taken : List Nat}
  {waiting : List (Nat × Nat)} {index depth : Nat} {rest : Queue (Nat × Nat)} {s t : Search}
  {d e : Discovery} {table older newer newest : Array Discovery} {form : Word}

theorem lt_size (entry : table[index]? = some d) : index < table.size :=
  (Array.getElem?_eq_some_iff.1 entry).1

/-! ## Tables that grow -/

namespace Extends

theorem refl (table : Array Discovery) : Extends table table where
  size_le := le_rfl
  entry_eq := fun _ _ => rfl
  trace_eq := fun _ _ => rfl

theorem trans (first : Extends older newer) (second : Extends newer newest) :
    Extends older newest where
  size_le := first.size_le.trans second.size_le
  entry_eq := by
    intro index lt
    rw [second.entry_eq index (lt.trans_le first.size_le), first.entry_eq index lt]
  trace_eq := by
    intro index lt
    rw [second.trace_eq index (lt.trans_le first.size_le), first.trace_eq index lt]

theorem push (table : Array Discovery) (d : Discovery) : Extends table (table.push d) where
  size_le := by simp
  entry_eq := by
    intro index lt
    rw [Array.getElem?_push, if_neg (Nat.ne_of_lt lt)]
  trace_eq := by
    intro index lt
    rw [trace, trace, ancestry_push d lt]

theorem entry (grown : Extends older newer) (old : older[index]? = some d) :
    newer[index]? = some d := by
  rw [grown.entry_eq index (lt_size old), old]

theorem offer {form : String} (kept : Search.offer limits index depth s form = some t) :
    Extends s.table t.table := by
  rcases offer_eq_some kept with ⟨_, rfl⟩ | ⟨_, _, rfl⟩ | ⟨_, _, _, rfl⟩
  · exact refl _
  · exact refl _
  · exact push _ _

end Extends

/-! ## Paths -/

namespace Rooted

theorem trace_zero (rooted : Rooted g table) : trace table 0 = [g.start] := by
  rw [trace, ancestry, rooted.root]
  simp

/-- The path to a later entry goes over its parent. -/
theorem trace_eq_concat (rooted : Rooted g table) (entry : table[index]? = some d)
    (later : index ≠ 0) :
    ∃ before e, before < index ∧ table[before]? = some e ∧ g.Step e.form d.form ∧
      trace table index = trace table before ++ [d.form] := by
  obtain ⟨before, e, parent, lt, stored, step⟩ := rooted.parent index d entry later
  refine ⟨before, e, lt, stored, step, ?_⟩
  rw [trace, ancestry, entry]
  simp only [parent, if_pos lt, List.reverse_cons]
  rfl

/-- The path to an entry derives its form. -/
theorem isDerivation (rooted : Rooted g table) (entry : table[index]? = some d) :
    g.IsDerivation d.form (trace table index) := by
  -- A parent stands before its child, so the induction is on the index.
  induction index using Nat.strongRecOn generalizing d with
  | ind index ih =>
    by_cases first : index = 0
    · subst first
      obtain rfl := Option.some.inj (rooted.root.symm.trans entry)
      rw [rooted.trace_zero, Discovery.form_ofList]
      exact Grammar.isDerivation_start
    · obtain ⟨before, e, lt, stored, step, path⟩ := rooted.trace_eq_concat entry first
      rw [path]
      exact (ih before lt stored).concat step

theorem push (rooted : Rooted g table) (entry : table[index]? = some d)
    (step : g.Step d.form form) :
    Rooted g (table.push ⟨String.ofList form, some index⟩) where
  root := (Extends.push _ _).entry rooted.root
  parent := by
    have grown := Extends.push table ⟨String.ofList form, some index⟩
    intro other e stored later
    rw [Array.getElem?_push] at stored
    split at stored
    · next last =>
      obtain rfl := Option.some.inj stored
      refine ⟨index, d, rfl, last ▸ lt_size entry, grown.entry entry, ?_⟩
      rwa [Discovery.form_ofList]
    · obtain ⟨before, f, parent, lt, old, step⟩ := rooted.parent other e stored later
      exact ⟨before, f, parent, lt, grown.entry old, step⟩

end Rooted

/-! ## The invariant -/

namespace Invariant

theorem initial (g : Grammar) (limits : Limits) :
    Invariant g limits [] (Search.initial (String.ofList g.start)).queue.toList
      (Search.initial (String.ofList g.start)) where
  distinct := by simp [Search.initial]
  rooted := by
    refine ⟨by simp [Search.initial], ?_⟩
    intro index d entry later
    have lt : index < 1 := lt_size entry
    exact absurd (Nat.lt_one_iff.1 lt) later
  few := le_max_left 1 limits.maxStates
  known_iff := by
    intro form
    rw [Search.initial, Std.HashSet.mem_insert, beq_iff_eq]
    simp
  in_turn := by simp [Search.initial]
  rising := by simp [Search.initial]
  close := by simp [Search.initial]
  short := by
    intro pair member
    obtain rfl := List.mem_singleton.1 member
    exact le_max_left 1 limits.maxDepth
  depth_eq := by
    intro pair member
    obtain rfl := List.mem_singleton.1 member
    simp [Search.initial, trace, ancestry]

/-- What waits is stored. -/
theorem exists_entry (inv : Invariant g limits taken waiting s)
    (member : (index, depth) ∈ waiting) : ∃ d, s.table[index]? = some d := by
  have inside : index ∈ List.range s.table.size := by
    rw [← inv.in_turn]
    exact List.mem_append_right _ (List.mem_map_of_mem member)
  exact ⟨_, Array.getElem?_eq_getElem (List.mem_range.1 inside)⟩

/-- A form has one index. -/
theorem index_eq {other : Nat} (inv : Invariant g limits taken waiting s)
    (first : s.table[index]? = some d) (second : s.table[other]? = some e)
    (same : d.packed = e.packed) : index = other := by
  have inside : index < (s.table.toList.map Discovery.form).length := by
    simpa using lt_size first
  refine (List.getElem?_inj inside inv.distinct).1 ?_
  simp [first, second, Discovery.form, same]

/-- The depths that wait behind an index are its own depth or one more. -/
theorem depth_bounds (inv : Invariant g limits taken ((index, depth) :: waiting) s) :
    ∀ pair ∈ (index, depth) :: waiting, depth ≤ pair.2 ∧ pair.2 ≤ depth + 1 := by
  intro pair member
  refine ⟨?_, inv.close _ List.mem_cons_self pair member⟩
  rcases List.mem_cons.1 member with rfl | behind
  · exact le_rfl
  · exact (List.pairwise_cons.1 inv.rising).1 _ (List.mem_map_of_mem behind)

/-- A new form, stored next to the form in hand, whose index stands in front of the queue. -/
theorem keep (inv : Invariant g limits taken ((index, depth) :: s.queue.toList) s)
    (entry : s.table[index]? = some d) (step : g.Step d.form form)
    (fresh : String.ofList form ∉ s.known) (allowed : depth < limits.maxDepth)
    (room : s.table.size < limits.maxStates) :
    Invariant g limits taken ((index, depth) :: (s.queue.enqueue (s.table.size, depth + 1)).toList)
      { table := s.table.push ⟨String.ofList form, some index⟩
        known := s.known.insert (String.ofList form)
        queue := s.queue.enqueue (s.table.size, depth + 1)
        truncated := s.truncated } := by
  have bounds := inv.depth_bounds
  have grown := Extends.push s.table ⟨String.ofList form, some index⟩
  rw [Queue.toList_enqueue, ← List.cons_append]
  exact {
    distinct := by
      rw [Array.toList_push, List.map_append, List.map_singleton, ← List.concat_eq_append]
      refine inv.distinct.concat ?_
      intro member
      obtain ⟨e, old, same⟩ := List.mem_map.1 member
      exact fresh ((inv.known_iff _).2 ⟨e, Array.mem_toList_iff.1 old, String.toList_inj.1 same⟩)
    rooted := inv.rooted.push entry step
    few := by
      rw [Array.size_push]
      exact Nat.le_trans room (le_max_right 1 limits.maxStates)
    known_iff := by
      intro other
      rw [Std.HashSet.mem_insert, beq_iff_eq, inv.known_iff]
      simp only [Array.mem_push]
      constructor
      · rintro (rfl | ⟨e, old, rfl⟩)
        · exact ⟨_, Or.inr rfl, rfl⟩
        · exact ⟨e, Or.inl old, rfl⟩
      · rintro ⟨e, old | rfl, rfl⟩
        · exact Or.inr ⟨e, old, rfl⟩
        · exact Or.inl rfl
    in_turn := by
      rw [Array.size_push, List.range_succ, ← inv.in_turn, List.map_append, List.append_assoc]
      rfl
    rising := by
      rw [List.map_append, List.pairwise_append]
      refine ⟨inv.rising, List.pairwise_singleton _ _, ?_⟩
      intro label member other last
      obtain rfl := List.mem_singleton.1 last
      obtain ⟨pair, inside, rfl⟩ := List.mem_map.1 member
      exact (bounds pair inside).2
    close := by
      intro first member second other
      rcases List.mem_append.1 member with member | member <;>
        rcases List.mem_append.1 other with other | other
      · exact inv.close first member second other
      · obtain rfl := List.mem_singleton.1 other
        exact Nat.succ_le_succ (bounds first member).1
      · obtain rfl := List.mem_singleton.1 member
        exact Nat.le_succ_of_le (bounds second other).2
      · obtain rfl := List.mem_singleton.1 member
        obtain rfl := List.mem_singleton.1 other
        exact Nat.le_succ _
    short := by
      intro pair member
      rcases List.mem_append.1 member with member | member
      · exact inv.short pair member
      · obtain rfl := List.mem_singleton.1 member
        exact Nat.le_trans allowed (le_max_right 1 limits.maxDepth)
    depth_eq := by
      intro pair member
      rcases List.mem_append.1 member with member | member
      · obtain ⟨e, old⟩ := inv.exists_entry member
        rw [grown.trace_eq pair.1 (lt_size old)]
        exact inv.depth_eq pair member
      · obtain rfl := List.mem_singleton.1 member
        have parent : (trace s.table index).length = depth := inv.depth_eq _ List.mem_cons_self
        rw [trace, List.length_reverse] at parent ⊢
        rw [ancestry_push_size _ (lt_size entry), List.length_cons, parent] }

/-- One successor of the form in hand taken in. -/
theorem offer (inv : Invariant g limits taken ((index, depth) :: s.queue.toList) s)
    (entry : s.table[index]? = some d) (step : g.Step d.form form)
    (kept : Search.offer limits index depth s (String.ofList form) = some t) :
    Invariant g limits taken ((index, depth) :: t.queue.toList) t := by
  rcases offer_eq_some kept with ⟨_, rfl⟩ | ⟨_, _, rfl⟩ | ⟨fresh, allowed, room, rfl⟩
  · exact inv
  · exact { inv with }
  · exact inv.keep entry step fresh allowed room

theorem expand (inv : Invariant g limits taken ((index, depth) :: s.queue.toList) s)
    (entry : s.table[index]? = some d)
    (expanded : Search.expand g limits index depth d.packed s = some t) :
    Invariant g limits taken ((index, depth) :: t.queue.toList) t := by
  rw [expand_eq_foldlM] at expanded
  refine (foldlM_induction (motive := fun u =>
    Invariant g limits taken ((index, depth) :: u.queue.toList) u ∧ u.table[index]? = some d)
    expanded ⟨inv, entry⟩ ?_).1
  rintro form member u v kept ⟨inv, entry⟩
  have step : g.Step d.form form := Grammar.mem_successors_iff.1 member
  exact ⟨inv.offer entry step kept, (Extends.offer kept).entry entry⟩

/-- The index in hand is let go. -/
theorem release (inv : Invariant g limits taken ((index, depth) :: waiting) s) :
    Invariant g limits (taken ++ [index]) waiting s where
  __ := inv
  in_turn := by simpa using inv.in_turn
  rising := (List.pairwise_cons.1 inv.rising).2
  close := fun first member second other =>
    inv.close first (List.mem_cons_of_mem _ member) second (List.mem_cons_of_mem _ other)
  short := fun pair member => inv.short pair (List.mem_cons_of_mem _ member)
  depth_eq := fun pair member => inv.depth_eq pair (List.mem_cons_of_mem _ member)

theorem turn (inv : Invariant g limits taken s.queue.toList s)
    (first : s.queue.dequeue? = some ((index, depth), rest))
    (goes : Search.turn g goal limits s = .next t) :
    Invariant g limits (taken ++ [index]) t.queue.toList t := by
  rw [Queue.toList_of_dequeue? first] at inv
  obtain ⟨d, entry⟩ := inv.exists_entry List.mem_cons_self
  obtain ⟨_, expanded⟩ := (turn_eq_next_iff first entry).1 goes
  have in_hand : Invariant g limits taken ((index, depth) :: rest.toList)
      { s with queue := rest } := { inv with }
  have stored : ({ s with queue := rest } : Search).table[index]? = some d := entry
  exact (expand in_hand stored expanded).release

end Invariant

/-! ## The states of a run -/

namespace Visits

theorem invariant (visits : Visits g goal limits taken s) :
    Invariant g limits taken s.queue.toList s := by
  induction visits with
  | start => exact .initial g limits
  | turn _ first goes ih => exact ih.turn first goes

/-- The search goes on from a visited state to its answer, which one of the states gives. -/
theorem exists_answer (visits : Visits g goal limits taken s) :
    ∃ taken t, Visits g goal limits taken t ∧
      Search.turn g goal limits t = .answer (run g goal limits s) := by
  induction s using Search.run.induct g goal limits generalizing taken with
  | case1 s d ends => exact ⟨taken, s, visits, by rw [run_of_answer ends, ends]⟩
  | case2 s t goes ih =>
    obtain ⟨index, depth, rest, first⟩ := exists_dequeue? goes
    rw [run_of_next goes]
    exact ih (visits.turn first goes)

end Visits

theorem exists_visits_derive (g : Grammar) (target : Word) (limits : Limits) :
    ∃ taken s, Visits g (String.ofList (Chomsky.goal target)) limits taken s ∧
      turn g (String.ofList (Chomsky.goal target)) limits s = .answer (g.derive target limits) :=
  Visits.start.exists_answer

end Search

/-- Whenever a search takes a turn, its table is rooted in the start symbol, its queue holds what is
stored and was not yet taken, and the depths in the queue are the lengths of the paths. So each path
that the table holds is a derivation, and the search comes to its answer when it has taken no more
indices than the state limit, the one of the last turn included. -/
theorem Grammar.turns_of_derive (g : Grammar) (target : Word) (limits : Limits) :
    (∀ taken s, Search.Visits g (String.ofList (goal target)) limits taken s →
      Search.Invariant g limits taken s.queue.toList s ∧
        ∀ index d, s.table[index]? = some d →
          g.IsDerivation d.form (Search.trace s.table index)) ∧
    ∃ taken s, Search.Visits g (String.ofList (goal target)) limits taken s ∧
      Search.turn g (String.ofList (goal target)) limits s =
        .answer (g.derive target limits) ∧
      (taken ++ (s.queue.toList.take 1).map Prod.fst).length ≤ limits.states := by
  refine ⟨?_, ?_⟩
  · intro taken s visits
    have inv := visits.invariant
    exact ⟨inv, fun index d entry => inv.rooted.isDerivation entry⟩
  · obtain ⟨taken, s, visits, ends⟩ := Search.exists_visits_derive g target limits
    have few := visits.invariant.few
    have count := congrArg List.length visits.invariant.in_turn
    simp only [List.length_append, List.length_map, List.length_range] at count
    refine ⟨taken, s, visits, ends, ?_⟩
    simp only [List.length_append, List.length_map, List.length_take]
    omega

end Chomsky
