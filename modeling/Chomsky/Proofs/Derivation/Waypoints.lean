import Chomsky.Proofs.Derivation.Answers
import Chomsky.Proofs.Derivation.Turns

/-!
# What a search passes on its way

The goal of a search decides only where it stops. Up to that turn the searches for two goals visit
the same states (`Search.Visits.change_goal`), so whatever is first in the queue is what a search
for it finds (`Search.Visits.run_eq_found`). The forms of a derivation that is found were all first
in the queue before. Main statement: `Grammar.derive_getElem`.
-/

namespace Chomsky

namespace Search

variable {g : Grammar} {goal other : String} {limits : Limits} {taken : List Nat}
  {index before depth : Nat} {rest : Queue (Nat × Nat)} {s t : Search} {d e : Discovery}
  {table : Array Discovery} {form : Word}

/-- Each form on the path to an entry is stored, and the path to it is the front of this one. -/
theorem Rooted.exists_of_trace_eq {earlier later : List Word} (rooted : Rooted g table)
    (entry : table[index]? = some d) (path : trace table index = earlier ++ form :: later) :
    ∃ before e, before ≤ index ∧ table[before]? = some e ∧ e.form = form ∧
      trace table before = earlier ++ [form] := by
  induction index using Nat.strongRecOn generalizing d later with
  | ind index ih =>
    rcases List.eq_nil_or_concat later with rfl | ⟨later, last, rfl⟩
    · have ends := (rooted.isDerivation entry).last
      rw [path, List.getLast?_concat] at ends
      exact ⟨index, d, le_rfl, entry, (Option.some.inj ends).symm, path⟩
    · have longer : trace table index = (earlier ++ form :: later) ++ [last] := by simp [path]
      have below : index ≠ 0 := by
        rintro rfl
        have short := congrArg List.length longer
        rw [rooted.trace_zero] at short
        simp only [List.length_append, List.length_cons, List.length_nil] at short
        omega
      obtain ⟨before, e, lt, stored, _, same⟩ := rooted.trace_eq_concat entry below
      have front : trace table before = earlier ++ form :: later :=
        List.append_inj_left' (same.symm.trans longer) rfl
      obtain ⟨i, f, le, found⟩ := ih before lt stored front
      exact ⟨i, f, le.trans lt.le, found⟩

theorem Extends.expand {form : String}
    (expanded : Search.expand g limits index depth form s = some t) : Extends s.table t.table := by
  rw [expand_eq_foldlM] at expanded
  exact foldlM_induction (motive := fun u => Extends s.table u.table) expanded (.refl _)
    fun _ _ _ _ kept grown => grown.trans (.offer kept)

namespace Visits

theorem exists_entry (visits : Visits g goal limits taken s)
    (first : s.queue.dequeue? = some ((index, depth), rest)) : ∃ d, s.table[index]? = some d := by
  have inv := visits.invariant
  rw [Queue.toList_of_dequeue? first] at inv
  exact inv.exists_entry List.mem_cons_self

theorem extends_of_turn (visits : Visits g goal limits taken s)
    (first : s.queue.dequeue? = some ((index, depth), rest))
    (goes : Search.turn g goal limits s = .next t) : Extends s.table t.table := by
  obtain ⟨d, entry⟩ := visits.exists_entry first
  obtain ⟨_, expanded⟩ := (turn_eq_next_iff first entry).1 goes
  have grown : Extends ({ s with queue := rest } : Search).table t.table := .expand expanded
  exact grown

/-- An index that was taken was first in the queue of an earlier state. -/
theorem exists_of_mem (visits : Visits g goal limits taken s) (member : index ∈ taken) :
    ∃ earlier t depth rest, Visits g goal limits earlier t ∧
      t.queue.dequeue? = some ((index, depth), rest) ∧ Extends t.table s.table := by
  induction visits with
  | start => cases member
  | turn visits first goes ih =>
    have grown := visits.extends_of_turn first goes
    rcases List.mem_append.1 member with sooner | last
    · obtain ⟨earlier, u, depth, rest, visits, waits, older⟩ := ih sooner
      exact ⟨earlier, u, depth, rest, visits, waits, older.trans grown⟩
    · obtain rfl := List.mem_singleton.1 last
      exact ⟨_, _, _, _, visits, first, grown⟩

/-- A search for another goal visits the same states until it takes that goal. -/
theorem change_goal (visits : Visits g goal limits taken s)
    (unmet : ∀ index ∈ taken, ∀ d, s.table[index]? = some d → d.packed ≠ other) :
    Visits g other limits taken s := by
  induction visits with
  | start => exact .start
  | @turn taken index depth rest s t visits first goes ih =>
    have grown := visits.extends_of_turn first goes
    obtain ⟨d, entry⟩ := visits.exists_entry first
    obtain ⟨_, expanded⟩ := (turn_eq_next_iff first entry).1 goes
    have here : d.packed ≠ other := unmet index (by simp) d (grown.entry entry)
    have sooner : Visits g other limits taken s :=
      ih fun i member e old => unmet i (by simp [member]) e (grown.entry old)
    exact sooner.turn first ((turn_eq_next_iff first entry).2 ⟨here, expanded⟩)

theorem run_eq (visits : Visits g goal limits taken s) :
    run g goal limits (initial (String.ofList g.start)) = run g goal limits s := by
  induction visits with
  | start => rfl
  | turn _ _ goes ih => rw [ih, run_of_next goes]

/-- What was taken, what is first and what waits behind it stand in the order of their indices. -/
theorem pairwise_lt (visits : Visits g goal limits taken s)
    (first : s.queue.dequeue? = some ((index, depth), rest)) :
    (taken ++ index :: rest.toList.map Prod.fst).Pairwise (· < ·) := by
  have turns := visits.invariant.in_turn
  rw [Queue.toList_of_dequeue? first] at turns
  exact turns ▸ List.pairwise_lt_range

/-- What is first in the queue is what a search for it finds. -/
theorem run_eq_found (visits : Visits g goal limits taken s)
    (first : s.queue.dequeue? = some ((index, depth), rest)) (entry : s.table[index]? = some d) :
    run g d.packed limits (initial (String.ofList g.start)) = .found (trace s.table index) := by
  have unmet : ∀ i ∈ taken, ∀ e, s.table[i]? = some e → e.packed ≠ d.packed := by
    intro i member e old same
    obtain rfl := visits.invariant.index_eq old entry same
    have lt := (List.pairwise_append.1 (visits.pairwise_lt first)).2.2
    exact absurd (lt i member i List.mem_cons_self) (Nat.lt_irrefl i)
  exact (visits.change_goal unmet).run_eq.trans (run_of_answer (turn_eq_found first entry))

/-- So is everything that is stored before it. -/
theorem run_eq_found_of_le (visits : Visits g goal limits taken s)
    (first : s.queue.dequeue? = some ((index, depth), rest)) (le : before ≤ index)
    (entry : s.table[before]? = some d) :
    run g d.packed limits (initial (String.ofList g.start)) = .found (trace s.table before) := by
  rcases Nat.eq_or_lt_of_le le with rfl | lt
  · exact visits.run_eq_found first entry
  · have stored : before ∈ taken ++ index :: rest.toList.map Prod.fst := by
      have turns := visits.invariant.in_turn
      rw [Queue.toList_of_dequeue? first] at turns
      exact turns ▸ List.mem_range.2 (lt_size entry)
    have behind := (List.pairwise_append.1 (visits.pairwise_lt first)).2.1
    have sooner : before ∈ taken := by
      rcases List.mem_append.1 stored with sooner | later
      · exact sooner
      · rcases List.mem_cons.1 later with rfl | later
        · exact absurd lt (Nat.lt_irrefl _)
        · exact absurd ((List.pairwise_cons.1 behind).1 before later) (Nat.lt_asymm lt)
    obtain ⟨earlier, t, depth, rest, visits, first, grown⟩ := visits.exists_of_mem sooner
    obtain ⟨e, old⟩ := visits.exists_entry first
    obtain rfl := Option.some.inj ((grown.entry old).symm.trans entry)
    rw [visits.run_eq_found first old, grown.trace_eq before (lt_size old)]

end Visits

end Search

namespace Grammar

theorem derive_of_path {g : Grammar} {target form : Word} {limits : Limits}
    {earlier later : List Word}
    (found : g.derive target limits = .found (earlier ++ form :: later))
    (unmarked : form ≠ emptyMarker) : g.derive form limits = .found (earlier ++ [form]) := by
  obtain ⟨taken, s, visits, ends⟩ := Search.exists_visits_derive g target limits
  rw [found] at ends
  obtain ⟨index, depth, rest, d, first, entry, _, traced⟩ := Search.exists_of_turn_eq_found ends
  obtain ⟨before, e, le, stored, rfl, front⟩ :=
    visits.invariant.rooted.exists_of_trace_eq entry traced.symm
  have asked : String.ofList (goal e.form) = e.packed := by
    rw [goal, replacement, if_neg unmarked, Discovery.form, String.ofList_toList]
  rw [derive, asked, visits.run_eq_found_of_le first le stored, front]

/-- A derivation that is found passes only forms that are found as well, each by the part of the
derivation that ends with it. A form that is the marker itself cannot be asked for. -/
theorem derive_getElem (g : Grammar) (target : Word) (limits : Limits) (steps : List Word)
    (found : g.derive target limits = .found steps) (i : Nat) (inside : i < steps.length)
    (unmarked : steps[i] ≠ emptyMarker) :
    g.derive steps[i] limits = .found (steps.take (i + 1)) := by
  have parts : steps = steps.take i ++ steps[i] :: steps.drop (i + 1) := by simp
  have path : g.derive target limits =
      .found (steps.take i ++ steps[i] :: steps.drop (i + 1)) := by rw [← parts, found]
  rw [derive_of_path path unmarked, List.take_append_getElem]

/-- With room for no form more than the target needs. -/
theorem derive_getElem_powers :
    powers.derive ['a', 'a'] ⟨4, 7⟩ =
        .found [['S'], ['a', 'S'], ['a', 'a', 'S'], ['a', 'a']] ∧
      ['a', 'a', 'S'] ≠ emptyMarker ∧
      powers.derive ['a', 'a', 'S'] ⟨4, 7⟩ = .found [['S'], ['a', 'S'], ['a', 'a', 'S']] := by
  have found : powers.derive ['a', 'a'] ⟨4, 7⟩ =
      .found [['S'], ['a', 'S'], ['a', 'a', 'S'], ['a', 'a']] := by
    rw [derive, (Search.Mirrors.initial powers.start).run]
    decide +kernel
  exact ⟨found, by decide, derive_getElem powers ['a', 'a'] ⟨4, 7⟩ _ found 2 (by decide) (by decide)⟩

end Grammar

end Chomsky
