import Chomsky.Proofs.Derivation.Answers

/-!
# Wider limits

A search that did not meet its state limit goes through the same states under a higher one, so its
answer stays (`Grammar.derive_of_maxStates_le`). A higher depth limit changes nothing until the
first form at the old limit is expanded. From there on the deeper search keeps what the other one
only notes (`PathSearch.Beyond`): a derivation that waits behind that form is still found, unless
the forms that are kept before its turn meet the state limit (`Grammar.derive_of_maxDepth_le`).
-/

namespace Chomsky

namespace PathSearch

variable {g : Grammar} {goal form : Word} {limits : Limits} {states depth : Nat}
  {s t : PathSearch} {path forms steps : List Word}

/-! ## More states -/

theorem offer_of_maxStates_le (le : limits.maxStates ≤ states)
    (taken : offer limits path s form = some t) :
    offer { limits with maxStates := states } path s form = some t := by
  rcases offer_eq_some taken with ⟨known, rfl⟩ | ⟨fresh, past, rfl⟩ | ⟨fresh, short, room, rfl⟩
  · simp [offer, known]
  · simp [offer, fresh, past]
  · have vacant : s.known.length < states := room.trans_le le
    simp [offer, fresh, Nat.not_le.2 short, Nat.not_le.2 vacant]

theorem foldlM_of_maxStates_le (le : limits.maxStates ≤ states)
    (taken : forms.foldlM (offer limits path) s = some t) :
    forms.foldlM (offer { limits with maxStates := states } path) s = some t := by
  induction forms generalizing s with
  | nil => exact taken
  | cons form forms ih =>
    rw [List.foldlM_cons] at taken ⊢
    obtain ⟨u, first, rest⟩ := Option.bind_eq_some_iff.1 taken
    exact Option.bind_eq_some_iff.2 ⟨u, offer_of_maxStates_le le first, ih rest⟩

theorem turn_of_maxStates_le (le : limits.maxStates ≤ states)
    (settled : turn g goal limits s ≠ .answer .stateLimitReached) :
    turn g goal { limits with maxStates := states } s = turn g goal limits s := by
  obtain ⟨known, queue, truncated⟩ := s
  cases queue with
  | nil => rfl
  | cons path rest =>
    cases path with
    | nil => rfl
    | cons form earlier =>
      by_cases same : form = goal
      · simp [turn, same]
      · cases taken : (g.successors form).foldlM (offer limits (form :: earlier))
            ⟨known, rest, truncated⟩ with
        | none => exact absurd (by simp [turn, same, taken]) settled
        | some t => simp [turn, same, taken, foldlM_of_maxStates_le le taken]

theorem run_of_maxStates_le (le : limits.maxStates ≤ states)
    (settled : run g goal limits s ≠ .stateLimitReached) :
    run g goal { limits with maxStates := states } s = run g goal limits s := by
  induction s using run.induct g goal limits with
  | case1 s d ends =>
    rw [run_of_answer ends] at settled ⊢
    have unmet : turn g goal limits s ≠ .answer .stateLimitReached := by
      rw [ends]
      exact fun met => settled (Turn.answer.inj met)
    exact run_of_answer ((turn_of_maxStates_le le unmet).trans ends)
  | case2 s t goes ih =>
    rw [run_of_next goes] at settled ⊢
    have unmet : turn g goal limits s ≠ .answer .stateLimitReached := by simp [goes]
    rw [run_of_next ((turn_of_maxStates_le le unmet).trans goes), ih settled]

/-! ## More depth -/

/-- Before the old limit nothing changes. -/
theorem offer_of_short (short : path.length < limits.maxDepth) (le : limits.maxDepth ≤ depth) :
    offer { limits with maxDepth := depth } path = offer limits path := by
  funext s form
  simp [offer, Nat.not_le.2 short, Nat.not_le.2 (short.trans_le le)]

theorem turn_of_short (short : ∀ path ∈ s.queue.head?, path.length < limits.maxDepth)
    (le : limits.maxDepth ≤ depth) :
    turn g goal { limits with maxDepth := depth } s = turn g goal limits s := by
  obtain ⟨known, queue, truncated⟩ := s
  cases queue with
  | nil => rfl
  | cons path rest =>
    cases path with
    | nil => rfl
    | cons form earlier =>
      have short : (form :: earlier).length < limits.maxDepth := short _ rfl
      simp only [turn, offer_of_short short le]

/-- At the limit a search only notes that it leaves forms out. -/
theorem offer_of_past (past : limits.maxDepth ≤ path.length) (s : PathSearch) (form : Word) :
    ∃ noted, offer limits path s form = some { s with truncated := noted } := by
  by_cases known : form ∈ s.known
  · exact ⟨s.truncated, by simp [offer, known]⟩
  · exact ⟨true, by simp [offer, known, past]⟩

theorem foldlM_of_past (past : limits.maxDepth ≤ path.length) (s : PathSearch)
    (forms : List Word) :
    ∃ noted, forms.foldlM (offer limits path) s = some { s with truncated := noted } := by
  induction forms generalizing s with
  | nil => exact ⟨s.truncated, rfl⟩
  | cons form forms ih =>
    obtain ⟨first, taken⟩ := offer_of_past past s form
    obtain ⟨rest, others⟩ := ih { s with truncated := first }
    exact ⟨rest, by rw [List.foldlM_cons, taken]; exact others⟩

/-- What waits goes on waiting in the same order. -/
theorem queue_prefix_of_offer (taken : offer limits path s form = some t) :
    s.queue <+: t.queue := by
  rcases offer_eq_some taken with ⟨_, rfl⟩ | ⟨_, _, rfl⟩ | ⟨_, _, _, rfl⟩
  · exact List.prefix_rfl
  · exact List.prefix_rfl
  · exact List.prefix_append _ _

theorem queue_prefix_of_foldlM (taken : forms.foldlM (offer limits path) s = some t) :
    s.queue <+: t.queue :=
  foldlM_induction (motive := fun u => s.queue <+: u.queue) taken List.prefix_rfl
    fun _ _ _ _ next longer => longer.trans (queue_prefix_of_offer next)

/-- All that waits in `s` is at the limit, so nothing more comes in there; in `t` it waits too, with
other paths behind it. -/
structure Beyond (limits : Limits) (s t : PathSearch) : Prop where
  past : ∀ path ∈ s.queue, limits.maxDepth ≤ path.length
  queue : s.queue <+: t.queue

namespace Beyond

theorem turn (beyond : Beyond limits s t) (g : Grammar) (goal : Word) (wider : Limits) :
    match PathSearch.turn g goal limits s with
    | .answer (.found steps) =>
      limits.maxDepth ≤ steps.length ∧ PathSearch.turn g goal wider t = .answer (.found steps)
    | .answer _ => True
    | .next s' => ∃ t', Beyond limits s' t' ∧
      (PathSearch.turn g goal wider t = .next t' ∨
        PathSearch.turn g goal wider t = .answer .stateLimitReached) := by
  obtain ⟨known, queue, truncated⟩ := s
  obtain ⟨others, waits, noted⟩ := t
  obtain ⟨past, more, rfl⟩ := beyond
  cases queue with
  | nil => cases truncated <;> trivial
  | cons path rest =>
    have restPast : ∀ path ∈ rest, limits.maxDepth ≤ path.length :=
      fun other member => past other (List.mem_cons_of_mem _ member)
    cases path with
    | nil => exact ⟨_, ⟨restPast, List.prefix_append _ _⟩, Or.inl rfl⟩
    | cons form earlier =>
      have long : limits.maxDepth ≤ (form :: earlier).length := past _ List.mem_cons_self
      by_cases same : form = goal
      · simpa [PathSearch.turn, same] using long
      · obtain ⟨later, taken⟩ := foldlM_of_past long ⟨known, rest, truncated⟩ (g.successors form)
        simp only [PathSearch.turn, List.cons_append, same, if_false, taken]
        cases kept : (g.successors form).foldlM (offer wider (form :: earlier))
            ⟨others, rest ++ more, noted⟩ with
        | none => exact ⟨_, ⟨restPast, List.prefix_rfl⟩, Or.inr rfl⟩
        | some u =>
          have front : rest <+: u.queue :=
            (List.prefix_append rest more).trans (queue_prefix_of_foldlM kept)
          exact ⟨u, ⟨restPast, front⟩, Or.inl rfl⟩

/-- What is found at the limit is found by the other search too, unless that one meets its state
limit. -/
theorem run (beyond : Beyond limits s t) (wider : Limits)
    (found : PathSearch.run g goal limits s = .found steps) :
    limits.maxDepth ≤ steps.length ∧
      (PathSearch.run g goal wider t = .found steps ∨
        PathSearch.run g goal wider t = .stateLimitReached) := by
  induction s using PathSearch.run.induct g goal limits generalizing t with
  | case1 s d ends =>
    have turns := beyond.turn g goal wider
    rw [run_of_answer ends] at found
    rw [ends, found] at turns
    exact ⟨turns.1, Or.inl (run_of_answer turns.2)⟩
  | case2 s s' goes ih =>
    have turns := beyond.turn g goal wider
    rw [run_of_next goes] at found
    rw [goes] at turns
    obtain ⟨t', beyond, goes' | met⟩ := turns
    · rw [run_of_next goes']
      exact ih beyond found
    · exact ⟨(ih beyond found).1, Or.inr (run_of_answer met)⟩

end Beyond

/-- Either the oldest path is short, or all that wait are long. -/
theorem Explored.short_or_past (explored : Explored g goal limits s) (bound : Nat) :
    (∀ path ∈ s.queue.head?, path.length < bound) ∨ ∀ path ∈ s.queue, bound ≤ path.length := by
  cases queue : s.queue with
  | nil => exact Or.inl (by simp)
  | cons first rest =>
    obtain ⟨depth, older, newer, rfl, level⟩ := explored.front queue
    have length : first.length = depth := (level.older_paths first List.mem_cons_self).1
    rcases Nat.lt_or_ge depth bound with short | past
    · exact Or.inl (by simpa [length] using short)
    · refine Or.inr fun path waits => ?_
      rw [← List.cons_append] at waits
      rcases List.mem_append.1 waits with waits | waits
      · exact past.trans (level.older_paths path waits).1.ge
      · exact (Nat.le_succ_of_le past).trans (level.newer_paths path waits).1.ge

/-- When only paths at the limit wait, what is found is at the limit, and any other search from here
finds it or meets its state limit. -/
theorem run_of_past (past : ∀ path ∈ s.queue, limits.maxDepth ≤ path.length) (wider : Limits)
    (found : run g goal limits s = .found steps) :
    run g goal wider s = .found steps ∨
      run g goal wider s = .stateLimitReached ∧ limits.maxDepth ≤ steps.length := by
  have beyond : Beyond limits s s := ⟨past, List.prefix_rfl⟩
  obtain ⟨long, answer⟩ := beyond.run wider found
  exact answer.imp_right fun met => ⟨met, long⟩

theorem run_of_maxDepth_le (explored : Explored g goal limits s) (le : limits.maxDepth ≤ depth)
    (found : run g goal limits s = .found steps) :
    run g goal { limits with maxDepth := depth } s = .found steps ∨
      run g goal { limits with maxDepth := depth } s = .stateLimitReached ∧
        limits.maxDepth ≤ steps.length := by
  induction s using run.induct g goal limits with
  | case1 s d ends =>
    rcases explored.short_or_past limits.maxDepth with short | past
    · rw [run_of_answer ends] at found
      rw [run_of_answer ((turn_of_short short le).trans ends)]
      exact Or.inl found
    · exact run_of_past past _ found
  | case2 s t goes ih =>
    rcases explored.short_or_past limits.maxDepth with short | past
    · have next := explored.turn
      rw [goes] at next
      rw [run_of_next goes] at found
      rw [run_of_next ((turn_of_short short le).trans goes)]
      exact ih next found
    · exact run_of_past past _ found

end PathSearch

namespace Grammar

/-- An answer that did not come from the state limit stays, with its steps, when that limit is
raised. -/
theorem derive_of_maxStates_le (g : Grammar) (target : Word) (limits : Limits) (states : Nat)
    (le : limits.maxStates ≤ states) (settled : g.derive target limits ≠ .stateLimitReached) :
    g.derive target { limits with maxStates := states } = g.derive target limits := by
  rw [derive, (Search.Mirrors.initial g.start).run] at settled ⊢
  rw [derive, (Search.Mirrors.initial g.start).run]
  exact PathSearch.run_of_maxStates_le le settled

theorem derive_of_maxStates_le_powers :
    powers.derive ['b'] ⟨3, 5⟩ = .depthExceeded ∧
      powers.derive ['b'] ⟨3, 100000⟩ = .depthExceeded := by
  have answer : powers.derive ['b'] ⟨3, 5⟩ = .depthExceeded := by
    rw [derive, (Search.Mirrors.initial powers.start).run]
    decide +kernel
  have kept := derive_of_maxStates_le powers ['b'] ⟨3, 5⟩ 100000 (by decide) (by simp [answer])
  exact ⟨answer, kept.trans answer⟩

section

variable {g : Grammar} {target : Word} {limits : Limits} {depth : Nat} {steps : List Word}

theorem states_lt_of_derive (met : g.derive target limits = .stateLimitReached) :
    limits.states < {form | g.Within limits.depth form}.encard := by
  have correct := g.derive_correct target limits
  rwa [met] at correct

theorem found_or_stateLimitReached (le : limits.maxDepth ≤ depth)
    (found : g.derive target limits = .found steps) :
    g.derive target { limits with maxDepth := depth } = .found steps ∨
      g.derive target { limits with maxDepth := depth } = .stateLimitReached ∧
        steps.length = limits.depth := by
  have correct := g.derive_correct target limits
  rw [found] at correct
  have few : steps.length ≤ limits.depth := correct.2
  have some : 1 ≤ steps.length := List.length_pos_iff.2 correct.1.ne_nil
  have explored := PathSearch.Explored.initial g (goal target) limits
  rw [derive, (Search.Mirrors.initial g.start).run] at found ⊢
  refine (PathSearch.run_of_maxDepth_le explored le found).imp_right (And.imp_right fun long => ?_)
  unfold Limits.depth at *
  omega

end

/-- A derivation that is found is still found when the depth limit is raised, unless it has as many
forms as the old limit allows and the forms that lie within one form more are too many for the state
limit. Then that limit may be met first. -/
theorem derive_of_maxDepth_le (g : Grammar) (target : Word) (limits : Limits) (depth : Nat)
    (steps : List Word) (le : limits.maxDepth ≤ depth)
    (found : g.derive target limits = .found steps) :
    g.derive target { limits with maxDepth := depth } = .found steps ∨
      g.derive target { limits with maxDepth := depth } = .stateLimitReached ∧
        steps.length = limits.depth ∧
        limits.states < {form | g.Within (limits.depth + 1) form}.encard := by
  rcases found_or_stateLimitReached le found with kept | ⟨met, long⟩
  · exact Or.inl kept
  · refine Or.inr ⟨met, long, ?_⟩
    by_contra few
    have within : ∀ {m : Nat}, m ≤ limits.depth + 1 →
        ¬ limits.states < {form | g.Within m form}.encard :=
      fun le many => few (many.trans_le (Set.encard_le_encard fun _ near => near.mono le))
    -- With room for all forms one level deeper, the derivation is no longer at the limit.
    have next : g.derive target { limits with maxDepth := limits.depth + 1 } = .found steps := by
      have deeper : limits.maxDepth ≤ limits.depth + 1 :=
        (le_max_right 1 limits.maxDepth).trans (Nat.le_succ _)
      refine (found_or_stateLimitReached deeper found).resolve_right fun ⟨met, _⟩ => ?_
      exact within (max_le (Nat.le_add_left 1 _) le_rfl) (states_lt_of_derive met)
    rcases Nat.le_total depth (limits.depth + 1) with near | far
    · exact within (max_le (Nat.le_add_left 1 _) near) (states_lt_of_derive met)
    · rcases found_or_stateLimitReached far next with kept | ⟨_, longer⟩
      · rw [met] at kept
        cases kept
      · have one_more : steps.length = max 1 (limits.depth + 1) := longer
        omega

theorem derive_of_maxDepth_le_powers :
    powers.derive ['a'] ⟨4, 7⟩ = .found [['S'], ['a', 'S'], ['a']] ∧
      powers.derive ['a'] ⟨20, 7⟩ = .found [['S'], ['a', 'S'], ['a']] := by
  have found : powers.derive ['a'] ⟨4, 7⟩ = .found [['S'], ['a', 'S'], ['a']] := by
    rw [derive, (Search.Mirrors.initial powers.start).run]
    decide +kernel
  have deeper := derive_of_maxDepth_le powers ['a'] ⟨4, 7⟩ 20 _ (by decide) found
  refine ⟨found, deeper.resolve_right ?_⟩
  rintro ⟨_, long, _⟩
  exact absurd long (by decide)

/-- The empty form waits behind `aS`, and the deeper search has no room for what `aS` gives. -/
theorem derive_powers_deeper :
    powers.derive emptyMarker ⟨2, 3⟩ = .found [['S'], []] ∧
      powers.derive emptyMarker ⟨3, 3⟩ = .stateLimitReached := by
  rw [derive, derive, (Search.Mirrors.initial powers.start).run,
    (Search.Mirrors.initial powers.start).run]
  decide +kernel

end Grammar

end Chomsky
