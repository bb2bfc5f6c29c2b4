import Mathlib.Data.Set.Card
import Chomsky.Derivation.PathSearch
import Chomsky.Proofs.Derivation.Depth

/-!
# The plain search goes level by level

While paths of length `d` wait, the search knows every form of depth at most `d` and, of the forms
one deeper, those whose paths wait behind (`PathSearch.AtLevel`). The invariant is stated in the
middle of an expansion, with the successors that are still to be taken in; one taken in keeps it
(`AtLevel.offer`), and so does a whole turn (`Explored.turn`). What it says when the search ends is
the meaning of the answers, `Derivation.Correct`.
-/

namespace Chomsky

namespace Limits

/-- The length of the longest derivations explored; a limit of 0 acts as 1. -/
def depth (limits : Limits) : Nat := max 1 limits.maxDepth

/-- The number of forms that are kept; a limit of 0 acts as 1. -/
def states (limits : Limits) : Nat := max 1 limits.maxStates

end Limits

/-- What an answer says of the derivations in a grammar. -/
def Derivation.Correct (g : Grammar) (goal : Word) (limits : Limits) : Derivation → Prop
  | found steps => g.IsShortest goal steps ∧ steps.length ≤ limits.depth
  | depthExceeded =>
    ¬ g.Within limits.depth goal ∧ {form | g.Within limits.depth form}.encard ≤ limits.states ∧
      ∃ form, g.HasDepth (limits.depth + 1) form
  | stateLimitReached => limits.states < {form | g.Within limits.depth form}.encard
  | notFound =>
    ¬ g.Derivable goal ∧ (∀ form, g.Derivable form → g.Within limits.depth form) ∧
      {form | g.Derivable form}.encard ≤ limits.states

theorem encard_setOf_mem {α : Type} {forms : List α} (distinct : forms.Nodup) :
    {form | form ∈ forms}.encard = forms.length := by
  classical
  rw [← List.coe_toFinset, Set.encard_coe_eq_coe_finsetCard, List.toFinset_card_of_nodup distinct]

namespace PathSearch

variable {g : Grammar} {goal form next : Word} {limits : Limits} {s t : PathSearch}
  {depth : Nat} {path : List Word} {older newer : List (List Word)} {pending : List Word}

/-- The last forms of derivations that are kept last form first. -/
def heads (paths : List (List Word)) : List Word := paths.filterMap List.head?

theorem mem_heads_iff {paths : List (List Word)} :
    form ∈ heads paths ↔ ∃ path ∈ paths, path.head? = some form :=
  List.mem_filterMap

@[simp] theorem heads_nil : heads [] = [] := rfl

@[simp] theorem heads_append (paths others : List (List Word)) :
    heads (paths ++ others) = heads paths ++ heads others :=
  List.filterMap_append

@[simp] theorem heads_cons (form : Word) (earlier : List Word) (paths : List (List Word)) :
    heads ((form :: earlier) :: paths) = form :: heads paths := rfl

/-- A shortest derivation of the given length, last form first. -/
def IsPath (g : Grammar) (depth : Nat) (path : List Word) : Prop :=
  path.length = depth ∧ ∃ form, path.head? = some form ∧ g.IsShortest form path.reverse

theorem IsPath.hasDepth (walk : IsPath g depth path) (head : path.head? = some form) :
    g.HasDepth depth form := by
  obtain ⟨length, last, same, shortest⟩ := walk
  obtain rfl := Option.some.inj (same.symm.trans head)
  exact ⟨path.reverse, shortest, by rw [List.length_reverse, length]⟩

theorem IsPath.cons (walk : IsPath g depth path) (head : path.head? = some form)
    (step : g.Step form next) (far : ¬ g.Within depth next) : IsPath g (depth + 1) (next :: path) := by
  obtain ⟨length, last, same, shortest⟩ := walk
  obtain rfl := Option.some.inj (same.symm.trans head)
  refine ⟨by rw [List.length_cons, length], next, rfl, ?_⟩
  rw [List.reverse_cons]
  exact shortest.concat step (by rwa [List.length_reverse, length])

/-- The state of a search in the middle of a level: `older` paths of the level wait, `newer` ones go
one form further, and the `pending` successors of the form in hand are still to be taken in. -/
structure AtLevel (g : Grammar) (goal : Word) (limits : Limits) (depth : Nat)
    (older newer : List (List Word)) (pending : List Word) (s : PathSearch) : Prop where
  queue : s.queue = older ++ newer
  depth_pos : 1 ≤ depth
  depth_le : depth ≤ limits.depth
  older_paths : ∀ path ∈ older, IsPath g depth path
  newer_paths : ∀ path ∈ newer, IsPath g (depth + 1) path
  newer_allowed : newer ≠ [] → depth < limits.depth
  known_iff : ∀ form, form ∈ s.known ↔ g.Within depth form ∨ form ∈ heads newer
  distinct : s.known.Nodup
  few : s.known.length ≤ limits.states
  /-- No form of the next level gets lost without a note. -/
  covered : ∀ next, g.HasDepth (depth + 1) next →
    next ∈ heads newer ∨ next ∈ pending ∨ (∃ form ∈ heads older, g.Step form next) ∨ s.truncated
  truncated : s.truncated → depth = limits.depth ∧ ∃ form, g.HasDepth (limits.depth + 1) form
  goal_waits : goal ∈ s.known → goal ∈ heads s.queue

namespace AtLevel

theorem newer_depth (level : AtLevel g goal limits depth older newer pending s)
    (member : form ∈ heads newer) : g.HasDepth (depth + 1) form := by
  obtain ⟨path, waits, head⟩ := mem_heads_iff.1 member
  exact (level.newer_paths path waits).hasDepth head

theorem known_within (level : AtLevel g goal limits depth older newer pending s)
    (known : form ∈ s.known) : g.Within limits.depth form := by
  rcases (level.known_iff form).1 known with near | waits
  · exact near.mono level.depth_le
  · have nonempty : newer ≠ [] := by
      rintro rfl
      simp at waits
    exact (level.newer_depth waits).within.mono (level.newer_allowed nonempty)

theorem far_of_fresh (level : AtLevel g goal limits depth older newer pending s)
    (fresh : form ∉ s.known) : ¬ g.Within depth form :=
  fun near => fresh ((level.known_iff form).2 (Or.inl near))

theorem initial (g : Grammar) (goal : Word) (limits : Limits) :
    AtLevel g goal limits 1 [[g.start]] [] [] (PathSearch.initial g.start) where
  queue := rfl
  depth_pos := le_rfl
  depth_le := le_max_left 1 limits.maxDepth
  older_paths := by
    intro path waits
    obtain rfl := List.mem_singleton.1 waits
    refine ⟨rfl, g.start, rfl, Grammar.isDerivation_start, ?_⟩
    intro other derivation
    exact List.length_pos_iff.2 derivation.ne_nil
  newer_paths := by simp
  newer_allowed := by simp
  known_iff := by
    intro form
    have alone : g.Within 1 form ↔ form = g.start := by
      rw [Grammar.within_succ_iff, Grammar.hasDepth_one_iff]
      simp [Grammar.not_within_zero]
    simp [PathSearch.initial, alone]
  distinct := by simp [PathSearch.initial]
  few := le_max_left 1 limits.maxStates
  covered := by
    intro next deeper
    obtain ⟨previous, depth, step⟩ := deeper.exists_previous
    obtain rfl := Grammar.hasDepth_one_iff.1 depth
    exact Or.inr (Or.inr (Or.inl ⟨g.start, by simp, step⟩))
  truncated := by simp [PathSearch.initial]
  goal_waits := by simp [PathSearch.initial]

/-- A successor that is known already. -/
theorem skip (level : AtLevel g goal limits depth older newer (next :: pending) s)
    (known : next ∈ s.known) : AtLevel g goal limits depth older newer pending s where
  __ := level
  covered := by
    intro other deeper
    rcases level.covered other deeper with waits | pend | rest
    · exact Or.inl waits
    · rcases List.mem_cons.1 pend with rfl | pend
      · have far : ¬ g.Within depth other := (Grammar.hasDepth_succ_iff.1 deeper).2
        exact Or.inl (((level.known_iff other).1 known).resolve_left far)
      · exact Or.inr (Or.inl pend)
    · exact Or.inr (Or.inr rest)

/-- A successor past the depth limit. -/
theorem note (level : AtLevel g goal limits depth older newer (next :: pending) s)
    (last : depth = limits.depth) (deeper : g.HasDepth (depth + 1) next) :
    AtLevel g goal limits depth older newer pending { s with truncated := true } where
  __ := level
  covered := fun _ _ => Or.inr (Or.inr (Or.inr rfl))
  truncated := fun _ => ⟨last, next, last ▸ deeper⟩

/-- A new successor, for which there is room. -/
theorem keep (level : AtLevel g goal limits depth older newer (next :: pending) s)
    (fresh : next ∉ s.known) (extended : IsPath g (depth + 1) (next :: path))
    (allowed : depth < limits.depth) (room : s.known.length < limits.states) :
    AtLevel g goal limits depth older (newer ++ [next :: path]) pending
      ⟨next :: s.known, s.queue ++ [next :: path], s.truncated⟩ where
  queue := by simp [level.queue]
  depth_pos := level.depth_pos
  depth_le := level.depth_le
  older_paths := level.older_paths
  newer_paths := by
    intro other waits
    rcases List.mem_append.1 waits with waits | waits
    · exact level.newer_paths other waits
    · obtain rfl := List.mem_singleton.1 waits
      exact extended
  newer_allowed := fun _ => allowed
  known_iff := by
    intro other
    rw [List.mem_cons, level.known_iff other]
    simp only [heads_append, heads_cons, heads_nil, List.mem_append, List.mem_singleton]
    tauto
  distinct := List.nodup_cons.2 ⟨fresh, level.distinct⟩
  few := room
  covered := by
    intro other deeper
    rcases level.covered other deeper with waits | pend | rest
    · exact Or.inl (by simp [waits])
    · rcases List.mem_cons.1 pend with rfl | pend
      · exact Or.inl (by simp)
      · exact Or.inr (Or.inl pend)
    · exact Or.inr (Or.inr rest)
  truncated := level.truncated
  goal_waits := by
    intro known
    rw [heads_append, List.mem_append]
    rcases List.mem_cons.1 known with rfl | known
    · exact Or.inr (by simp)
    · exact Or.inl (level.goal_waits known)

/-- One successor taken in. -/
theorem offer (level : AtLevel g goal limits depth older newer (next :: pending) s)
    (walk : IsPath g depth path) (head : path.head? = some form) (step : g.Step form next)
    (taken : PathSearch.offer limits path s next = some t) :
    ∃ newer, AtLevel g goal limits depth older newer pending t := by
  have length : path.length = depth := walk.1
  rcases offer_eq_some taken with ⟨known, rfl⟩ | ⟨fresh, past, rfl⟩ | ⟨fresh, short, room, rfl⟩
  · exact ⟨newer, level.skip known⟩
  · have last : depth = limits.depth := by
      have pos := level.depth_pos
      have le := level.depth_le
      unfold Limits.depth at *
      omega
    have within : g.Within (depth + 1) next := (walk.hasDepth head).within.step step
    have deeper := Grammar.hasDepth_succ_iff.2 ⟨within, level.far_of_fresh fresh⟩
    exact ⟨newer, level.note last deeper⟩
  · have allowed : depth < limits.depth := by
      unfold Limits.depth
      omega
    have vacant : s.known.length < limits.states := by
      unfold Limits.states
      omega
    have extended := walk.cons head step (level.far_of_fresh fresh)
    exact ⟨newer ++ [next :: path], level.keep fresh extended allowed vacant⟩

/-- A refused successor is one form too many. -/
theorem refused (level : AtLevel g goal limits depth older newer (next :: pending) s)
    (walk : IsPath g depth path) (head : path.head? = some form) (step : g.Step form next)
    (refusal : PathSearch.offer limits path s next = none) :
    limits.states < {form | g.Within limits.depth form}.encard := by
  obtain ⟨fresh, short, full⟩ := offer_eq_none refusal
  have length : path.length = depth := walk.1
  have allowed : depth + 1 ≤ limits.depth := by
    unfold Limits.depth
    omega
  have nextWithin : g.Within limits.depth next :=
    ((walk.hasDepth head).within.step step).mono allowed
  have all : {form | form ∈ next :: s.known} ⊆ {form | g.Within limits.depth form} := by
    intro other member
    rcases List.mem_cons.1 member with rfl | known
    · exact nextWithin
    · exact level.known_within known
  have startKnown : g.start ∈ s.known :=
    (level.known_iff g.start).2 (Or.inl (Grammar.within_start level.depth_pos))
  have many : limits.states < (next :: s.known).length := by
    have pos := List.length_pos_of_mem startKnown
    rw [List.length_cons]
    unfold Limits.states
    omega
  calc (limits.states : ℕ∞)
      < (next :: s.known).length := by exact_mod_cast many
    _ = {form | form ∈ next :: s.known}.encard :=
        (encard_setOf_mem (List.nodup_cons.2 ⟨fresh, level.distinct⟩)).symm
    _ ≤ {form | g.Within limits.depth form}.encard := Set.encard_le_encard all

/-- All successors of the form in hand taken in. -/
theorem expand (level : AtLevel g goal limits depth older newer pending s)
    (walk : IsPath g depth path) (head : path.head? = some form)
    (steps : ∀ next ∈ pending, g.Step form next)
    (taken : pending.foldlM (PathSearch.offer limits path) s = some t) :
    ∃ newer, AtLevel g goal limits depth older newer [] t := by
  induction pending generalizing newer s with
  | nil =>
    obtain rfl := Option.some.inj taken
    exact ⟨newer, level⟩
  | cons next pending ih =>
    rw [List.foldlM_cons] at taken
    obtain ⟨u, first, rest⟩ := Option.bind_eq_some_iff.1 taken
    obtain ⟨newer, level⟩ := level.offer walk head (steps next (by simp)) first
    exact ih level (fun other member => steps other (by simp [member])) rest

theorem expand_refused (level : AtLevel g goal limits depth older newer pending s)
    (walk : IsPath g depth path) (head : path.head? = some form)
    (steps : ∀ next ∈ pending, g.Step form next)
    (refusal : pending.foldlM (PathSearch.offer limits path) s = none) :
    limits.states < {form | g.Within limits.depth form}.encard := by
  induction pending generalizing newer s with
  | nil => cases refusal
  | cons next pending ih =>
    rw [List.foldlM_cons] at refusal
    cases first : PathSearch.offer limits path s next with
    | none => exact level.refused walk head (steps next (by simp)) first
    | some u =>
      obtain ⟨newer, level⟩ := level.offer walk head (steps next (by simp)) first
      rw [first] at refusal
      exact ih level (fun other member => steps other (by simp [member])) refusal

/-- The oldest path is taken, and its last form is not the goal. -/
theorem dequeue {earlier : List Word}
    (level : AtLevel g goal limits depth ((form :: earlier) :: older) newer [] s)
    (other : form ≠ goal) :
    AtLevel g goal limits depth older newer (g.successors form)
      { s with queue := older ++ newer } where
  queue := rfl
  depth_pos := level.depth_pos
  depth_le := level.depth_le
  older_paths := fun path waits => level.older_paths path (by simp [waits])
  newer_paths := level.newer_paths
  newer_allowed := level.newer_allowed
  known_iff := level.known_iff
  distinct := level.distinct
  few := level.few
  covered := by
    intro next deeper
    rcases level.covered next deeper with waits | pend | ⟨previous, member, step⟩ | noted
    · exact Or.inl waits
    · simp at pend
    · rcases List.mem_cons.1 member with rfl | member
      · exact Or.inr (Or.inl (Grammar.mem_successors_iff.2 step))
      · exact Or.inr (Or.inr (Or.inl ⟨previous, member, step⟩))
    · exact Or.inr (Or.inr (Or.inr noted))
  truncated := level.truncated
  goal_waits := by
    intro known
    have waits := level.goal_waits known
    rw [level.queue, List.cons_append, heads_cons] at waits
    exact (List.mem_cons.1 waits).resolve_left (fun same => other same.symm)

/-- When the older paths are used up, the newer ones make the next level. -/
theorem descend (level : AtLevel g goal limits depth [] newer [] s) (nonempty : newer ≠ []) :
    AtLevel g goal limits (depth + 1) newer [] [] s := by
  have allowed : depth < limits.depth := level.newer_allowed nonempty
  have unnoted : ¬ s.truncated := fun noted => absurd (level.truncated noted).1 allowed.ne
  have next_iff : ∀ form, g.HasDepth (depth + 1) form ↔ form ∈ heads newer := by
    intro form
    constructor
    · intro deeper
      simpa [unnoted] using level.covered form deeper
    · exact level.newer_depth
  exact {
    queue := by simpa using level.queue
    depth_pos := Nat.le_succ_of_le level.depth_pos
    depth_le := allowed
    older_paths := level.newer_paths
    newer_paths := by simp
    newer_allowed := by simp
    known_iff := by
      intro form
      rw [level.known_iff, Grammar.within_succ_iff, next_iff]
      simp
    distinct := level.distinct
    few := level.few
    covered := by
      intro next deeper
      obtain ⟨previous, level, step⟩ := deeper.exists_previous
      exact Or.inr (Or.inr (Or.inl ⟨previous, (next_iff previous).1 level, step⟩))
    truncated := fun noted => absurd noted unnoted
    goal_waits := level.goal_waits }

/-- When no path waits, exactly the forms down to the level in hand are known. -/
theorem idle_known (level : AtLevel g goal limits depth [] [] [] s) (form : Word) :
    form ∈ s.known ↔ g.Within depth form := by
  simpa using level.known_iff form

theorem idle_goal (level : AtLevel g goal limits depth [] [] [] s) : ¬ g.Within depth goal := by
  intro near
  have waits := level.goal_waits ((level.idle_known goal).2 near)
  simp [level.queue] at waits

theorem idle_count (level : AtLevel g goal limits depth [] [] [] s) :
    {form | g.Within depth form}.encard ≤ limits.states := by
  have same : {form | g.Within depth form} = {form | form ∈ s.known} := by
    ext form
    exact (level.idle_known form).symm
  rw [same, encard_setOf_mem level.distinct]
  exact_mod_cast level.few

/-- When no path waits and no form was left out, nothing lies deeper. -/
theorem idle_closed (level : AtLevel g goal limits depth [] [] [] s) (unnoted : s.truncated = false)
    (reached : g.Derivable form) : g.Within depth form := by
  have none : ∀ form, ¬ g.HasDepth (depth + 1) form := by
    intro form deeper
    simpa [unnoted] using level.covered form deeper
  obtain ⟨steps, derivation⟩ := reached
  exact Grammar.Within.of_no_deeper level.depth_pos none ⟨steps, derivation, le_rfl⟩

end AtLevel

/-- The state of a search between two turns. -/
def Explored (g : Grammar) (goal : Word) (limits : Limits) (s : PathSearch) : Prop :=
  ∃ depth older newer, AtLevel g goal limits depth older newer [] s

namespace Explored

theorem initial (g : Grammar) (goal : Word) (limits : Limits) :
    Explored g goal limits (PathSearch.initial g.start) :=
  ⟨1, [[g.start]], [], AtLevel.initial g goal limits⟩

/-- The first path that waits can be taken to be one of the older ones. -/
theorem front {rest : List (List Word)} (explored : Explored g goal limits s)
    (queue : s.queue = path :: rest) :
    ∃ depth older newer, rest = older ++ newer ∧
      AtLevel g goal limits depth (path :: older) newer [] s := by
  obtain ⟨depth, older, newer, level⟩ := explored
  have parts := level.queue.symm.trans queue
  cases older with
  | nil =>
    obtain rfl : newer = path :: rest := parts
    exact ⟨depth + 1, rest, [], by simp, level.descend (by simp)⟩
  | cons first older =>
    obtain ⟨rfl, rfl⟩ := List.cons.inj parts
    exact ⟨depth, older, newer, rfl, level⟩

/-- When no path waits, the note of a form left out tells the two answers apart. -/
theorem exhausted (explored : Explored g goal limits s) (queue : s.queue = []) :
    (if s.truncated then Derivation.depthExceeded else .notFound).Correct g goal limits := by
  obtain ⟨depth, older, newer, level⟩ := explored
  obtain ⟨rfl, rfl⟩ := List.append_eq_nil_iff.1 (level.queue.symm.trans queue)
  cases noted : s.truncated with
  | true =>
    obtain ⟨rfl, deeper⟩ := level.truncated noted
    exact ⟨level.idle_goal, level.idle_count, deeper⟩
  | false =>
    have all : ∀ form, g.Derivable form → g.Within depth form :=
      fun form reached => level.idle_closed noted reached
    have same : {form | g.Derivable form} = {form | g.Within depth form} := by
      ext form
      exact ⟨all form, Grammar.Within.derivable⟩
    refine ⟨fun reached => level.idle_goal (all goal reached), ?_, same ▸ level.idle_count⟩
    exact fun form reached => (all form reached).mono level.depth_le

/-- One turn: an answer is correct, and the next state is explored level by level. -/
theorem turn (explored : Explored g goal limits s) :
    match PathSearch.turn g goal limits s with
    | .answer d => d.Correct g goal limits
    | .next t => Explored g goal limits t := by
  cases queue : s.queue with
  | nil =>
    simp only [PathSearch.turn, queue]
    exact explored.exhausted queue
  | cons path rest =>
    obtain ⟨depth, older, newer, rfl, level⟩ := explored.front queue
    have walk : IsPath g depth path := level.older_paths path (by simp)
    have length : path.length = depth := walk.1
    obtain ⟨form, head, shortest⟩ := walk.2
    cases path with
    | nil => cases head
    | cons last earlier =>
      obtain rfl := Option.some.inj head
      simp only [PathSearch.turn, queue]
      by_cases same : last = goal
      · subst same
        rw [if_pos rfl]
        refine ⟨shortest, ?_⟩
        rw [List.length_reverse, length]
        exact level.depth_le
      · rw [if_neg same]
        have level := level.dequeue same
        have steps : ∀ next ∈ g.successors last, g.Step last next :=
          fun next member => Grammar.mem_successors_iff.1 member
        cases taken : (g.successors last).foldlM (offer limits (last :: earlier))
            { s with queue := older ++ newer } with
        | none => exact level.expand_refused walk rfl steps taken
        | some t =>
          obtain ⟨newer, level⟩ := level.expand walk rfl steps taken
          exact ⟨depth, older, newer, level⟩

/-- The answer of a search that goes level by level is correct. -/
theorem run (explored : Explored g goal limits s) :
    (PathSearch.run g goal limits s).Correct g goal limits := by
  induction s using PathSearch.run.induct g goal limits with
  | case1 s d ends =>
    have correct := explored.turn
    rw [ends] at correct
    rwa [run_of_answer ends]
  | case2 s t goes ih =>
    have explored := explored.turn
    rw [goes] at explored
    rw [run_of_next goes]
    exact ih explored

end Explored

end PathSearch

end Chomsky
