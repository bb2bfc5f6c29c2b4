import Chomsky.Proofs.Derivation.Mirror

/-!
# Searches that run in step

An injective map of forms that carries the start symbol of one grammar to that of another, and the
successors of each form, in order, to the successors of its image, carries the whole search with it:
state by state (`PathSearch.turn_map`) and so to the answer (`Grammar.Carries.derive_eq`). Nothing
else is asked of the map, so the lengths of forms and of their encodings may change.
-/

namespace Chomsky

/-- The answer with each of its forms mapped. -/
def Derivation.map (f : Word → Word) : Derivation → Derivation
  | found steps => found (steps.map f)
  | depthExceeded => depthExceeded
  | stateLimitReached => stateLimitReached
  | notFound => notFound

/-- The answer or the next state, mapped. -/
def Turn.map {σ τ : Type} (answers : Derivation → Derivation) (states : σ → τ) : Turn σ → Turn τ
  | answer d => answer (answers d)
  | next s => next (states s)

/-- The map carries the forms of `g` to those of `h`, in the order in which a search meets them. -/
structure Grammar.Carries (f : Word → Word) (g h : Grammar) : Prop where
  injective : Function.Injective f
  start : h.start = f g.start
  successors : ∀ form, h.successors (f form) = (g.successors form).map f

namespace PathSearch

variable {f : Word → Word} {g h : Grammar}

/-- The state with each of its forms mapped. -/
def map (f : Word → Word) (s : PathSearch) : PathSearch :=
  ⟨s.known.map f, s.queue.map (List.map f), s.truncated⟩

theorem contains_map (injective : Function.Injective f) (forms : List Word) (form : Word) :
    (forms.map f).contains (f form) = forms.contains form := by
  rw [Bool.eq_iff_iff, List.contains_iff_mem, List.contains_iff_mem,
    List.mem_map_of_injective injective]

theorem offer_map (injective : Function.Injective f) (limits : Limits) (path : List Word)
    (s : PathSearch) (form : Word) :
    offer limits (path.map f) (s.map f) (f form) = (offer limits path s form).map (map f) := by
  unfold offer
  simp only [map, contains_map injective, List.length_map]
  split
  · rfl
  · split
    · rfl
    · split
      · rfl
      · simp [map]

theorem foldlM_map (injective : Function.Injective f) (limits : Limits) (path forms : List Word)
    (s : PathSearch) :
    (forms.map f).foldlM (offer limits (path.map f)) (s.map f) =
      (forms.foldlM (offer limits path) s).map (map f) := by
  induction forms generalizing s with
  | nil => rfl
  | cons form forms ih =>
    rw [List.map_cons, List.foldlM_cons, List.foldlM_cons, offer_map injective]
    cases offer limits path s form with
    | none => rfl
    | some t => exact ih t

/-- One turn in the other grammar is the image of the turn in this one. -/
theorem turn_map (carries : g.Carries f h) (goal : Word) (limits : Limits) (s : PathSearch) :
    turn h (f goal) limits (s.map f) = (turn g goal limits s).map (Derivation.map f) (map f) := by
  obtain ⟨known, queue, truncated⟩ := s
  cases queue with
  | nil => cases truncated <;> rfl
  | cons path rest =>
    cases path with
    | nil => rfl
    | cons form earlier =>
      have goal_iff : f form = f goal ↔ form = goal := carries.injective.eq_iff
      by_cases same : form = goal
      · simp [turn, map, same, Turn.map, Derivation.map]
      · have taken := foldlM_map carries.injective limits (form :: earlier) (g.successors form)
          ⟨known, rest, truncated⟩
        simp only [turn, map, List.map_cons, goal_iff, same, if_false, carries.successors]
          at taken ⊢
        rw [taken]
        cases (g.successors form).foldlM (offer limits (form :: earlier))
            ⟨known, rest, truncated⟩ with
        | none => rfl
        | some t => rfl

theorem run_map (carries : g.Carries f h) (goal : Word) (limits : Limits) (s : PathSearch) :
    run h (f goal) limits (s.map f) = (run g goal limits s).map f := by
  have turns := turn_map carries goal limits
  induction s using run.induct g goal limits with
  | case1 s d ends =>
    have ends' : turn h (f goal) limits (s.map f) = .answer (d.map f) := by rw [turns, ends]; rfl
    rw [run_of_answer ends, run_of_answer ends']
  | case2 s t goes ih =>
    have goes' : turn h (f goal) limits (s.map f) = .next (t.map f) := by rw [turns, goes]; rfl
    rw [run_of_next goes, run_of_next goes', ih]

end PathSearch

/-- The search in the other grammar gives the image of the answer in this one. -/
theorem Grammar.Carries.derive_eq {f : Word → Word} {g h : Grammar} (carries : g.Carries f h)
    {target image : Word} (goals : goal image = f (goal target)) (limits : Limits) :
    h.derive image limits = (g.derive target limits).map f := by
  rw [derive, derive, (Search.Mirrors.initial h.start).run, (Search.Mirrors.initial g.start).run,
    goals, carries.start]
  exact PathSearch.run_map carries (goal target) limits (PathSearch.initial g.start)

end Chomsky
