import Chomsky.Proofs.Derivation.Answers

/-!
# Answers that do not depend on the order of a search

Two grammars correspond when a map of forms carries the steps of the one to the steps of the other.
A search may meet corresponding forms in another order, so it may find another derivation or run out
of room elsewhere. But which forms lie within which depth is the same on both sides
(`Corresponds.within_iff`), and that decides every answer other than a met state limit. Main
statements: `Grammar.Corresponds.derive_alike` and, for grammars that differ in the order of their
rules alone, `Grammar.derive_alike_of_rules`.
-/

namespace Chomsky

/-- The same outcome; derivations that are found have the same length. -/
inductive Derivation.Alike : Derivation → Derivation → Prop where
  | found {steps others : List Word} (length : steps.length = others.length) :
    Alike (found steps) (found others)
  | depthExceeded : Alike depthExceeded depthExceeded
  | stateLimitReached : Alike stateLimitReached stateLimitReached
  | notFound : Alike notFound notFound

namespace Grammar

/-- The steps of `h` from the image of a form are the images of the steps of `g` from that form. -/
structure Corresponds (f : Word → Word) (g h : Grammar) : Prop where
  injective : Function.Injective f
  start : h.start = f g.start
  step_iff : ∀ form image, h.Step (f form) image ↔ ∃ next, g.Step form next ∧ f next = image

namespace Corresponds

variable {f : Word → Word} {g h : Grammar} {form image : Word} {n : Nat}

/-- Only images have derivations, and they have them at the depth of what they are images of. -/
theorem within_image_iff (corresponds : g.Corresponds f h) :
    h.Within n image ↔ ∃ form, g.Within n form ∧ f form = image := by
  -- On the number of forms: a derivation is the start symbol alone or ends with a step.
  induction n generalizing image with
  | zero =>
    constructor
    · intro within
      exact absurd within not_within_zero
    · rintro ⟨_, within, _⟩
      exact absurd within not_within_zero
  | succ n ih =>
    constructor
    · intro within
      rcases within.start_or_step with rfl | ⟨previous, before, step⟩
      · exact ⟨g.start, within_start (Nat.succ_pos n), corresponds.start.symm⟩
      · obtain ⟨form, near, rfl⟩ := ih.1 before
        obtain ⟨next, step, same⟩ := (corresponds.step_iff form image).1 step
        exact ⟨next, near.step step, same⟩
    · rintro ⟨form, within, rfl⟩
      rcases within.start_or_step with rfl | ⟨previous, before, step⟩
      · rw [← corresponds.start]
        exact within_start (Nat.succ_pos n)
      · have near : h.Within n (f previous) := ih.2 ⟨previous, before, rfl⟩
        exact near.step ((corresponds.step_iff previous (f form)).2 ⟨form, step, rfl⟩)

theorem within_iff (corresponds : g.Corresponds f h) : h.Within n (f form) ↔ g.Within n form := by
  rw [corresponds.within_image_iff]
  constructor
  · rintro ⟨other, within, same⟩
    exact corresponds.injective same ▸ within
  · intro within
    exact ⟨form, within, rfl⟩

theorem exists_hasDepth_iff (corresponds : g.Corresponds f h) :
    (∃ image, h.HasDepth (n + 1) image) ↔ ∃ form, g.HasDepth (n + 1) form := by
  simp only [hasDepth_succ_iff]
  constructor
  · rintro ⟨image, within, far⟩
    obtain ⟨form, near, rfl⟩ := corresponds.within_image_iff.1 within
    exact ⟨form, near, mt corresponds.within_iff.2 far⟩
  · rintro ⟨form, within, far⟩
    exact ⟨f form, corresponds.within_iff.2 within, mt corresponds.within_iff.1 far⟩

/-- Correct answers to corresponding questions are alike, unless one of them met its state limit. -/
theorem alike (corresponds : g.Corresponds f h) {goal : Word} {limits : Limits} {d e : Derivation}
    (first : d.Correct g goal limits) (second : e.Correct h (f goal) limits)
    (d_settled : d ≠ .stateLimitReached) (e_settled : e ≠ .stateLimitReached) : e.Alike d := by
  have near {n : Nat} : h.Within n (f goal) ↔ g.Within n goal := corresponds.within_iff
  have deeper : (∃ image, h.HasDepth (limits.depth + 1) image) ↔
      ∃ form, g.HasDepth (limits.depth + 1) form := corresponds.exists_hasDepth_iff
  -- The depth of the goal, and whether anything lies one level too deep, tell the answers apart.
  cases d with
  | stateLimitReached => exact absurd rfl d_settled
  | found steps =>
    have within : h.Within limits.depth (f goal) := near.2 first.within
    cases e with
    | stateLimitReached => exact absurd rfl e_settled
    | found others =>
      refine .found (eq_of_forall_ge_iff fun n => ?_)
      rw [← second.1.within_iff, ← first.1.within_iff, near]
    | depthExceeded => exact absurd within second.1
    | notFound => exact absurd within.derivable second.1
  | depthExceeded =>
    cases e with
    | stateLimitReached => exact absurd rfl e_settled
    | found others => exact absurd (near.1 second.within) first.1
    | depthExceeded => exact .depthExceeded
    | notFound => exact absurd (deeper.2 first.2.2) second.none_deeper
  | notFound =>
    cases e with
    | stateLimitReached => exact absurd rfl e_settled
    | found others => exact absurd (near.1 second.within).derivable first.1
    | depthExceeded => exact absurd (deeper.1 second.2.2) first.none_deeper
    | notFound => exact .notFound

/-- Searches in corresponding grammars have the same outcome, unless one of them meets its state
limit. -/
theorem derive_alike (corresponds : g.Corresponds f h) {target image : Word}
    (goals : goal image = f (goal target)) {limits : Limits}
    (g_settled : g.derive target limits ≠ .stateLimitReached)
    (h_settled : h.derive image limits ≠ .stateLimitReached) :
    (h.derive image limits).Alike (g.derive target limits) := by
  have second := h.derive_correct image limits
  rw [goals] at second
  exact corresponds.alike (g.derive_correct target limits) second g_settled h_settled

end Corresponds

/-! ## The same rules -/

variable {g h : Grammar} {form next : Word}

theorem Step.mono (fewer : g.rules ⊆ h.rules) (step : g.Step form next) : h.Step form next := by
  obtain @⟨rule, before, after, declared, left_ne⟩ := step
  exact .apply before after (fewer declared) left_ne

theorem corresponds_of_rules (start : g.start = h.start)
    (rules : ∀ rule, rule ∈ g.rules ↔ rule ∈ h.rules) : g.Corresponds id h where
  injective := Function.injective_id
  start := start.symm
  step_iff := by
    intro form image
    constructor
    · intro step
      exact ⟨image, step.mono fun rule => (rules rule).2, rfl⟩
    · rintro ⟨next, step, rfl⟩
      exact step.mono fun rule => (rules rule).1

/-- Of a grammar only the start symbol and the set of its rules tell what a search answers: in which
order the rules are declared, how they are grouped and whether some come twice changes neither the
outcome nor the length of what is found, unless one of the searches meets its state limit. -/
theorem derive_alike_of_rules (g h : Grammar) (start : g.start = h.start)
    (rules : ∀ rule, rule ∈ g.rules ↔ rule ∈ h.rules) (target : Word) (limits : Limits)
    (g_settled : g.derive target limits ≠ .stateLimitReached)
    (h_settled : h.derive target limits ≠ .stateLimitReached) :
    (h.derive target limits).Alike (g.derive target limits) :=
  (corresponds_of_rules start rules).derive_alike rfl g_settled h_settled

/-- Two `t`, the first or the second one first. -/
def twins : Grammar where
  terminals := [['t']]
  nonTerminals := [['S'], ['T']]
  start := ['S']
  productions := ⟨[⟨['S'], [['t', 'T'], ['T', 't']]⟩, ⟨['T'], [['t']]⟩], by decide⟩
  terminals_nodup := by decide
  nonTerminals_nodup := by decide
  marker_not_mem := by decide
  disjoint := by decide
  start_mem := by decide

/-- The rules of `twins` in another order, one of them twice. -/
def shuffledTwins : Grammar where
  terminals := [['t']]
  nonTerminals := [['S'], ['T']]
  start := ['S']
  productions := ⟨[⟨['T'], [['t']]⟩, ⟨['S'], [['T', 't'], ['t', 'T'], ['T', 't']]⟩], by decide⟩
  terminals_nodup := by decide
  nonTerminals_nodup := by decide
  marker_not_mem := by decide
  disjoint := by decide
  start_mem := by decide

/-- The derivations that are found differ. -/
theorem derive_alike_twins :
    twins.start = shuffledTwins.start ∧
      (∀ rule, rule ∈ twins.rules ↔ rule ∈ shuffledTwins.rules) ∧
      twins.derive ['t', 't'] ⟨3, 4⟩ = .found [['S'], ['t', 'T'], ['t', 't']] ∧
      shuffledTwins.derive ['t', 't'] ⟨3, 4⟩ = .found [['S'], ['T', 't'], ['t', 't']] ∧
      (shuffledTwins.derive ['t', 't'] ⟨3, 4⟩).Alike (twins.derive ['t', 't'] ⟨3, 4⟩) := by
  have fewer : twins.rules ⊆ shuffledTwins.rules := by decide
  have more : shuffledTwins.rules ⊆ twins.rules := by decide
  have rules : ∀ rule, rule ∈ twins.rules ↔ rule ∈ shuffledTwins.rules :=
    fun rule => ⟨fun member => fewer member, fun member => more member⟩
  have first : twins.derive ['t', 't'] ⟨3, 4⟩ = .found [['S'], ['t', 'T'], ['t', 't']] := by
    rw [derive, (Search.Mirrors.initial twins.start).run]
    decide +kernel
  have second : shuffledTwins.derive ['t', 't'] ⟨3, 4⟩ =
      .found [['S'], ['T', 't'], ['t', 't']] := by
    rw [derive, (Search.Mirrors.initial shuffledTwins.start).run]
    decide +kernel
  exact ⟨rfl, rules, first, second,
    derive_alike_of_rules twins shuffledTwins rfl rules ['t', 't'] ⟨3, 4⟩ (by simp [first])
      (by simp [second])⟩

end Grammar

end Chomsky
