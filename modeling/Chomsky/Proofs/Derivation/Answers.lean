import Chomsky.Proofs.Derivation.Levels
import Chomsky.Proofs.Derivation.Mirror

/-!
# What the answers of a search mean

Every answer is correct (`Grammar.derive_correct`), and the conditions that the answers stand for
exclude each other, so an answer other than a met state limit is given exactly when its condition
holds. The conditions speak of derivations alone and not of the order of the search.
-/

namespace Chomsky

namespace Derivation.Correct

variable {g : Grammar} {goal : Word} {limits : Limits}

theorem within {steps : List Word} (correct : (found steps).Correct g goal limits) :
    g.Within limits.depth goal :=
  ⟨steps, correct.1.toIsDerivation, correct.2⟩

/-- A form one level too deep would have a derivation, but all forms that have one are near. -/
theorem none_deeper (exhausted : notFound.Correct g goal limits) :
    ¬ ∃ form, g.HasDepth (limits.depth + 1) form := by
  rintro ⟨form, deeper⟩
  have near : g.Within limits.depth form := exhausted.2.1 form deeper.within.derivable
  exact (Grammar.hasDepth_succ_iff.1 deeper).2 near

theorem not_notFound (correct : depthExceeded.Correct g goal limits) :
    ¬ notFound.Correct g goal limits :=
  fun exhausted => exhausted.none_deeper correct.2.2

theorem not_few (correct : stateLimitReached.Correct g goal limits) :
    ¬ {form | g.Within limits.depth form}.encard ≤ limits.states :=
  not_le_of_gt correct

/-- The forms within the depth limit are no more than all that have a derivation. -/
theorem few (exhausted : notFound.Correct g goal limits) :
    {form | g.Within limits.depth form}.encard ≤ limits.states :=
  (Set.encard_le_encard fun _ near => Grammar.Within.derivable near).trans exhausted.2.2

end Derivation.Correct

namespace Grammar

theorem derive_correct (g : Grammar) (target : Word) (limits : Limits) :
    (g.derive target limits).Correct g (goal target) limits := by
  rw [derive, (Search.Mirrors.initial g.start).run]
  exact (PathSearch.Explored.initial g (goal target) limits).run

/-- A derivation that is found derives the target, repeats no form, keeps the depth limit and is as
short as any derivation of the target. -/
theorem isShortest_of_derive_eq_found (g : Grammar) (target : Word) (limits : Limits)
    (steps : List Word) (found : g.derive target limits = .found steps) :
    g.IsDerivation (goal target) steps ∧ steps.Nodup ∧ steps.length ≤ limits.depth ∧
      ∀ other, g.IsDerivation (goal target) other → steps.length ≤ other.length := by
  have correct := g.derive_correct target limits
  rw [found] at correct
  obtain ⟨shortest, short⟩ := correct
  exact ⟨shortest.toIsDerivation, shortest.nodup, short, shortest.least⟩

/-- Any number of `a`, none included. -/
def powers : Grammar where
  terminals := [['a']]
  nonTerminals := [['S']]
  start := ['S']
  productions := ⟨[⟨['S'], [['a', 'S'], emptyMarker]⟩], by decide⟩
  terminals_nodup := by decide
  nonTerminals_nodup := by decide
  marker_not_mem := by decide
  disjoint := by decide
  start_mem := by decide

theorem isShortest_powers :
    powers.derive ['a', 'a'] ⟨4, 7⟩ =
        .found [['S'], ['a', 'S'], ['a', 'a', 'S'], ['a', 'a']] ∧
      powers.IsDerivation (goal ['a', 'a']) [['S'], ['a', 'S'], ['a', 'a', 'S'], ['a', 'a']] ∧
      [['S'], ['a', 'S'], ['a', 'a', 'S'], ['a', 'a']].Nodup ∧
      [['S'], ['a', 'S'], ['a', 'a', 'S'], ['a', 'a']].length ≤ Limits.depth ⟨4, 7⟩ ∧
      ∀ other, powers.IsDerivation (goal ['a', 'a']) other →
        [['S'], ['a', 'S'], ['a', 'a', 'S'], ['a', 'a']].length ≤ other.length := by
  have found : powers.derive ['a', 'a'] ⟨4, 7⟩ =
      .found [['S'], ['a', 'S'], ['a', 'a', 'S'], ['a', 'a']] := by
    rw [derive, (Search.Mirrors.initial powers.start).run]
    decide +kernel
  exact ⟨found, isShortest_of_derive_eq_found powers ['a', 'a'] ⟨4, 7⟩ _ found⟩

/-- `notFound` is definite: the target has no derivation of any length, because the forms that have
one are few, all lie within the depth limit and are all known. -/
theorem derive_eq_notFound_iff (g : Grammar) (target : Word) (limits : Limits) :
    g.derive target limits = .notFound ↔
      ¬ g.Derivable (goal target) ∧ (∀ form, g.Derivable form → g.Within limits.depth form) ∧
        {form | g.Derivable form}.encard ≤ limits.states := by
  have correct := g.derive_correct target limits
  constructor
  · intro answer
    rwa [answer] at correct
  · intro exhausted
    cases answer : g.derive target limits with
    | notFound => rfl
    | found steps =>
      rw [answer] at correct
      exact absurd correct.within.derivable exhausted.1
    | depthExceeded =>
      rw [answer] at correct
      exact absurd exhausted correct.not_notFound
    | stateLimitReached =>
      rw [answer] at correct
      exact absurd (Derivation.Correct.few exhausted) correct.not_few

/-- `depthExceeded`: the target has no derivation within the depth limit, the forms that have one
all found room, and some form lies exactly one level too deep. -/
theorem derive_eq_depthExceeded_iff (g : Grammar) (target : Word) (limits : Limits) :
    g.derive target limits = .depthExceeded ↔
      ¬ g.Within limits.depth (goal target) ∧
        {form | g.Within limits.depth form}.encard ≤ limits.states ∧
        ∃ form, g.HasDepth (limits.depth + 1) form := by
  have correct := g.derive_correct target limits
  constructor
  · intro answer
    rwa [answer] at correct
  · intro exceeded
    cases answer : g.derive target limits with
    | depthExceeded => rfl
    | found steps =>
      rw [answer] at correct
      exact absurd correct.within exceeded.1
    | notFound =>
      rw [answer] at correct
      exact absurd correct (Derivation.Correct.not_notFound exceeded)
    | stateLimitReached =>
      rw [answer] at correct
      exact absurd exceeded.2.1 correct.not_few

/-- When the forms within the depth limit all find room, the search finds every target among them.
The state limit is met only when they do not. -/
theorem derive_of_encard_le (g : Grammar) (target : Word) (limits : Limits) :
    ({form | g.Within limits.depth form}.encard ≤ limits.states →
      g.derive target limits ≠ .stateLimitReached ∧
        ((∃ steps, g.derive target limits = .found steps) ↔
          g.Within limits.depth (goal target))) ∧
      (g.derive target limits = .stateLimitReached →
        limits.states < {form | g.Within limits.depth form}.encard) := by
  have correct := g.derive_correct target limits
  have met : g.derive target limits = .stateLimitReached →
      limits.states < {form | g.Within limits.depth form}.encard := by
    intro answer
    rwa [answer] at correct
  refine ⟨?_, met⟩
  intro few
  have settled : g.derive target limits ≠ .stateLimitReached :=
    fun answer => not_le_of_gt (met answer) few
  refine ⟨settled, ?_⟩
  constructor
  · intro hit
    obtain ⟨steps, answer⟩ := hit
    rw [answer] at correct
    exact correct.within
  · intro near
    cases answer : g.derive target limits with
    | found steps => exact ⟨steps, rfl⟩
    | depthExceeded =>
      rw [answer] at correct
      exact absurd near correct.1
    | notFound =>
      rw [answer] at correct
      exact absurd near.derivable correct.1
    | stateLimitReached => exact absurd answer settled

end Grammar

end Chomsky
