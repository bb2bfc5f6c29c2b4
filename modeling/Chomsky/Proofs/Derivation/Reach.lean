import Chomsky.Proofs.Derivation.Answers

/-!
# Runs of steps

Runs compose, and a step or a run goes on in the same way inside any longer form (`Step.within`,
`Reaches.within`). What a search finds is made of forms that runs from the start symbol reach
(`reaches_of_found`).
-/

namespace Chomsky.Grammar

variable {g : Grammar} {form next last : Word} {steps : List Word}

theorem Step.within (before after : Word) (step : g.Step form next) :
    g.Step (before ++ form ++ after) (before ++ next ++ after) := by
  obtain @⟨rule, inner, outer, declared, left_ne⟩ := step
  have longer := Step.apply (before ++ inner) (outer ++ after) declared left_ne
  simpa only [List.append_assoc] using longer

theorem Reaches.trans (first : g.Reaches form next) (second : g.Reaches next last) :
    g.Reaches form last := by
  induction second with
  | refl => exact first
  | tail _ step ih => exact ih.tail step

theorem Reaches.within (before after : Word) (reaches : g.Reaches form next) :
    g.Reaches (before ++ form ++ after) (before ++ next ++ after) := by
  induction reaches with
  | refl => exact .refl
  | tail _ step ih => exact ih.tail (step.within before after)

theorem IsDerivation.reaches (derivation : g.IsDerivation form steps) : g.Reaches g.start form := by
  induction h : steps.length generalizing form steps with
  | zero => exact absurd (List.length_eq_zero_iff.1 h) derivation.ne_nil
  | succ n ih =>
    rcases derivation.last_step with ⟨_, rfl⟩ | ⟨earlier, previous, rfl, before, step⟩
    · exact .refl
    · exact (ih before (by simpa using h)).tail step

/-- What a search finds is a derivation of the form that the target asks for. -/
theorem isDerivation_of_found {target : Word} {limits : Limits}
    (found : g.derive target limits = .found steps) : g.IsDerivation (goal target) steps := by
  have correct := g.derive_correct target limits
  rw [found] at correct
  exact correct.1.toIsDerivation

/-- Every form of a derivation that is found can be reached. -/
theorem reaches_of_found {target : Word} {limits : Limits}
    (found : g.derive target limits = .found steps) (member : form ∈ steps) :
    g.Reaches g.start form := by
  have derivation := isDerivation_of_found found
  obtain ⟨earlier, later, rfl⟩ := List.append_of_mem member
  exact derivation.upTo.reaches

end Chomsky.Grammar
