import Chomsky.Proofs.Derivation.Reach
import Chomsky.Proofs.Grammar.Conditions

/-!
# Context-free derivations

A rule with one character on its left applies within one of two neighbouring texts and leaves the
other alone (`Step.of_append`). So a run from two texts side by side is a run from each of them, and
the two may be taken in any order (`Grammar.reaches_append_iff`).
-/

namespace Chomsky.Grammar

variable {g : Grammar} {first second next : Word}

theorem left_of_isType2 (contextFree : g.isType2) {rule : Rule} (declared : rule ∈ g.rules) :
    ∃ c, rule.left = [c] := by
  obtain ⟨c, left, _⟩ := isSingleNonTerminal_iff.1 (isType2_iff.1 contextFree rule declared)
  exact ⟨c, left⟩

/-- The character that a step replaces stands in one of the two texts. -/
theorem Step.of_append (contextFree : g.isType2) (step : g.Step (first ++ second) next) :
    (∃ changed, g.Step first changed ∧ next = changed ++ second) ∨
      ∃ changed, g.Step second changed ∧ next = first ++ changed := by
  generalize joined : first ++ second = form at step
  obtain @⟨rule, before, after, declared, left_ne⟩ := step
  obtain ⟨c, left⟩ := left_of_isType2 contextFree declared
  rw [left, List.append_assoc, List.singleton_append] at joined
  have anywhere := fun inner outer => Step.apply inner outer declared left_ne
  -- Either the first text ends before the character, or the character lies within it or starts the
  -- second text.
  rcases List.append_eq_append_iff.1 joined with ⟨between, rfl, rfl⟩ | ⟨between, rfl, rest⟩
  · refine Or.inr ⟨between ++ replacement rule.right ++ after, ?_, by simp⟩
    simpa [left] using anywhere between after
  · cases between with
    | nil =>
      obtain rfl : second = c :: after := by simpa using rest.symm
      refine Or.inr ⟨replacement rule.right ++ after, ?_, by simp⟩
      simpa [left] using anywhere [] after
    | cons d between =>
      obtain ⟨rfl, rfl⟩ := List.cons.inj rest
      refine Or.inl ⟨before ++ replacement rule.right ++ between, ?_, by simp⟩
      simpa [left] using anywhere before between

/-- In a context-free grammar, a run from two texts side by side is two runs side by side. -/
theorem reaches_append_iff (g : Grammar) (contextFree : g.isType2) (u v w : Word) :
    g.Reaches (u ++ v) w ↔ ∃ first second, w = first ++ second ∧ g.Reaches u first ∧
      g.Reaches v second := by
  constructor
  · intro reaches
    induction reaches with
    | refl => exact ⟨u, v, rfl, .refl, .refl⟩
    | tail _ step ih =>
      obtain ⟨first, second, rfl, left, right⟩ := ih
      rcases step.of_append contextFree with ⟨changed, inner, rfl⟩ | ⟨changed, inner, rfl⟩
      · exact ⟨changed, second, rfl, left.tail inner, right⟩
      · exact ⟨first, changed, rfl, left, right.tail inner⟩
  · rintro ⟨first, second, rfl, left, right⟩
    have run_left : g.Reaches (u ++ v) (first ++ v) := by simpa using left.within [] v
    have run_right : g.Reaches (first ++ v) (first ++ second) := by
      simpa using right.within first []
    exact run_left.trans run_right

theorem reaches_append_powers :
    powers.isType2 = true ∧
      (powers.Reaches (['S'] ++ ['S']) ['a', 'S', 'a'] ↔
        ∃ first second, ['a', 'S', 'a'] = first ++ second ∧ powers.Reaches ['S'] first ∧
          powers.Reaches ['S'] second) ∧
      powers.Reaches (['S'] ++ ['S']) ['a', 'S', 'a'] := by
  have split := reaches_append_iff powers (by decide) ['S'] ['S'] ['a', 'S', 'a']
  have longer : powers.Step ['S'] ['a', 'S'] := mem_successors_iff.1 (by decide)
  have ended : powers.Step ['a', 'S'] ['a'] := mem_successors_iff.1 (by decide)
  have open_run : powers.Reaches ['S'] ['a', 'S'] := .tail .refl longer
  exact ⟨by decide, split, split.2 ⟨['a', 'S'], ['a'], rfl, open_run, open_run.tail ended⟩⟩

end Chomsky.Grammar
