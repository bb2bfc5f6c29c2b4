import Chomsky.Derivation.Step
import Chomsky.Text.Occurrence

/-!
# Successors of a form

`successors` lists the forms one step away: left-hand sides in declaration order, for each
its occurrences from left to right with overlaps, for each of those the alternatives in order. The
same form may come more than once. Main statement: `Grammar.mem_successors_iff`.
-/

namespace Chomsky

namespace Production

/-- The forms one step away by rules of one production. -/
def successors (p : Production) (form : Word) : List Word :=
  (Text.cuts p.left form).flatMap fun (before, after) =>
    p.alternatives.map fun right => before ++ replacement right ++ after

end Production

def Grammar.successors (g : Grammar) (form : Word) : List Word :=
  g.productions.entries.flatMap fun p => p.successors form

theorem Production.mem_successors_iff {p : Production} {form next : Word} :
    next ∈ p.successors form ↔
      p.left ≠ [] ∧ ∃ before after, form = before ++ p.left ++ after ∧
        ∃ right ∈ p.alternatives, before ++ replacement right ++ after = next := by
  by_cases left_ne : p.left = []
  · simp [successors, Text.cuts_of_isEmpty, left_ne]
  · simp [successors, Text.mem_cuts_iff left_ne, left_ne]

/-- The listed forms are exactly those that one step reaches. -/
theorem Grammar.mem_successors_iff {g : Grammar} {form next : Word} :
    next ∈ g.successors form ↔ g.Step form next := by
  simp only [successors, List.mem_flatMap, Production.mem_successors_iff]
  constructor
  · rintro ⟨p, member, left_ne, before, after, rfl, right, alternative, rfl⟩
    have declared : (⟨p.left, right⟩ : Rule) ∈ g.rules :=
      mem_rules_iff.2 ⟨p, member, rfl, alternative⟩
    exact .apply before after declared left_ne
  · rintro @⟨rule, before, after, declared, left_ne⟩
    obtain ⟨p, member, left, alternative⟩ := mem_rules_iff.1 declared
    rw [← left] at left_ne ⊢
    exact ⟨p, member, left_ne, before, after, rfl, rule.right, alternative, rfl⟩

end Chomsky
