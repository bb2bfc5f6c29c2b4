import Mathlib.Data.List.Chain
import Chomsky.Proofs.Derivation.Reach
import Chomsky.Proofs.Grammar.Conditions

/-!
# Lengths of derived forms

The check for context-sensitivity counts the marker of the empty string as one character, but a step
puts nothing in its place. The two differ for one rule only, the one that lets the start symbol
vanish, and then the start symbol is a single character (`Step.length_le_or_erasesStart`). Without
that rule no step, no run and no derivation gets shorter. Main statement:
`Grammar.lengths_of_isType1`.
-/

namespace Chomsky.Grammar

variable {g : Grammar} {form next : Word} {steps : List Word}

/-- The start symbol is a single character, and one occurrence of it is taken out of the form. -/
def ErasesStart (g : Grammar) (form next : Word) : Prop :=
  ∃ c before after, g.start = [c] ∧ form = before ++ [c] ++ after ∧ next = before ++ after

/-- What a rule puts is as long as what it takes away, unless it lets the start symbol vanish. -/
theorem length_le_or_vanishes (contextSensitive : g.isType1) {rule : Rule}
    (declared : rule ∈ g.rules) (left_ne : rule.left ≠ []) :
    rule.left.length ≤ (replacement rule.right).length ∨
      rule = ⟨g.start, emptyMarker⟩ ∧ ∃ c, g.start = [c] := by
  obtain ⟨start, longer⟩ := isType1_iff.1 contextSensitive rule declared
  by_cases empty : rule.right = emptyMarker
  · have left : rule.left = g.start := start empty
    -- The marker is one character long, so the left side is no longer than that.
    have short : rule.left.length ≤ 1 := by simpa [empty, emptyMarker] using longer
    have single : rule.left.length = 1 := le_antisymm short (List.length_pos_iff.2 left_ne)
    obtain ⟨c, same⟩ := List.length_eq_one_iff.1 single
    refine Or.inr ⟨?_, c, left ▸ same⟩
    rw [← left, ← empty]
  · rw [replacement, if_neg empty]
    exact Or.inl longer

theorem Step.length_le_or_erasesStart (contextSensitive : g.isType1) (step : g.Step form next) :
    form.length ≤ next.length ∨
      (⟨g.start, emptyMarker⟩ : Rule) ∈ g.rules ∧ g.ErasesStart form next := by
  obtain @⟨rule, before, after, declared, left_ne⟩ := step
  rcases length_le_or_vanishes contextSensitive declared left_ne with longer | ⟨rfl, c, single⟩
  · left
    simp only [List.length_append]
    omega
  · right
    refine ⟨declared, c, before, after, single, by rw [single], ?_⟩
    rw [replacement, if_pos rfl, List.append_nil]

section Lasting

variable (contextSensitive : g.isType1)
  (lasting : (⟨g.start, emptyMarker⟩ : Rule) ∉ g.rules)

include contextSensitive lasting

theorem Step.length_le (step : g.Step form next) : form.length ≤ next.length :=
  (step.length_le_or_erasesStart contextSensitive).resolve_right fun erased => lasting erased.1

theorem Reaches.length_le (reaches : g.Reaches form next) : form.length ≤ next.length := by
  induction reaches with
  | refl => exact le_rfl
  | tail _ step ih => exact ih.trans (step.length_le contextSensitive lasting)

theorem IsDerivation.lengths_sorted (derivation : g.IsDerivation form steps) :
    (steps.map List.length).Pairwise (· ≤ ·) := by
  have chain := linked_iff_isChain.1 derivation.linked
  have grows := chain.imp fun _ _ step => Step.length_le contextSensitive lasting step
  exact List.isChain_iff_pairwise.1 ((List.isChain_map _).2 grows)

end Lasting

/-- In a context-sensitive grammar a step makes no form shorter, or it takes out one occurrence of a
start symbol of one character. Unless a rule lets the start symbol vanish, the lengths of the forms
of a derivation that is found never decrease, and no form shorter than the start symbol is found. -/
theorem lengths_of_isType1 (g : Grammar) (contextSensitive : g.isType1) :
    (∀ form next, g.Step form next → form.length ≤ next.length ∨ g.ErasesStart form next) ∧
      ((⟨g.start, emptyMarker⟩ : Rule) ∉ g.rules → ∀ target limits,
        (∀ steps, g.derive target limits = .found steps →
          (steps.map List.length).Pairwise (· ≤ ·)) ∧
        ((goal target).length < g.start.length → ¬ (g.derive target limits).isFound)) := by
  refine ⟨?_, ?_⟩
  · intro form next step
    exact (step.length_le_or_erasesStart contextSensitive).imp_right And.right
  · intro lasting target limits
    refine ⟨?_, ?_⟩
    · intro steps found
      exact (isDerivation_of_found found).lengths_sorted contextSensitive lasting
    · intro shorter hit
      obtain ⟨steps, found⟩ := Derivation.isFound_iff.1 hit
      have longer : g.start.length ≤ (goal target).length :=
        (isDerivation_of_found found).reaches.length_le contextSensitive lasting
      exact absurd longer (Nat.not_le_of_lt shorter)

/-- As many `a` as `b` as `c`, in this order. -/
def triples : Grammar where
  terminals := [['a'], ['b'], ['c']]
  nonTerminals := [['S'], ['B'], ['C']]
  start := ['S']
  productions :=
    ⟨[⟨['S'], [['a', 'S', 'B', 'C'], ['a', 'B', 'C']]⟩, ⟨['C', 'B'], [['B', 'C']]⟩,
      ⟨['a', 'B'], [['a', 'b']]⟩, ⟨['b', 'B'], [['b', 'b']]⟩, ⟨['b', 'C'], [['b', 'c']]⟩,
      ⟨['c', 'C'], [['c', 'c']]⟩], by decide⟩
  terminals_nodup := by decide
  nonTerminals_nodup := by decide
  marker_not_mem := by decide
  disjoint := by decide
  start_mem := by decide

theorem lengths_triples :
    triples.isType1 = true ∧ (⟨['S'], emptyMarker⟩ : Rule) ∉ triples.rules ∧
      triples.derive ['a', 'b', 'c'] ⟨4, 12⟩ =
        .found [['S'], ['a', 'B', 'C'], ['a', 'b', 'C'], ['a', 'b', 'c']] ∧
      ([['S'], ['a', 'B', 'C'], ['a', 'b', 'C'], ['a', 'b', 'c']].map List.length).Pairwise
        (· ≤ ·) ∧
      ¬ (triples.derive emptyMarker ⟨4, 12⟩).isFound := by
  have found : triples.derive ['a', 'b', 'c'] ⟨4, 12⟩ =
      .found [['S'], ['a', 'B', 'C'], ['a', 'b', 'C'], ['a', 'b', 'c']] := by
    rw [derive, (Search.Mirrors.initial triples.start).run]
    decide +kernel
  have contextSensitive : triples.isType1 = true := by decide
  have lasting : (⟨['S'], emptyMarker⟩ : Rule) ∉ triples.rules := by decide
  obtain ⟨_, runs⟩ := lengths_of_isType1 triples contextSensitive
  refine ⟨contextSensitive, lasting, found, ?_, ?_⟩
  · exact (runs lasting ['a', 'b', 'c'] ⟨4, 12⟩).1 _ found
  · exact (runs lasting emptyMarker ⟨4, 12⟩).2 (by decide)

end Chomsky.Grammar
