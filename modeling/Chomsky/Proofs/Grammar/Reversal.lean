import Mathlib.Data.List.Nodup
import Chomsky.Proofs.Derivation.Correspondence
import Chomsky.Proofs.Grammar.Conditions

/-!
# Grammars read backwards

`Grammar.reverse` writes every symbol and both sides of every rule backwards, in the same order of
declaration. The two directions of linear rules change places and so leave the level as it is. A
search in the reversed grammar comes to the occurrences in a form in another order, so it may find
another derivation, but one of the same length (`Grammar.classify_derive_reverse`).
-/

namespace Chomsky

def Side.opposite : Side → Side
  | left => right
  | right => left

@[simp] theorem Side.opposite_opposite (side : Side) : side.opposite.opposite = side := by
  cases side <;> rfl

theorem Side.reverse_join (side : Side) (terminals rest : Word) :
    (side.join terminals rest).reverse = side.opposite.join terminals.reverse rest.reverse := by
  cases side <;> exact List.reverse_append

@[simp] theorem reverse_eq_emptyMarker {w : Word} : w.reverse = emptyMarker ↔ w = emptyMarker :=
  List.reverse_eq_iff

theorem replacement_reverse (right : Word) :
    replacement right.reverse = (replacement right).reverse := by
  unfold replacement
  by_cases empty : right = emptyMarker
  · rw [if_pos (reverse_eq_emptyMarker.2 empty), if_pos empty]
    rfl
  · rw [if_neg (mt reverse_eq_emptyMarker.1 empty), if_neg empty]

theorem mem_map_reverse {w : Word} {ws : List Word} : w ∈ ws.map List.reverse ↔ w.reverse ∈ ws :=
  List.mem_map_of_involutive List.reverse_involutive

/-! ## Reversed grammars -/

def Rule.reverse (rule : Rule) : Rule := ⟨rule.left.reverse, rule.right.reverse⟩

def Production.reverse (p : Production) : Production :=
  ⟨p.left.reverse, p.alternatives.map List.reverse⟩

def Productions.reverse (ps : Productions) : Productions where
  entries := ps.entries.map Production.reverse
  nodup := by
    have lefts : (ps.entries.map Production.reverse).map Production.left =
        (ps.entries.map Production.left).map List.reverse := by
      simp [Production.reverse, Function.comp_def]
    rw [lefts]
    exact ps.nodup.map List.reverse_injective

namespace Grammar

/-- The grammar with its symbols and rules written backwards, in the same order. -/
def reverse (g : Grammar) : Grammar where
  terminals := g.terminals.map List.reverse
  nonTerminals := g.nonTerminals.map List.reverse
  start := g.start.reverse
  productions := g.productions.reverse
  terminals_nodup := g.terminals_nodup.map List.reverse_injective
  nonTerminals_nodup := g.nonTerminals_nodup.map List.reverse_injective
  marker_not_mem := g.marker_not_mem.imp (mt mem_map_reverse.1) (mt mem_map_reverse.1)
  disjoint := by
    intro t terminal nonTerminal
    exact g.disjoint t.reverse (mem_map_reverse.1 terminal) (mem_map_reverse.1 nonTerminal)
  start_mem := List.mem_map_of_mem g.start_mem

variable {g : Grammar} {side : Side} {w form next : Word}

theorem mem_terminals_reverse : w ∈ g.reverse.terminals ↔ w.reverse ∈ g.terminals :=
  mem_map_reverse

theorem mem_nonTerminals_reverse : w ∈ g.reverse.nonTerminals ↔ w.reverse ∈ g.nonTerminals :=
  mem_map_reverse

theorem rules_reverse : g.reverse.rules = g.rules.map Rule.reverse := by
  simp [rules, Productions.rules, reverse, Productions.reverse, Production.rules,
    Production.reverse, Rule.reverse, List.flatMap_map, List.map_flatMap, Function.comp_def]

theorem reverse_reverse (g : Grammar) : g.reverse.reverse = g := by
  simp [reverse, Productions.reverse, Production.reverse, Function.comp_def]

/-! ## Searches -/

theorem Step.reverse (step : g.Step form next) : g.reverse.Step form.reverse next.reverse := by
  obtain @⟨rule, before, after, declared, left_ne⟩ := step
  have reversed : rule.reverse ∈ g.reverse.rules := by
    rw [rules_reverse]
    exact List.mem_map_of_mem declared
  have backwards := Step.apply after.reverse before.reverse reversed
    (by simpa [Rule.reverse] using left_ne)
  simpa [Rule.reverse, replacement_reverse] using backwards

theorem corresponds_reverse : g.Corresponds List.reverse g.reverse where
  injective := List.reverse_injective
  start := rfl
  step_iff := by
    intro form image
    constructor
    · intro step
      have forwards := step.reverse
      rw [reverse_reverse, List.reverse_reverse] at forwards
      exact ⟨image.reverse, forwards, List.reverse_reverse image⟩
    · rintro ⟨next, step, rfl⟩
      exact step.reverse

/-! ## Levels -/

theorem isSingleNonTerminal_reverse :
    g.reverse.isSingleNonTerminal w.reverse ↔ g.isSingleNonTerminal w := by
  simp [isSingleNonTerminal_iff, mem_nonTerminals_reverse, List.reverse_eq_iff]

theorem allows_linearityOf_reverse :
    (g.reverse.linearityOf w.reverse).allows side ↔ (g.linearityOf w).allows side.opposite := by
  have backwards : ∀ t n : Char,
      w.reverse = side.join [t] [n] ↔ w = side.opposite.join [t] [n] := by
    intro t n
    rw [List.reverse_eq_iff, side.reverse_join]
    rfl
  simp [allows_linearityOf_iff, mem_terminals_reverse, mem_nonTerminals_reverse, backwards,
    List.reverse_eq_iff]

theorem fitsLinear_reverse {left alternative : Word} :
    g.reverse.FitsLinear side left.reverse alternative.reverse ↔
      g.FitsLinear side.opposite left alternative := by
  have start : left.reverse = g.reverse.start ↔ left = g.start := List.reverse_inj
  simp only [FitsLinear, Text.trim_reverse, reverse_eq_emptyMarker, start,
    allows_linearityOf_reverse]

/-- Rules that are linear to one side are linear to the other side when they are read backwards. -/
theorem isLinear_reverse : g.reverse.IsLinear side ↔ g.IsLinear side.opposite := by
  have production : ∀ p : Production,
      (g.reverse.isSingleNonTerminal (Text.trim p.reverse.left) ∧
        ∀ alternative ∈ p.reverse.alternatives,
          g.reverse.FitsLinear side (Text.trim p.reverse.left) alternative) ↔
      (g.isSingleNonTerminal (Text.trim p.left) ∧
        ∀ alternative ∈ p.alternatives,
          g.FitsLinear side.opposite (Text.trim p.left) alternative) := by
    intro p
    simp only [Production.reverse, Text.trim_reverse, isSingleNonTerminal_reverse,
      List.forall_mem_map, fitsLinear_reverse]
  have entries : g.reverse.productions.entries =
      g.productions.entries.map Production.reverse := rfl
  simp only [IsLinear, entries, List.forall_mem_map, production]

theorem classify_reverse (g : Grammar) : g.reverse.classify = g.classify := by
  have type3 : g.reverse.isType3 = g.isType3 := by
    have onto : Function.Surjective Side.opposite :=
      Function.Involutive.surjective Side.opposite_opposite
    rw [Bool.eq_iff_iff, isType3_iff, isType3_iff, onto.exists]
    simp only [isLinear_reverse, Side.opposite_opposite]
  have type2 : g.reverse.isType2 = g.isType2 := by
    rw [Bool.eq_iff_iff, isType2_iff, isType2_iff, rules_reverse, List.forall_mem_map]
    simp only [Rule.reverse, isSingleNonTerminal_reverse]
  have type1 : g.reverse.isType1 = g.isType1 := by
    have start : ∀ w : Word, w.reverse = g.reverse.start ↔ w = g.start := fun _ => List.reverse_inj
    rw [Bool.eq_iff_iff, isType1_iff, isType1_iff, rules_reverse, List.forall_mem_map]
    simp only [Rule.reverse, reverse_eq_emptyMarker, start, List.length_reverse]
  simp only [classify, type3, type2, type1]

/-- A grammar read backwards is on the same level. Unless one of the two searches meets its state
limit, a search in it for the target read backwards has the same outcome, and what it finds is as
long. -/
theorem classify_derive_reverse (g : Grammar) :
    g.reverse.classify = g.classify ∧
      ∀ target limits, g.derive target limits ≠ .stateLimitReached →
        g.reverse.derive target.reverse limits ≠ .stateLimitReached →
        (g.reverse.derive target.reverse limits).Alike (g.derive target limits) := by
  refine ⟨classify_reverse g, ?_⟩
  intro target limits settled reverse_settled
  exact corresponds_reverse.derive_alike (replacement_reverse target) settled reverse_settled

/-- An `x` and a `y`, from two symbols that can be replaced in either order. -/
def couple : Grammar where
  terminals := [['x'], ['y']]
  nonTerminals := [['S'], ['A'], ['B']]
  start := ['S']
  productions :=
    ⟨[⟨['S'], [['A', 'B']]⟩, ⟨['A'], [['x']]⟩, ⟨['B'], [['y']]⟩], by decide⟩
  terminals_nodup := by decide
  nonTerminals_nodup := by decide
  marker_not_mem := by decide
  disjoint := by decide
  start_mem := by decide

/-- Read backwards, the derivation that is found is another one. -/
theorem classify_derive_reverse_couple :
    couple.derive ['x', 'y'] ⟨4, 5⟩ =
        .found [['S'], ['A', 'B'], ['x', 'B'], ['x', 'y']] ∧
      couple.reverse.derive ['y', 'x'] ⟨4, 5⟩ =
        .found [['S'], ['B', 'A'], ['B', 'x'], ['y', 'x']] ∧
      couple.reverse.classify = couple.classify ∧
      (couple.reverse.derive ['y', 'x'] ⟨4, 5⟩).Alike (couple.derive ['x', 'y'] ⟨4, 5⟩) := by
  have forwards : couple.derive ['x', 'y'] ⟨4, 5⟩ =
      .found [['S'], ['A', 'B'], ['x', 'B'], ['x', 'y']] := by
    rw [derive, (Search.Mirrors.initial couple.start).run]
    decide +kernel
  have backwards : couple.reverse.derive ['y', 'x'] ⟨4, 5⟩ =
      .found [['S'], ['B', 'A'], ['B', 'x'], ['y', 'x']] := by
    rw [derive, (Search.Mirrors.initial couple.reverse.start).run]
    decide +kernel
  have settled : couple.derive ['x', 'y'] ⟨4, 5⟩ ≠ .stateLimitReached := by simp [forwards]
  have reverse_settled : couple.reverse.derive ['y', 'x'] ⟨4, 5⟩ ≠ .stateLimitReached := by
    simp [backwards]
  obtain ⟨level, alike⟩ := classify_derive_reverse couple
  exact ⟨forwards, backwards, level, alike ['x', 'y'] ⟨4, 5⟩ settled reverse_settled⟩

end Grammar

end Chomsky
