import Mathlib.Data.List.Basic
import Chomsky.Proofs.Derivation.Reach
import Chomsky.Proofs.Grammar.Conditions
import Chomsky.Proofs.Grammar.Reading

/-!
# Linear derivations

In a regular grammar all derived forms have one shape: terminals, and at most one non-terminal,
which stands on the side of the terminals to which the grammar is linear (`Grammar.IsLinearForm`).
The right side of each rule has this shape (`IsLinear.of_rule`), one step keeps it
(`IsLinearForm.step`) and so does a run (`IsLinear.of_reaches`). Main statement:
`Grammar.reaches_of_isType3`.
-/

namespace Chomsky

namespace Side

variable {side : Side} {terminals rest before after : Word} {c n : Char}

theorem join_nil (side : Side) (terminals : Word) : side.join terminals [] = terminals := by
  cases side <;> simp [join]

theorem nil_join (side : Side) (rest : Word) : side.join [] rest = rest := by
  cases side <;> simp [join]

theorem join_join (side : Side) (outer inner rest : Word) :
    side.join outer (side.join inner rest) = side.join (side.join outer inner) rest := by
  cases side <;> simp [join]

theorem mem_join_iff : c ∈ side.join terminals rest ↔ c ∈ terminals ∨ c ∈ rest := by
  cases side <;> simp [join, or_comm]

theorem countP_join (side : Side) (holds : Char → Bool) (terminals rest : Word) :
    (side.join terminals rest).countP holds = terminals.countP holds + rest.countP holds := by
  cases side <;> simp [join, Nat.add_comm]

/-- Only the character beside the terminals can be cut out when it is no terminal itself. -/
theorem of_join_eq (fresh : c ∉ terminals)
    (cut : side.join terminals [n] = before ++ [c] ++ after) :
    ∀ middle, before ++ middle ++ after = side.join terminals middle := by
  have inj : ∀ front back : Word, c ∉ front → c ∉ back →
      front ++ [n] ++ back = before ++ [c] ++ after → front = before ∧ back = after := by
    intro front back notFront notBack same
    simp only [List.append_assoc, List.singleton_append] at same
    obtain ⟨front_eq, _, back_eq⟩ := (List.append_cons_inj_of_notMem notFront notBack).1 same
    exact ⟨front_eq, back_eq⟩
  intro middle
  cases side with
  | left =>
    obtain ⟨rfl, rfl⟩ := inj [] terminals (by simp) fresh cut
    simp [join]
  | right =>
    obtain ⟨rfl, rfl⟩ := inj terminals [] fresh (by simp) (by simpa [join] using cut)
    simp [join]

end Side

namespace Grammar

variable {g : Grammar} {side : Side} {form next : Word}

/-- A string of terminals of one character. -/
def IsTerminalWord (g : Grammar) (w : Word) : Prop := ∀ c ∈ w, [c] ∈ g.terminals

/-- Terminals, and on the given side of them at most one non-terminal. -/
def IsLinearForm (g : Grammar) (side : Side) (form : Word) : Prop :=
  ∃ terminals rest, g.IsTerminalWord terminals ∧
    (rest = [] ∨ ∃ n, [n] ∈ g.nonTerminals ∧ rest = [n]) ∧ form = side.join terminals rest

theorem IsTerminalWord.join {outer inner : Word} (side : Side) (first : g.IsTerminalWord outer)
    (second : g.IsTerminalWord inner) : g.IsTerminalWord (side.join outer inner) := by
  intro c member
  rcases Side.mem_join_iff.1 member with inside | inside
  · exact first c inside
  · exact second c inside

theorem IsTerminalWord.not_mem {terminals : Word} {c : Char} (word : g.IsTerminalWord terminals)
    (nonTerminal : [c] ∈ g.nonTerminals) : c ∉ terminals :=
  fun member => g.disjoint [c] (word c member) nonTerminal

/-- A rule puts a text of the linear shape in place of one non-terminal. -/
theorem IsLinear.of_rule (linear : g.IsLinear side) (tidy : g.IsTidy) {rule : Rule}
    (declared : rule ∈ g.rules) :
    (∃ n, rule.left = [n] ∧ [n] ∈ g.nonTerminals) ∧
      g.IsLinearForm side (replacement rule.right) := by
  obtain ⟨single, fit⟩ := tidy.isLinear_iff.1 linear rule declared
  refine ⟨isSingleNonTerminal_iff.1 single, ?_⟩
  rw [FitsLinear, (tidy.isSolid_of_mem_rules declared).2.trim] at fit
  by_cases empty : rule.right = emptyMarker
  · refine ⟨[], [], by simp [IsTerminalWord], Or.inl rfl, ?_⟩
    rw [replacement, if_pos empty, side.join_nil]
  · rw [if_neg empty] at fit
    obtain ⟨t, terminal, shape⟩ := allows_linearityOf_iff.1 fit
    have word : g.IsTerminalWord [t] := by simpa [IsTerminalWord] using terminal
    rw [replacement, if_neg empty]
    rcases shape with alone | ⟨n, nonTerminal, pair⟩
    · exact ⟨[t], [], word, Or.inl rfl, by rw [alone, side.join_nil]⟩
    · exact ⟨[t], [n], word, Or.inr ⟨n, nonTerminal, rfl⟩, pair⟩

/-- A step cuts out the only non-terminal of a linear form, and what it puts there is linear to the
same side. -/
theorem IsLinearForm.step (shape : g.IsLinearForm side form) (linear : g.IsLinear side)
    (tidy : g.IsTidy) (step : g.Step form next) : g.IsLinearForm side next := by
  obtain ⟨outer, rest, word, beside, cut⟩ := shape
  obtain @⟨rule, before, after, declared, left_ne⟩ := step
  obtain ⟨⟨c, left, nonTerminal⟩, inner, last, innerWord, lastBeside, right⟩ :=
    linear.of_rule tidy declared
  have fresh : c ∉ outer := word.not_mem nonTerminal
  rw [left] at cut
  rcases beside with rfl | ⟨n, _, rfl⟩
  · rw [side.join_nil] at cut
    exact absurd (by rw [← cut]; simp) fresh
  · refine ⟨side.join outer inner, last, word.join side innerWord, lastBeside, ?_⟩
    rw [Side.of_join_eq fresh cut.symm, right, side.join_join]

theorem IsLinear.of_reaches (linear : g.IsLinear side) (tidy : g.IsTidy)
    (single : g.start.length = 1) (reaches : g.Reaches g.start form) :
    g.IsLinearForm side form := by
  induction reaches with
  | refl =>
    obtain ⟨n, start⟩ := List.length_eq_one_iff.1 single
    have member := g.start_mem
    rw [start] at member ⊢
    exact ⟨[], [n], by simp [IsTerminalWord], Or.inr ⟨n, member, rfl⟩, (side.nil_join [n]).symm⟩
  | tail _ step ih => exact ih.step linear tidy step

theorem IsLinearForm.countP_le (shape : g.IsLinearForm side form) :
    form.countP (fun c => g.nonTerminals.contains [c]) ≤ 1 := by
  obtain ⟨terminals, rest, word, beside, rfl⟩ := shape
  have none : terminals.countP (fun c => g.nonTerminals.contains [c]) = 0 := by
    rw [List.countP_eq_zero]
    intro c member
    simpa using g.disjoint [c] (word c member)
  have few : rest.length ≤ 1 := by
    rcases beside with rfl | ⟨n, _, rfl⟩ <;> simp
  rw [side.countP_join, none, Nat.zero_add]
  exact List.countP_le_length.trans few

/-- In a regular grammar that was read, all forms that the start symbol reaches are terminals with
at most one non-terminal behind them, or all are terminals with at most one non-terminal before
them. So no form of a derivation that is found has two characters that are non-terminals. -/
theorem reaches_of_isType3 (g : Grammar) (read : g.IsRead) (single : g.start.length = 1)
    (regular : g.isType3) :
    ((∀ form, g.Reaches g.start form → ∃ w, g.IsTerminalWord w ∧
        (form = w ∨ ∃ n, [n] ∈ g.nonTerminals ∧ form = w ++ [n])) ∨
      (∀ form, g.Reaches g.start form → ∃ w, g.IsTerminalWord w ∧
        (form = w ∨ ∃ n, [n] ∈ g.nonTerminals ∧ form = [n] ++ w))) ∧
    ∀ target limits steps, g.derive target limits = .found steps →
      ∀ form ∈ steps, form.countP (fun c => g.nonTerminals.contains [c]) ≤ 1 := by
  obtain ⟨side, linear⟩ := isType3_iff.1 regular
  have shape : ∀ form, g.Reaches g.start form → g.IsLinearForm side form :=
    fun form reaches => linear.of_reaches read.tidy single reaches
  refine ⟨?_, ?_⟩
  · have spelled : ∀ form, g.Reaches g.start form → ∃ w, g.IsTerminalWord w ∧
        (form = w ∨ ∃ n, [n] ∈ g.nonTerminals ∧ form = side.join w [n]) := by
      intro form reaches
      obtain ⟨w, rest, word, rfl | ⟨n, nonTerminal, rfl⟩, rfl⟩ := shape form reaches
      · exact ⟨w, word, Or.inl (side.join_nil w)⟩
      · exact ⟨w, word, Or.inr ⟨n, nonTerminal, rfl⟩⟩
    cases side with
    | left => exact Or.inr spelled
    | right => exact Or.inl spelled
  · intro target limits steps found form member
    exact (shape form (reaches_of_found found member)).countP_le

theorem reaches_of_isType3_trailing :
    trailing.IsRead ∧ trailing.start.length = 1 ∧ trailing.isType3 = true ∧
      ((∀ form, trailing.Reaches trailing.start form → ∃ w, trailing.IsTerminalWord w ∧
          (form = w ∨ ∃ n, [n] ∈ trailing.nonTerminals ∧ form = w ++ [n])) ∨
        (∀ form, trailing.Reaches trailing.start form → ∃ w, trailing.IsTerminalWord w ∧
          (form = w ∨ ∃ n, [n] ∈ trailing.nonTerminals ∧ form = [n] ++ w))) ∧
      ∀ target limits steps, trailing.derive target limits = .found steps →
        ∀ form ∈ steps, form.countP (fun c => trailing.nonTerminals.contains [c]) ≤ 1 :=
  ⟨isRead_trailing, rfl, by decide, reaches_of_isType3 trailing isRead_trailing rfl (by decide)⟩

end Grammar

end Chomsky
