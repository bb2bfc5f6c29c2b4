import Chomsky.Grammar.Hierarchy

/-!
# The conditions of the hierarchy, rule by rule

`Grammar.linearity?` walks once through all rules and keeps the directions that are left. What it
decides is a condition on each rule by itself, for one side at a time: `Grammar.isType3_iff` and
`Grammar.allows_linearityOf_iff`, written out in `Grammar.isType3_iff_shapes`. Context-freeness and
context-sensitivity are conditions on each rule as well (`Grammar.isType2_iff`,
`Grammar.isType1_iff`).
-/

namespace Chomsky

/-- The side of a linear rule on which its non-terminal stands. -/
inductive Side where
  | left
  | right
  deriving DecidableEq, Repr

/-- The terminals and what stands on the given side of them. -/
def Side.join : Side → Word → Word → Word
  | left, terminals, rest => rest ++ terminals
  | right, terminals, rest => terminals ++ rest

namespace Linearity

/-- The direction with the non-terminal on the given side is left. -/
def allows (directions : Linearity) : Side → Bool
  | .left => directions.left
  | .right => directions.right

theorem any_iff {directions : Linearity} : directions.any ↔ ∃ side, directions.allows side := by
  rw [any, Bool.or_eq_true]
  constructor
  · rintro (right | left)
    · exact ⟨.right, right⟩
    · exact ⟨.left, left⟩
  · rintro ⟨side, allowed⟩
    cases side with
    | left => exact Or.inr allowed
    | right => exact Or.inl allowed

theorem allows_both (side : Side) : both.allows side := by cases side <;> rfl

theorem allows_meet {a b : Linearity} {side : Side} :
    (a.meet b).allows side ↔ a.allows side ∧ b.allows side := by
  cases side <;> exact Bool.and_eq_true_iff

end Linearity

/-- A fold that may fail keeps a condition exactly when it holds at the start and each element, by
itself, keeps it. -/
theorem any_foldlM_iff {σ α : Type} {f : σ → α → Option σ} {holds : σ → Bool} {Keeps : α → Prop}
    (step : ∀ s a, (f s a).any holds ↔ holds s ∧ Keeps a) (as : List α) (s : σ) :
    (as.foldlM f s).any holds ↔ holds s ∧ ∀ a ∈ as, Keeps a := by
  induction as generalizing s with
  | nil => simp [Option.any]
  | cons a as ih =>
    rw [List.foldlM_cons, List.forall_mem_cons, ← and_assoc, ← step]
    cases f s a with
    | none => simp [Option.any]
    | some t => exact ih t

namespace Grammar

variable {g : Grammar} {side : Side} {w left : Word}

theorem isSingleNonTerminal_iff {w : Word} :
    g.isSingleNonTerminal w ↔ ∃ n, w = [n] ∧ [n] ∈ g.nonTerminals := by
  rw [isSingleNonTerminal, Bool.and_eq_true, beq_iff_eq, List.length_eq_one_iff,
    List.contains_iff_mem]
  constructor
  · rintro ⟨⟨n, rfl⟩, member⟩
    exact ⟨n, rfl, member⟩
  · rintro ⟨n, rfl, member⟩
    exact ⟨⟨n, rfl⟩, member⟩

/-- What a linear grammar asks of an alternative: the marker of the empty string stands under the
start symbol only, any other one is linear on the given side. -/
def FitsLinear (g : Grammar) (side : Side) (left alternative : Word) : Prop :=
  if Text.trim alternative = emptyMarker then left = g.start
  else (g.linearityOf (Text.trim alternative)).allows side

/-- All rules are linear with the non-terminal on the given side. -/
def IsLinear (g : Grammar) (side : Side) : Prop :=
  ∀ p ∈ g.productions.entries, g.isSingleNonTerminal (Text.trim p.left) ∧
    ∀ alternative ∈ p.alternatives, g.FitsLinear side (Text.trim p.left) alternative

/-- The shapes `t`, and `Nt` or `tN` after the side. -/
theorem allows_linearityOf_iff :
    (g.linearityOf w).allows side ↔
      ∃ t, [t] ∈ g.terminals ∧ (w = [t] ∨ ∃ n, [n] ∈ g.nonTerminals ∧ w = side.join [t] [n]) := by
  rcases w with _ | ⟨a, _ | ⟨b, _ | ⟨c, rest⟩⟩⟩
  · cases side <;> simp [linearityOf, Linearity.allows, Side.join]
  · cases side <;> simp [linearityOf, Linearity.allows, Side.join]
  · cases side with
    | left =>
      suffices [a] ∈ g.nonTerminals ∧ [b] ∈ g.terminals ↔
          ∃ t, [t] ∈ g.terminals ∧ ∃ n, [n] ∈ g.nonTerminals ∧ a = n ∧ b = t by
        simpa [linearityOf, Linearity.allows, Side.join] using this
      constructor
      · rintro ⟨nonTerminal, terminal⟩
        exact ⟨b, terminal, a, nonTerminal, rfl, rfl⟩
      · rintro ⟨t, terminal, n, nonTerminal, rfl, rfl⟩
        exact ⟨nonTerminal, terminal⟩
    | right => simp [linearityOf, Linearity.allows, Side.join]
  · cases side <;> simp [linearityOf, Linearity.allows, Side.join]

theorem allows_meetAlternative_iff (directions : Linearity) (alternative : Word) :
    (g.meetAlternative left directions alternative).any (·.allows side) ↔
      directions.allows side ∧ g.FitsLinear side left alternative := by
  unfold meetAlternative FitsLinear
  dsimp only
  by_cases empty : Text.trim alternative = emptyMarker
  · rw [if_pos empty, if_pos empty]
    by_cases start : left = g.start <;> simp [start, Option.any]
  · rw [if_neg empty, if_neg empty]
    by_cases fits : (g.linearityOf (Text.trim alternative)).any
    · rw [if_pos fits]
      exact Linearity.allows_meet
    · rw [if_neg fits]
      have none : ¬ (g.linearityOf (Text.trim alternative)).allows side :=
        fun allowed => fits (Linearity.any_iff.2 ⟨side, allowed⟩)
      simp [Option.any, none]

theorem allows_meetProduction_iff (directions : Linearity) (p : Production) :
    (g.meetProduction directions p).any (·.allows side) ↔
      directions.allows side ∧ g.isSingleNonTerminal (Text.trim p.left) ∧
        ∀ alternative ∈ p.alternatives, g.FitsLinear side (Text.trim p.left) alternative := by
  unfold meetProduction
  dsimp only
  split
  · next single =>
    rw [any_foldlM_iff allows_meetAlternative_iff]
    simp [single]
  · next other => simp [Option.any, other]

theorem allows_linearity?_iff :
    g.linearity?.any (·.allows side) ↔ g.IsLinear side := by
  rw [linearity?, any_foldlM_iff allows_meetProduction_iff]
  exact and_iff_right (Linearity.allows_both side)

/-- Regular: all rules are linear, with the non-terminal on the same side. -/
theorem isType3_iff : g.isType3 ↔ ∃ side, g.IsLinear side := by
  simp only [← allows_linearity?_iff, isType3]
  cases g.linearity? with
  | none => simp [Option.any]
  | some directions => exact Linearity.any_iff

theorem isLinear_iff_shapes :
    g.IsLinear side ↔
      (∀ p ∈ g.productions.entries, ∃ n, Text.trim p.left = [n] ∧ [n] ∈ g.nonTerminals) ∧
        (∀ p ∈ g.productions.entries, ∀ w ∈ p.alternatives,
          Text.trim w = emptyMarker → Text.trim p.left = g.start) ∧
        ∀ p ∈ g.productions.entries, ∀ w ∈ p.alternatives, Text.trim w ≠ emptyMarker →
          ∃ t, [t] ∈ g.terminals ∧
            (Text.trim w = [t] ∨ ∃ n, [n] ∈ g.nonTerminals ∧ Text.trim w = side.join [t] [n]) := by
  simp only [← isSingleNonTerminal_iff, ← allows_linearityOf_iff]
  constructor
  · intro linear
    refine ⟨fun p member => (linear p member).1, fun p member w alternative empty => ?_,
      fun p member w alternative nonempty => ?_⟩
    · have fits := (linear p member).2 w alternative
      rwa [FitsLinear, if_pos empty] at fits
    · have fits := (linear p member).2 w alternative
      rwa [FitsLinear, if_neg nonempty] at fits
  · rintro ⟨single, start, shape⟩ p member
    refine ⟨single p member, fun w alternative => ?_⟩
    unfold FitsLinear
    split
    · next empty => exact start p member w alternative empty
    · next nonempty => exact shape p member w alternative nonempty

/-- Regular: each left side is one non-terminal, the marker of the empty string stands under the
start symbol only, and all other alternatives have the shapes `t` and `tN`, or all have the shapes
`t` and `Nt`. -/
theorem isType3_iff_shapes (g : Grammar) :
    g.isType3 ↔
      (∀ p ∈ g.productions.entries, ∃ n, Text.trim p.left = [n] ∧ [n] ∈ g.nonTerminals) ∧
        (∀ p ∈ g.productions.entries, ∀ w ∈ p.alternatives,
          Text.trim w = emptyMarker → Text.trim p.left = g.start) ∧
        ((∀ p ∈ g.productions.entries, ∀ w ∈ p.alternatives, Text.trim w ≠ emptyMarker →
            ∃ t, [t] ∈ g.terminals ∧
              (Text.trim w = [t] ∨ ∃ n, [n] ∈ g.nonTerminals ∧ Text.trim w = [t, n])) ∨
          ∀ p ∈ g.productions.entries, ∀ w ∈ p.alternatives, Text.trim w ≠ emptyMarker →
            ∃ t, [t] ∈ g.terminals ∧
              (Text.trim w = [t] ∨ ∃ n, [n] ∈ g.nonTerminals ∧ Text.trim w = [n, t])) := by
  simp only [isType3_iff, isLinear_iff_shapes]
  constructor
  · rintro ⟨side, single, start, shape⟩
    refine ⟨single, start, ?_⟩
    cases side with
    | left => exact .inr shape
    | right => exact .inl shape
  · rintro ⟨single, start, right | left⟩
    · exact ⟨.right, single, start, right⟩
    · exact ⟨.left, single, start, left⟩

/-- Context-free: each rule has one non-terminal on its left. -/
theorem isType2_iff : g.isType2 ↔ ∀ rule ∈ g.rules, g.isSingleNonTerminal rule.left := by
  simp only [isType2, List.all_eq_true, List.mem_filter, Bool.not_eq_true',
    List.isEmpty_eq_false_iff]
  constructor
  · intro single rule declared
    obtain ⟨p, member, left, alternative⟩ := mem_rules_iff.1 declared
    exact left ▸ single p ⟨member, List.ne_nil_of_mem alternative⟩
  · rintro single p ⟨member, nonempty⟩
    obtain ⟨right, alternative⟩ := List.exists_mem_of_ne_nil _ nonempty
    exact single ⟨p.left, right⟩ (mem_rules_iff.2 ⟨p, member, rfl, alternative⟩)

/-- Context-sensitive: each rule has a right side at least as long as its left, where the marker of
the empty string is one character long, and only the start symbol may vanish. -/
theorem isType1_iff :
    g.isType1 ↔ ∀ rule ∈ g.rules,
      (rule.right = emptyMarker → rule.left = g.start) ∧
        rule.left.length ≤ rule.right.length := by
  rw [isType1, List.all_eq_true]
  refine forall₂_congr fun rule _ => ?_
  rw [Bool.and_eq_true, decide_eq_true_iff, Bool.or_eq_true, bne_iff_ne, beq_iff_eq]
  exact and_congr_left fun _ => Decidable.imp_iff_not_or.symm

end Grammar

end Chomsky
