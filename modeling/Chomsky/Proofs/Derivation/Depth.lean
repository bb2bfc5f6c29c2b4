import Mathlib.Data.List.Chain
import Mathlib.Data.List.Nodup
import Chomsky.Derivation.Step

/-!
# Depths of forms

The depth of a form is the number of forms in its shortest derivations, the start symbol included. A
form comes by one step from a form of the depth before (`HasDepth.exists_previous`). So depths have
no gaps: when no form has the next depth, no form lies deeper (`Within.of_no_deeper`).
-/

namespace Chomsky.Grammar

variable {g : Grammar} {form next : Word} {steps : List Word} {m n : Nat}

/-- The form has a derivation, of any length. -/
def Derivable (g : Grammar) (form : Word) : Prop := ∃ steps, g.IsDerivation form steps

/-- The form has a derivation of at most `n` forms. -/
def Within (g : Grammar) (n : Nat) (form : Word) : Prop :=
  ∃ steps, g.IsDerivation form steps ∧ steps.length ≤ n

/-- A derivation of the form; no derivation of it has fewer forms. -/
structure IsShortest (g : Grammar) (form : Word) (steps : List Word) : Prop
    extends g.IsDerivation form steps where
  least : ∀ other, g.IsDerivation form other → steps.length ≤ other.length

/-- The shortest derivations of the form have exactly `n` forms. -/
def HasDepth (g : Grammar) (n : Nat) (form : Word) : Prop :=
  ∃ steps, g.IsShortest form steps ∧ steps.length = n

/-! ## Derivations -/

theorem linked_iff_isChain : g.Linked steps ↔ steps.IsChain g.Step := by
  induction steps with
  | nil => simp [Linked]
  | cons form rest ih =>
    cases rest with
    | nil => simp [Linked]
    | cons next rest => simp [Linked, ih]

theorem isDerivation_start : g.IsDerivation g.start [g.start] := ⟨rfl, rfl, trivial⟩

theorem IsDerivation.ne_nil (derivation : g.IsDerivation form steps) : steps ≠ [] := by
  rintro rfl
  exact absurd derivation.head (by simp)

theorem IsDerivation.concat (derivation : g.IsDerivation form steps) (step : g.Step form next) :
    g.IsDerivation next (steps ++ [next]) where
  head := by simp [List.head?_append, derivation.head]
  last := by simp
  linked := by
    rw [linked_iff_isChain, List.isChain_append]
    refine ⟨linked_iff_isChain.1 derivation.linked, .singleton _, ?_⟩
    simpa [derivation.last] using step

/-- The part of a derivation up to one of its forms derives that form. -/
theorem IsDerivation.upTo {earlier later : List Word}
    (derivation : g.IsDerivation form (earlier ++ next :: later)) :
    g.IsDerivation next (earlier ++ [next]) where
  head := by simpa [List.head?_append] using derivation.head
  last := by simp
  linked := by
    have chain := linked_iff_isChain.1 derivation.linked
    rw [List.append_cons] at chain
    exact linked_iff_isChain.2 chain.left_of_append

/-- A derivation is the start symbol alone, or its last step extends a derivation. -/
theorem IsDerivation.last_step (derivation : g.IsDerivation form steps) :
    (steps = [g.start] ∧ form = g.start) ∨
      ∃ earlier previous, steps = earlier ++ [form] ∧
        g.IsDerivation previous earlier ∧ g.Step previous form := by
  obtain ⟨earlier, rfl⟩ := List.getLast?_eq_some_iff.1 derivation.last
  rcases List.eq_nil_or_concat earlier with rfl | ⟨front, previous, rfl⟩
  · have alone : form = g.start := by simpa using derivation.head
    exact Or.inl ⟨by rw [alone]; rfl, alone⟩
  · have shape : front.concat previous ++ [form] = front ++ previous :: [form] := by simp
    rw [shape] at derivation
    have chain := linked_iff_isChain.1 derivation.linked
    have step : g.Step previous form := (List.isChain_append_cons_cons.1 chain).2.1
    refine Or.inr ⟨front ++ [previous], previous, by simp, derivation.upTo, step⟩

/-! ## Depths -/

theorem Within.mono (within : g.Within m form) (le : m ≤ n) : g.Within n form := by
  obtain ⟨steps, derivation, few⟩ := within
  exact ⟨steps, derivation, few.trans le⟩

theorem Within.derivable (within : g.Within n form) : g.Derivable form := by
  obtain ⟨steps, derivation, _⟩ := within
  exact ⟨steps, derivation⟩

theorem not_within_zero : ¬ g.Within 0 form := by
  rintro ⟨steps, derivation, few⟩
  exact derivation.ne_nil (List.length_eq_zero_iff.1 (Nat.le_zero.1 few))

theorem within_start (pos : 1 ≤ n) : g.Within n g.start := ⟨[g.start], isDerivation_start, pos⟩

theorem Within.step (within : g.Within n form) (step : g.Step form next) :
    g.Within (n + 1) next := by
  obtain ⟨steps, derivation, few⟩ := within
  exact ⟨steps ++ [next], derivation.concat step, by simpa using few⟩

theorem Within.start_or_step (within : g.Within (n + 1) form) :
    form = g.start ∨ ∃ previous, g.Within n previous ∧ g.Step previous form := by
  obtain ⟨steps, derivation, few⟩ := within
  rcases derivation.last_step with ⟨_, alone⟩ | ⟨earlier, previous, rfl, before, step⟩
  · exact Or.inl alone
  · exact Or.inr ⟨previous, ⟨earlier, before, by simpa using few⟩, step⟩

theorem hasDepth_succ_iff : g.HasDepth (n + 1) form ↔ g.Within (n + 1) form ∧ ¬ g.Within n form := by
  constructor
  · rintro ⟨steps, shortest, length⟩
    refine ⟨⟨steps, shortest.toIsDerivation, length.le⟩, ?_⟩
    rintro ⟨other, derivation, few⟩
    have least := shortest.least other derivation
    omega
  · rintro ⟨⟨steps, derivation, few⟩, far⟩
    have least : ∀ other, g.IsDerivation form other → n + 1 ≤ other.length := by
      intro other derivation
      by_contra short
      exact far ⟨other, derivation, by omega⟩
    have length : steps.length = n + 1 := le_antisymm few (least steps derivation)
    exact ⟨steps, ⟨derivation, fun other h => length.trans_le (least other h)⟩, length⟩

theorem HasDepth.within (depth : g.HasDepth n form) : g.Within n form := by
  obtain ⟨steps, shortest, length⟩ := depth
  exact ⟨steps, shortest.toIsDerivation, length.le⟩

theorem within_succ_iff : g.Within (n + 1) form ↔ g.Within n form ∨ g.HasDepth (n + 1) form := by
  rw [hasDepth_succ_iff]
  constructor
  · intro within
    by_cases near : g.Within n form
    · exact Or.inl near
    · exact Or.inr ⟨within, near⟩
  · rintro (near | ⟨within, _⟩)
    · exact near.mono (Nat.le_succ n)
    · exact within

theorem hasDepth_one_iff : g.HasDepth 1 form ↔ form = g.start := by
  rw [hasDepth_succ_iff]
  constructor
  · rintro ⟨within, _⟩
    rcases within.start_or_step with alone | ⟨previous, before, _⟩
    · exact alone
    · exact absurd before not_within_zero
  · rintro rfl
    exact ⟨within_start le_rfl, not_within_zero⟩

/-- A form below the start symbol has a neighbour exactly one level up. -/
theorem HasDepth.exists_previous (depth : g.HasDepth (n + 2) form) :
    ∃ previous, g.HasDepth (n + 1) previous ∧ g.Step previous form := by
  obtain ⟨within, far⟩ := hasDepth_succ_iff.1 depth
  rcases within.start_or_step with rfl | ⟨previous, before, step⟩
  · exact absurd (within_start (Nat.succ_pos n)) far
  · have notNear : ¬ g.Within n previous := fun near => far (near.step step)
    exact ⟨previous, hasDepth_succ_iff.2 ⟨before, notNear⟩, step⟩

/-- Depths have no gaps: nothing lies beyond an empty level. -/
theorem Within.of_no_deeper (pos : 1 ≤ n) (none : ∀ form, ¬ g.HasDepth (n + 1) form)
    (within : g.Within m form) : g.Within n form := by
  induction m generalizing form with
  | zero => exact absurd within not_within_zero
  | succ m ih =>
    rcases within.start_or_step with rfl | ⟨previous, before, step⟩
    · exact within_start pos
    · rcases within_succ_iff.1 ((ih before).step step) with near | deeper
      · exact near
      · exact absurd deeper (none form)

theorem IsShortest.within_iff (shortest : g.IsShortest form steps) :
    g.Within n form ↔ steps.length ≤ n := by
  constructor
  · rintro ⟨other, derivation, few⟩
    exact (shortest.least other derivation).trans few
  · intro few
    exact ⟨steps, shortest.toIsDerivation, few⟩

theorem IsShortest.concat (shortest : g.IsShortest form steps) (step : g.Step form next)
    (far : ¬ g.Within steps.length next) : g.IsShortest next (steps ++ [next]) where
  toIsDerivation := shortest.toIsDerivation.concat step
  least := by
    intro other derivation
    by_contra short
    rw [List.length_append, List.length_singleton] at short
    exact far ⟨other, derivation, by omega⟩

theorem IsShortest.init {earlier : List Word} (shortest : g.IsShortest form (earlier ++ [form]))
    (derivation : g.IsDerivation next earlier) (step : g.Step next form) :
    g.IsShortest next earlier where
  toIsDerivation := derivation
  least := by
    intro other before
    have least := shortest.least _ (before.concat step)
    simpa using least

/-- No form comes twice in a shortest derivation. -/
theorem IsShortest.nodup (shortest : g.IsShortest form steps) : steps.Nodup := by
  induction h : steps.length generalizing form steps with
  | zero => rw [List.length_eq_zero_iff.1 h]; exact List.nodup_nil
  | succ n ih =>
    rcases shortest.toIsDerivation.last_step with ⟨rfl, _⟩ | ⟨earlier, previous, rfl, before, step⟩
    · exact List.nodup_singleton _
    · have distinct : earlier.Nodup := ih (shortest.init before step) (by simpa using h)
      -- Coming back to the last form would leave a shorter way to it.
      have fresh : form ∉ earlier := by
        intro member
        obtain ⟨front, back, rfl⟩ := List.append_of_mem member
        have least := shortest.least _ before.upTo
        simp only [List.length_append, List.length_cons, List.length_nil] at least
        omega
      rw [← List.concat_eq_append]
      exact distinct.concat fresh

end Chomsky.Grammar
