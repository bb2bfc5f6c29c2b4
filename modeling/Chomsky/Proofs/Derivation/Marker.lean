import Chomsky.Proofs.Derivation.Reach
import Chomsky.Proofs.Grammar.Reading

/-!
# The marker of the empty string in derived forms

The marker stands for the empty string only as a whole right-hand side. Such a side puts nothing in
a form; a side that has the marker's character beside others is put in as it is written. A character
of a derived form was in the start symbol or came with a right-hand side on the way
(`Grammar.IsDerivation.origin`). Main statement: `Grammar.marker_of_found`.
-/

namespace Chomsky

theorem mem_replacement_iff {right : Word} {c : Char} :
    c ∈ replacement right ↔ right ≠ emptyMarker ∧ c ∈ right := by
  unfold replacement
  split
  · next same => simp [same]
  · next other => simp [other]

namespace Grammar

variable {g : Grammar} {form next : Word} {steps : List Word} {rule : Rule} {c : Char}

/-- Two consecutive forms of the list are a step by the rule. -/
def Applies (rule : Rule) (steps : List Word) : Prop :=
  ∃ before after,
    [before ++ rule.left ++ after, before ++ replacement rule.right ++ after] <:+: steps

theorem Applies.mono {longer : List Word} (applies : Applies rule steps) (part : steps <:+: longer) :
    Applies rule longer := by
  obtain ⟨before, after, here⟩ := applies
  exact ⟨before, after, here.trans part⟩

/-- A new character in a form came with the right-hand side of the rule. -/
theorem Step.origin (step : g.Step form next) (member : c ∈ next) :
    c ∈ form ∨ ∃ rule ∈ g.rules, c ∈ replacement rule.right ∧ Applies rule [form, next] := by
  obtain @⟨rule, before, after, declared, _⟩ := step
  simp only [List.mem_append] at member ⊢
  rcases member with (member | member) | member
  · exact Or.inl (Or.inl (Or.inl member))
  · exact Or.inr ⟨rule, declared, member, before, after, List.infix_rfl⟩
  · exact Or.inl (Or.inr member)

/-- A character of a derived form was in the start symbol, or a rule on the way put it in. -/
theorem IsDerivation.origin (derivation : g.IsDerivation form steps) (member : c ∈ form) :
    c ∈ g.start ∨ ∃ rule ∈ g.rules, c ∈ replacement rule.right ∧ Applies rule steps := by
  induction h : steps.length generalizing form steps with
  | zero => exact absurd (List.length_eq_zero_iff.1 h) derivation.ne_nil
  | succ n ih =>
    rcases derivation.last_step with ⟨_, rfl⟩ | ⟨earlier, previous, rfl, before, step⟩
    · exact Or.inl member
    · rcases step.origin member with old | ⟨rule, declared, inside, applies⟩
      · have length : earlier.length = n := by simpa using h
        refine (ih before old length).imp_right ?_
        rintro ⟨rule, declared, inside, applies⟩
        exact ⟨rule, declared, inside, applies.mono (List.prefix_append _ _).isInfix⟩
      · obtain ⟨front, rfl⟩ := List.getLast?_eq_some_iff.1 before.last
        have last : [previous, form] <:+: front ++ [previous] ++ [form] :=
          ⟨front, [], by simp⟩
        exact Or.inr ⟨rule, declared, inside, applies.mono last⟩

/-- When the marker's character comes up in a derivation that is found, it was in the start symbol,
or a step of the derivation put in a right-hand side that holds it and is not the marker. -/
theorem marker_of_found (g : Grammar) (target : Word) (limits : Limits) (steps : List Word)
    (found : g.derive target limits = .found steps) (form : Word) (member : form ∈ steps)
    (marked : '$' ∈ form) :
    '$' ∈ g.start ∨ ∃ rule ∈ g.rules, rule.right ≠ emptyMarker ∧ '$' ∈ rule.right ∧
      ∃ before after,
        [before ++ rule.left ++ after, before ++ rule.right ++ after] <:+: steps := by
  have derivation := isDerivation_of_found found
  obtain ⟨earlier, later, rfl⟩ := List.append_of_mem member
  refine (derivation.upTo.origin marked).imp_right ?_
  rintro ⟨rule, declared, inside, before, after, here⟩
  obtain ⟨other, held⟩ := mem_replacement_iff.1 inside
  have front : earlier ++ [form] <:+: earlier ++ form :: later := ⟨[], later, by simp⟩
  rw [replacement, if_neg other] at here
  exact ⟨rule, declared, other, held, before, after, here.trans front⟩

/-- A price or nothing. -/
def priced : Grammar where
  terminals := [['5']]
  nonTerminals := [['P']]
  start := ['P']
  productions := ⟨[⟨['P'], [['5', '$'], emptyMarker]⟩], by decide⟩
  terminals_nodup := by decide
  nonTerminals_nodup := by decide
  marker_not_mem := by decide
  disjoint := by decide
  start_mem := by decide

theorem isRead_priced : priced.IsRead :=
  .declared
    { terminals := ["5".toList]
      nonTerminals := ["P".toList]
      start := "P".toList
      rules := ["P -> 5$ | $".toList] }
    (by rfl)

theorem derive_priced : priced.derive ['5', '$'] ⟨20, 100000⟩ = .found [['P'], ['5', '$']] := by
  rw [derive, (Search.Mirrors.initial priced.start).run]
  decide +kernel

/-- The marker's character stays where it stands beside another. -/
theorem exists_marked_form :
    priced.IsRead ∧ priced.derive ['5', '$'] ⟨20, 100000⟩ = .found [['P'], ['5', '$']] ∧
      ∃ form ∈ [['P'], ['5', '$']], '$' ∈ form :=
  ⟨isRead_priced, derive_priced, ['5', '$'], by decide, by decide⟩

theorem marker_of_found_priced :
    priced.derive ['5', '$'] ⟨20, 100000⟩ = .found [['P'], ['5', '$']] ∧
      ['5', '$'] ∈ [['P'], ['5', '$']] ∧ '$' ∈ ['5', '$'] ∧
      ('$' ∈ priced.start ∨ ∃ rule ∈ priced.rules, rule.right ≠ emptyMarker ∧ '$' ∈ rule.right ∧
        ∃ before after, [before ++ rule.left ++ after, before ++ rule.right ++ after] <:+:
          [['P'], ['5', '$']]) :=
  ⟨derive_priced, by decide, by decide,
    marker_of_found priced _ _ _ derive_priced ['5', '$'] (by decide) (by decide)⟩

end Grammar

end Chomsky
