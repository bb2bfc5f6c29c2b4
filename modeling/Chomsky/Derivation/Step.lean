import Chomsky.Grammar.Basic

/-!
# Derivation steps and derivations

A derivation step replaces one occurrence of a rule's left-hand side by its right-hand side, where the
marker of the empty string is replaced by nothing. `Step` and `IsDerivation` say this without any
search; `Reaches` is a run of any number of steps.
-/

namespace Chomsky

/-- What a right-hand side puts in place of the left: the marker puts nothing. -/
def replacement (right : Word) : Word := if right = emptyMarker then [] else right

/-- The form that a target asks for: the marker asks for the empty form. -/
def goal (target : Word) : Word := replacement target

namespace Grammar

/-- One rule applied at one place; an empty left-hand side applies nowhere. -/
inductive Step (g : Grammar) : Word → Word → Prop where
  | apply {rule : Rule} (before after : Word) (declared : rule ∈ g.rules)
      (left_ne : rule.left ≠ []) :
      Step g (before ++ rule.left ++ after) (before ++ replacement rule.right ++ after)

/-- Any number of steps, none included. -/
inductive Reaches (g : Grammar) (source : Word) : Word → Prop where
  | refl : Reaches g source source
  | tail {form next : Word} : Reaches g source form → g.Step form next → Reaches g source next

/-- Consecutive forms of the list are steps. -/
def Linked (g : Grammar) : List Word → Prop
  | form :: next :: rest => g.Step form next ∧ Linked g (next :: rest)
  | _ => True

/-- The list starts with the start symbol, ends with the form and goes by steps. -/
structure IsDerivation (g : Grammar) (form : Word) (steps : List Word) : Prop where
  head : steps.head? = some g.start
  last : steps.getLast? = some form
  linked : g.Linked steps

end Grammar

end Chomsky
