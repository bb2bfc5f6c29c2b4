import Chomsky.Grammar.Basic

/-!
# The Chomsky hierarchy

Four nested families of grammars, from unrestricted (type 0) to regular (type 3). Lengths are
counted in characters: a regular or context-free rule has one character on the left, and the linear
shapes `t`, `tN` and `Nt` are read one character at a time.
-/

namespace Chomsky

/-- A place in the hierarchy. -/
inductive Level where
  | unrestricted
  | contextSensitive
  | contextFree
  | regular
  deriving DecidableEq, Repr

namespace Level

/-- The number of the type: 3 is the most restrictive. -/
def number : Level → Nat
  | unrestricted => 0
  | contextSensitive => 1
  | contextFree => 2
  | regular => 3

def name : Level → Text
  | unrestricted => "unrestricted".toList
  | contextSensitive => "context-sensitive".toList
  | contextFree => "context-free".toList
  | regular => "regular".toList

/-- A level as `3 (regular)`. -/
def display (l : Level) : Text := Text.ofNat l.number ++ " (".toList ++ l.name ++ ")".toList

/-- The level of a type number. -/
def ofNumber? (n : Nat) : Option Level :=
  [unrestricted, contextSensitive, contextFree, regular].find? fun l => l.number == n

theorem ofNumber?_number (l : Level) : ofNumber? l.number = some l := by cases l <;> rfl

end Level

/-- The sides on which a linear rule may keep its non-terminal; a single terminal keeps none and
fits both. -/
structure Linearity where
  right : Bool
  left : Bool
  deriving DecidableEq, Repr

namespace Linearity

def both : Linearity := ⟨true, true⟩

/-- The directions that two rules share. -/
def meet (a b : Linearity) : Linearity := ⟨a.right && b.right, a.left && b.left⟩

/-- Some direction is left. -/
def any (a : Linearity) : Bool := a.right || a.left

end Linearity

namespace Grammar

/-- A declared non-terminal of one character. -/
def isSingleNonTerminal (g : Grammar) (w : Word) : Bool := w.length == 1 && g.nonTerminals.contains w

/-- The directions of a right-hand side: `t` has both, `tN` is right-linear, `Nt` left-linear. -/
def linearityOf (g : Grammar) : Word → Linearity
  | [t] => ⟨g.terminals.contains [t], g.terminals.contains [t]⟩
  | [a, b] =>
    ⟨g.terminals.contains [a] && g.nonTerminals.contains [b],
      g.nonTerminals.contains [a] && g.terminals.contains [b]⟩
  | _ => ⟨false, false⟩

/-- The directions left after one alternative, blanks at its ends aside; `none` when no regular
grammar has the rule. The marker of the empty string restricts no direction but is for the start
symbol only. -/
def meetAlternative (g : Grammar) (left : Word) (directions : Linearity) (alternative : Word) :
    Option Linearity :=
  let right := Text.trim alternative
  if right = emptyMarker then if left = g.start then some directions else none
  else
    let fits := g.linearityOf right
    if fits.any then some (directions.meet fits) else none

/-- The directions left after one production: its left-hand side is one non-terminal, also when it
has no alternatives. -/
def meetProduction (g : Grammar) (directions : Linearity) (p : Production) : Option Linearity :=
  let left := Text.trim p.left
  if g.isSingleNonTerminal left then p.alternatives.foldlM (g.meetAlternative left) directions
  else none

/-- The directions that all rules share. -/
def linearity? (g : Grammar) : Option Linearity :=
  g.productions.entries.foldlM g.meetProduction .both

/-- Regular: all rules are right-linear, or all are left-linear. -/
def isType3 (g : Grammar) : Bool := g.linearity?.any Linearity.any

/-- Context-free: each left-hand side that has alternatives is one non-terminal. -/
def isType2 (g : Grammar) : Bool :=
  (g.productions.entries.filter fun p => !p.alternatives.isEmpty).all fun p =>
    g.isSingleNonTerminal p.left

/-- Context-sensitive: no rule has a shorter right side, and only the start symbol may vanish. The
marker of the empty string counts as one character here. -/
def isType1 (g : Grammar) : Bool :=
  g.rules.all fun r =>
    (r.right != emptyMarker || r.left == g.start) && r.left.length ≤ r.right.length

/-- The most restrictive level whose conditions hold. -/
def classify (g : Grammar) : Level :=
  if g.isType3 then .regular
  else if g.isType2 then .contextFree
  else if g.isType1 then .contextSensitive
  else .unrestricted

end Grammar

end Chomsky
