import Chomsky.Dialogue.Line
import Chomsky.Error

/-!
# Dialogue

A grammar can be entered line by line: terminals, non-terminals, the start symbol, then rules until
`done` or the end of input, and after it a target. Each prompt takes one line. Prompts and remarks
on unreadable rules are kept apart, in the order in which they were said, so that a caller can
route them.
-/

namespace Chomsky

/-- What is said in a dialogue. -/
inductive Remark where
  /-- Asks for a line. -/
  | prompt (t : Text)
  /-- Stands among the prompts and asks for nothing. -/
  | notice (t : Text)
  /-- Says that a line is no rule. -/
  | complaint (t : Text)
  deriving DecidableEq, Repr

namespace Remark

def text : Remark → Text
  | prompt t => t
  | notice t => t
  | complaint t => t

/-- The part of a remark that belongs to the prompts. -/
def prompted : Remark → Text
  | prompt t => t
  | notice t => t
  | complaint _ => []

/-- The part of a remark that belongs to the complaints. -/
def complained : Remark → Text
  | complaint t => t
  | _ => []

end Remark

/-- What one part of a dialogue leaves: its answer, what was said and the lines not yet read. -/
structure Exchange (α : Type) where
  answer : Except Error α
  said : List Remark
  unread : List Line
  deriving Repr

/-- A part of a dialogue, given the lines to come. -/
abbrev Dialogue (α : Type) := List Line → Exchange α

namespace Dialogue

def pure {α : Type} (a : α) : Dialogue α := fun unread => ⟨.ok a, [], unread⟩

def fail {α : Type} (e : Error) : Dialogue α := fun unread => ⟨.error e, [], unread⟩

/-- Goes on with the answer of the first part; an error ends the dialogue. -/
def bind {α β : Type} (d : Dialogue α) (next : α → Dialogue β) : Dialogue β := fun lines =>
  let first := d lines
  match first.answer with
  | .error e => ⟨.error e, first.said, first.unread⟩
  | .ok a =>
    let second := next a first.unread
    ⟨second.answer, first.said ++ second.said, second.unread⟩

instance : Monad Dialogue where
  pure := pure
  bind := bind

/-- A dialogue that gives an answer went through both of its parts. -/
theorem bind_eq_ok {α β : Type} {d : Dialogue α} {next : α → Dialogue β} {lines : List Line} {b : β}
    (answered : ((d >>= next) lines).answer = .ok b) :
    ∃ a, (d lines).answer = .ok a ∧ (next a (d lines).unread).answer = .ok b := by
  change (bind d next lines).answer = .ok b at answered
  dsimp only [bind] at answered
  split at answered
  · cases answered
  · next a first => exact ⟨a, first, answered⟩

def say (r : Remark) : Dialogue Unit := fun unread => ⟨.ok (), [r], unread⟩

/-- The next line, or `none` at the end of input. An ill-formed line is read and is an error. -/
def nextLine : Dialogue (Option Text)
  | [] => ⟨.ok none, [], []⟩
  | .text t :: rest => ⟨.ok (some t), [], rest⟩
  | .illFormed :: rest => ⟨.error (.io .notUtf8), [], rest⟩

def ask (prompt : Text) : Dialogue (Option Text) := do
  say (.prompt prompt)
  nextLine

def partPrompt : Part → Text
  | .terminals => "Enter terminal symbols separated by spaces (e.g., a b): ".toList
  | .nonTerminals => "Enter non-terminal symbols separated by spaces (e.g., S A B): ".toList
  | .start => "Enter the start symbol (must be one of the non-terminals): ".toList

/-- Asks for a part that a grammar cannot lack. -/
def askPart (part : Part) : Dialogue Text := do
  match ← ask (partPrompt part) with
  | some t => pure t
  | none => fail (.unexpectedEnd part)

/-- Ends the rules, in upper or lower case. -/
def done : Text := "done".toList

def isDone (line : Text) : Bool := line.map Char.toLower == done

def rulesNotice : Text :=
  "Enter production rules one at a time in the form 'A -> aA | b', type '".toList ++ done ++
    "' to finish:\n".toList

def rulePrompt : Remark := .prompt "Enter rule: ".toList

def targetPrompt : Text := "Enter value to find derivation steps for: ".toList

/-- The exchange with remarks made before it. -/
def preceded {α : Type} (remarks : List Remark) (e : Exchange α) : Exchange α :=
  { e with said := remarks ++ e.said }

theorem bind_of_ok {α β : Type} {d : Dialogue α} {next : α → Dialogue β} {lines unread : List Line}
    {a : α} {said : List Remark} (first : d lines = ⟨.ok a, said, unread⟩) :
    (d >>= next) lines = preceded said (next a unread) := by
  change bind d next lines = preceded said (next a unread)
  rw [bind, first]
  rfl

theorem bind_of_error {α β : Type} {d : Dialogue α} {next : α → Dialogue β}
    {lines unread : List Line} {e : Error} {said : List Remark}
    (first : d lines = ⟨.error e, said, unread⟩) :
    (d >>= next) lines = ⟨.error e, said, unread⟩ := by
  change bind d next lines = _
  rw [bind, first]

/-- Reads rules up to a line `done` or the end of input. Blank lines are passed over; a line that is
no rule is remarked on and passed over. -/
def readRules (ps : Productions) : Dialogue Productions
  | [] => ⟨.ok ps, [rulePrompt], []⟩
  | .illFormed :: rest => ⟨.error (.io .notUtf8), [rulePrompt], rest⟩
  | .text t :: rest =>
    let line := Text.trim t
    if isDone line then ⟨.ok ps, [rulePrompt], rest⟩
    else if line.isEmpty then preceded [rulePrompt] (readRules ps rest)
    else
      match Production.read line with
      | .ok p => preceded [rulePrompt] (readRules (ps.add p) rest)
      | .error cause =>
        let remark := (Error.parse none cause).message ++ ['\n']
        preceded [rulePrompt, .complaint remark] (readRules ps rest)

def readGrammar : Dialogue Grammar := do
  let terminals ← askPart .terminals
  let nonTerminals ← askPart .nonTerminals
  let start ← askPart .start
  say (.notice rulesNotice)
  let productions ← readRules .empty
  match Grammar.build (readSymbols terminals) (readSymbols nonTerminals) start productions with
  | .ok g => pure g
  | .error defect => fail (.invalidGrammar defect)

/-- The target of a search, trimmed; a blank line and the end of input ask for none. -/
def readTarget : Dialogue (Option Text) := do
  let line ← ask targetPrompt
  return (line.map Text.trim).filter fun t => !t.isEmpty

end Dialogue

end Chomsky
