import Chomsky.Dialogue.Basic

/-!
# Consoles

A dialogue as it happens. The input of a console is bytes; a line is cut off them only when it is
asked for. Whatever is said, taken or printed is entered in a journal, in its order. The parts of a
dialogue are here once more, one remark and one line at a time, and a session makes any number of
calls at one console.
-/

namespace Chomsky

namespace Line

/-- The first line of an input with its newline, or the whole of an input without one. -/
def first (bs : Bytes) : Bytes := bs.takeWhile (· != 10) ++ (bs.dropWhile (· != 10)).take 1

/-- What follows the first line of an input. -/
def afterFirst (bs : Bytes) : Bytes := (bs.dropWhile (· != 10)).tail

theorem first_append_afterFirst (bs : Bytes) : first bs ++ afterFirst bs = bs := by
  rw [first, afterFirst, List.append_assoc, ← List.drop_one, List.take_append_drop,
    List.takeWhile_append_dropWhile]

theorem first_eq_nil_iff {bs : Bytes} : first bs = [] ↔ bs = [] := by
  constructor
  · intro empty
    obtain ⟨front, back⟩ := List.append_eq_nil_iff.1 empty
    have whole := List.takeWhile_append_dropWhile (p := (· != 10)) (l := bs)
    cases rest : bs.dropWhile (· != 10) with
    | nil => rw [← whole, front, rest, List.append_nil]
    | cons b rest' =>
      rw [rest] at back
      cases back
  · rintro rfl
    rfl

theorem length_afterFirst_lt {bs : Bytes} (filled : bs ≠ []) :
    (afterFirst bs).length < bs.length := by
  have whole := congrArg List.length (first_append_afterFirst bs)
  have taken := List.length_pos_iff.2 (mt first_eq_nil_iff.1 filled)
  rw [List.length_append] at whole
  omega

end Line

/-- What is done at a console. -/
inductive Deed where
  | say (r : Remark)
  /-- Takes a line with its newline, or nothing at the end of the input. -/
  | take (line : Bytes)
  /-- Prints a part of a report. -/
  | report (t : Text)
  /-- Prints a note on the run itself. -/
  | note (t : Text)
  deriving DecidableEq, Repr

structure Console where
  /-- The input that was not yet taken. -/
  unread : Bytes
  /-- What was done, in order. -/
  journal : List Deed
  deriving DecidableEq, Repr

/-- What changes a console and ends with an answer or an error. -/
abbrev Interaction := ExceptT Error (StateM Console)

namespace Interaction

variable {α β : Type}

/-- The answer, and the console afterwards. -/
def runOn (x : Interaction α) (c : Console) : Except Error α × Console := x.run.run c

theorem runOn_pure (a : α) (c : Console) : (pure a : Interaction α).runOn c = (.ok a, c) := rfl

theorem runOn_throw (e : Error) (c : Console) :
    (throw e : Interaction α).runOn c = (.error e, c) :=
  rfl

theorem runOn_bind_of_ok {x : Interaction α} {f : α → Interaction β} {c next : Console} {a : α}
    (first : x.runOn c = (.ok a, next)) : (x >>= f).runOn c = (f a).runOn next := by
  have ran : (x.run.run c : Id (Except Error α × Console)) = (.ok a, next) := first
  rw [runOn, ExceptT.run_bind, StateT.run_bind, ran]
  rfl

theorem runOn_bind_of_error {x : Interaction α} {f : α → Interaction β} {c next : Console}
    {e : Error} (first : x.runOn c = (.error e, next)) :
    (x >>= f).runOn c = (.error e, next) := by
  have ran : (x.run.run c : Id (Except Error α × Console)) = (.error e, next) := first
  rw [runOn, ExceptT.run_bind, StateT.run_bind, ran]
  rfl

/-- Does something that takes no input. -/
def enter (deed : Deed) : Interaction Unit :=
  modify fun c => { c with journal := c.journal ++ [deed] }

theorem runOn_enter (deed : Deed) (c : Console) :
    (enter deed).runOn c = (.ok (), ⟨c.unread, c.journal ++ [deed]⟩) :=
  rfl

/-- What a line answers when it is taken; there is no answer at the end of the input. -/
def answerOf (line : Bytes) : Except Error (Option Text) :=
  if line = [] then .ok none
  else
    match Line.ofBytes line with
    | .text t => .ok (some t)
    | .illFormed => .error (.io .notUtf8)

/-- Takes the next line. One that is not UTF-8 is taken too, and is an error. -/
def takeLine : Interaction (Option Text) := ExceptT.mk fun c =>
  let line := Line.first c.unread
  pure (answerOf line, ⟨Line.afterFirst c.unread, c.journal ++ [.take line]⟩)

def ask (prompt : Text) : Interaction (Option Text) := do
  enter (.say (.prompt prompt))
  takeLine

theorem runOn_ask (prompt : Text) (c : Console) :
    (ask prompt).runOn c =
      (answerOf (Line.first c.unread),
        ⟨Line.afterFirst c.unread,
          c.journal ++ [.say (.prompt prompt), .take (Line.first c.unread)]⟩) := by
  rw [ask, runOn_bind_of_ok (runOn_enter _ c)]
  change (answerOf (Line.first c.unread), (_ : Console)) = _
  simp

def askPart (part : Part) : Interaction Text := do
  match ← ask (Dialogue.partPrompt part) with
  | some t => return t
  | none => throw (.unexpectedEnd part)

/-- Adds the rule on a line to those that were read. A line `done` ends them, a blank line is passed
over, and a line that is no rule is remarked on. -/
def enterRule (ps : Productions) (line : Text) : Interaction (ForInStep Productions) := do
  if Dialogue.isDone line then return .done ps
  else if line.isEmpty then return .yield ps
  else
    match Production.read line with
    | .ok p => return .yield (ps.add p)
    | .error cause =>
      enter (.say (.complaint ((Error.parse none cause).message ++ ['\n'])))
      return .yield ps

/-- Asks for one rule; the end of the input ends the rules too. -/
def askRule (ps : Productions) : Interaction (ForInStep Productions) := do
  match ← ask Dialogue.rulePrompt.text with
  | some t => enterRule ps (Text.trim t)
  | none => return .done ps

theorem unread_enterRule (ps : Productions) (line : Text) (c : Console) :
    ((enterRule ps line).runOn c).2.unread = c.unread := by
  unfold enterRule
  split
  · rfl
  · split
    · rfl
    · split
      · rfl
      · rw [runOn_bind_of_ok (runOn_enter _ c)]
        rfl

/-- The rules go on only after a line was taken. -/
theorem unread_lt_of_askRule {ps more : Productions} {c next : Console}
    (asked : (askRule ps).runOn c = (.ok (.yield more), next)) :
    next.unread.length < c.unread.length := by
  have taken := runOn_ask Dialogue.rulePrompt.text c
  cases answered : answerOf (Line.first c.unread) with
  | error e =>
    rw [answered] at taken
    rw [askRule, runOn_bind_of_error taken] at asked
    cases asked
  | ok answer =>
    rw [answered] at taken
    rw [askRule, runOn_bind_of_ok taken] at asked
    cases answer with
    | none => cases asked
    | some t =>
      have filled : c.unread ≠ [] := by
        rintro empty
        rw [Line.first_eq_nil_iff.2 empty] at answered
        cases answered
      have left := unread_enterRule ps (Text.trim t) ((ask Dialogue.rulePrompt.text).runOn c).2
      rw [taken, asked] at left
      exact left ▸ Line.length_afterFirst_lt filled

/-- Reads rules until they end. -/
def rulesFrom (ps : Productions) (c : Console) : Except Error Productions × Console :=
  match _asked : (askRule ps).runOn c with
  | (.error e, next) => (.error e, next)
  | (.ok (.done all), next) => (.ok all, next)
  | (.ok (.yield more), next) => rulesFrom more next
termination_by c.unread.length
decreasing_by exact unread_lt_of_askRule ‹_›

def readRules (ps : Productions) : Interaction Productions := ExceptT.mk fun c =>
  pure (rulesFrom ps c)

/-- What is left to do after one rule. -/
def moreRules : ForInStep Productions → Interaction Productions
  | .done all => return all
  | .yield more => readRules more

theorem runOn_readRules (ps : Productions) (c : Console) :
    (readRules ps).runOn c = (askRule ps >>= moreRules).runOn c := by
  change rulesFrom ps c = _
  rw [rulesFrom]
  split
  · next asked => rw [runOn_bind_of_error asked]
  · next asked => rw [runOn_bind_of_ok asked]; rfl
  · next asked => rw [runOn_bind_of_ok asked]; rfl

def readGrammar : Interaction Grammar := do
  let terminals ← askPart .terminals
  let nonTerminals ← askPart .nonTerminals
  let start ← askPart .start
  enter (.say (.notice Dialogue.rulesNotice))
  let productions ← readRules .empty
  match Grammar.build (readSymbols terminals) (readSymbols nonTerminals) start productions with
  | .ok g => return g
  | .error defect => throw (.invalidGrammar defect)

def readTarget : Interaction (Option Word) := do
  let line ← ask Dialogue.targetPrompt
  return (line.map Text.trim).filter fun t => !t.isEmpty

end Interaction

/-! ## Sessions -/

/-- What a session can be asked for. -/
inductive Call where
  | grammar
  | target
  deriving DecidableEq, Repr

inductive Reply where
  | grammar (g : Grammar)
  | target (t : Option Word)
  deriving DecidableEq, Repr

namespace Call

def interaction : Call → Interaction Reply
  | grammar => do return .grammar (← Interaction.readGrammar)
  | target => do return .target (← Interaction.readTarget)

end Call

/-- One call of a session. -/
structure Visit where
  call : Call
  /-- The input that the call found. -/
  before : Bytes
  answer : Except Error Reply
  deeds : List Deed
  /-- The input that the call left. -/
  after : Bytes

def Call.visit (call : Call) (bytes : Bytes) : Visit :=
  let (answer, c) := call.interaction.runOn ⟨bytes, []⟩
  ⟨call, bytes, answer, c.journal, c.unread⟩

/-- Calls one after the other. An error ends its call, and the next one goes on behind it. -/
def session : List Call → Bytes → List Visit
  | [], _ => []
  | call :: calls, bytes => call.visit bytes :: session calls (call.visit bytes).after

end Chomsky
