import Chomsky.Dialogue.Console
import Chomsky.Program

/-!
# Performance

A run as it happens at a console. `Program.validate` is given the whole input, and makes a story of
the run before a format tells it. Here a line is taken when it is asked for, and each part of a
report is printed as soon as the format allows: as text the classification comes between the two
parts of a dialogue, in JSON everything comes at the end.
-/

namespace Chomsky

namespace Deed

/-- What a deed prints of a report. -/
def reported : Deed → Text
  | report t => t
  | _ => []

/-- What a deed adds to standard output. -/
def toOutput : Format → Deed → Text
  | .text, say r => r.prompted
  | _, deed => deed.reported

/-- What a deed adds to standard error. -/
def toError : Format → Deed → Text
  | .text, say r => r.complained
  | .json, say r => r.text
  | _, note t => t
  | _, _ => []

end Deed

namespace Program

open Interaction (enter)

/-- Prints the rules and the level of a grammar, unless a document will hold them. -/
def announce (g : Grammar) : Format → Interaction Unit
  | .text => enter (.report (Report.classification g g.classify).flatten)
  | .json => return ()

/-- Searches for the target if there is one, and prints the rest of the report. -/
def finish (g : Grammar) (target : Option Word) (limits : Limits) (check : Bool)
    (format : Format) : Interaction Status := do
  let r := report g target limits
  enter (.report (r.closing format))
  return r.status check

def performFile (host : Host) (path : Text) (target : Option Word) (limits : Limits) (check : Bool)
    (format : Format) : Interaction Status :=
  match (Declaration.load path (host.contentOf path)).bind Declaration.toGrammar with
  | .error e => throw e
  | .ok g => do
    announce g format
    finish g target limits check format

/-- The target that is given, or else the one that is asked for. -/
def targetFor : Option Word → Interaction (Option Word)
  | some t => return some t
  | none => Interaction.readTarget

def performDialogue (given : Option Word) (limits : Limits) (check : Bool) (format : Format) :
    Interaction Status := do
  let g ← Interaction.readGrammar
  announce g format
  let target ← targetFor given
  finish g target limits check format

/-- The run after the note on its options. -/
def proceed (host : Host) (o : Options) (limits : Limits) (format : Format) : Interaction Status :=
  match o.grammarFile with
  | some path => performFile host path o.target limits o.checkDerivation format
  | none => performDialogue o.target limits o.checkDerivation format

def perform (host : Host) (o : Options) (base : Limits) : Interaction Status := do
  if o.debug then enter (.note ("Debug: ".toList ++ o.detail ++ ['\n']))
  proceed host o (o.limits base) o.format

/-- What comes of a run, and the console that it leaves. -/
def enact (host : Host) (o : Options) (base : Limits) : Except Error Status × Console :=
  (perform host o base).runOn ⟨host.input, []⟩

/-- The outcome of a run from what it left. -/
def outcomeOf (format : Format) (detailed : Bool) : Except Error Status × Console → Outcome
  | (answer, c) =>
    let out := c.journal.flatMap (Deed.toOutput format)
    let err := c.journal.flatMap (Deed.toError format)
    match answer with
    | .ok status => ⟨status, out, err⟩
    | .error e => ⟨.failure, out, err ++ e.line detailed⟩

end Program

end Chomsky
