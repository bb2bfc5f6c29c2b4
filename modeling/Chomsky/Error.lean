import Chomsky.Fault
import Chomsky.Grammar.Basic
import Chomsky.Grammar.Written
import Chomsky.Text.Quoted

/-!
# Errors

Why a run gives no report. `Error.message` is the sentence for the user; `Error.detail` shows the
error as a value and serves tracebacks.
-/

namespace Chomsky

/-- The parts of a grammar that a dialogue has to get. -/
inductive Part where
  | terminals
  | nonTerminals
  | start
  deriving DecidableEq, Repr

def Part.name : Part → Text
  | terminals => "terminal symbols".toList
  | nonTerminals => "non-terminal symbols".toList
  | start => "start symbol".toList

inductive Error where
  | io (fault : Fault)
  | json (fault : Fault)
  /-- The text is no TOML document, or not one that declares a grammar. -/
  | toml
  | grammarFile (path : Text) (fault : Fault)
  /-- A line that is no rule; rules of a declaration are numbered from 1. -/
  | parse (position : Option Nat) (cause : Production.Unreadable)
  | invalidGrammar (defect : Grammar.Defect)
  | unexpectedEnd (part : Part)
  deriving DecidableEq, Repr

/-- Stands where a fault in a TOML document is described. The reader only refuses the document, and
the real description, of several lines, is left out. -/
def tomlFault : Text := "<toml>".toList

/-- What is wrong with a line, after its number if it has one. -/
def parseMessage (position : Option Nat) (cause : Production.Unreadable) : Text :=
  (match position with
    | none => []
    | some n => "rule ".toList ++ Text.ofNat n ++ ": ".toList) ++ cause.message

/-- A fault as a value. -/
def Fault.detail : Fault → Text
  | system f =>
    "Os \x7b code: ".toList ++ Text.ofNat f.code ++ ", kind: ".toList ++ f.kind ++
      ", message: ".toList ++ Text.quoted f.description ++ " \x7d".toList
  | notUtf8 =>
    "Error \x7b kind: InvalidData, message: ".toList ++ Text.quoted notUtf8.message ++
      " \x7d".toList
  | sinkFull =>
    "Custom \x7b kind: Other, error: ".toList ++ Text.quoted sinkFull.message ++ " \x7d".toList
  | other description =>
    "Custom \x7b kind: Other, error: ".toList ++ Text.quoted description ++ " \x7d".toList

namespace Error

def message : Error → Text
  | io fault => "IO error: ".toList ++ fault.message
  | json fault => "JSON error: ".toList ++ fault.message
  | toml => "TOML error: ".toList ++ tomlFault
  | grammarFile path fault =>
    "Cannot read grammar file ".toList ++ path ++ ": ".toList ++ fault.message
  | parse position cause => "Parse error: ".toList ++ parseMessage position cause
  | invalidGrammar defect => "Invalid grammar: ".toList ++ defect.message
  | unexpectedEnd part => "Unexpected end of input while reading ".toList ++ part.name

theorem message_parse_none (cause : Production.Unreadable) :
    (parse none cause).message = "Parse error: ".toList ++ cause.message :=
  rfl

theorem message_parse_some (n : Nat) (cause : Production.Unreadable) :
    (parse (some n) cause).message =
      "Parse error: rule ".toList ++ Text.ofNat n ++ ": ".toList ++ cause.message := by
  have parts : (parse (some n) cause).message = "Parse error: ".toList ++
      ("rule ".toList ++ Text.ofNat n ++ ": ".toList ++ cause.message) := rfl
  rw [parts]
  simp

theorem message_parse (position : Option Nat) (cause : Production.Unreadable) :
    (parse position cause).message = "Parse error: ".toList ++ parseMessage position cause :=
  rfl

def detail : Error → Text
  | io fault => "Io(".toList ++ fault.detail ++ ")".toList
  | json fault => "Json(".toList ++ fault.detail ++ ")".toList
  | toml => "Toml(".toList ++ tomlFault ++ ")".toList
  | grammarFile path fault =>
    "GrammarFile \x7b path: ".toList ++ Text.quoted path ++ ", source: ".toList ++ fault.detail ++
      " \x7d".toList
  | parse position cause =>
    "Parse(".toList ++ Text.quoted (parseMessage position cause) ++ ")".toList
  | invalidGrammar defect =>
    "InvalidGrammar(".toList ++ Text.quoted defect.message ++ ")".toList
  | unexpectedEnd part => "UnexpectedEof(".toList ++ Text.quoted part.name ++ ")".toList

end Error

end Chomsky
