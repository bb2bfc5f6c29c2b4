import Chomsky.Derivation.Basic
import Chomsky.Text.Quoted

/-!
# Options

What the command line asks for.
-/

namespace Chomsky

/-- The form of a report. -/
inductive Format where
  | text
  | json
  deriving DecidableEq, Repr

/-- The shells that completions can be written for. -/
inductive Shell where
  | bash
  | zsh
  | fish
  | powerShell
  | elvish
  deriving DecidableEq, Repr

structure Options where
  grammarFile : Option Text
  target : Option Word
  maxDepth : Option Nat
  maxStates : Option Nat
  /-- The form of the report if it is given; it is text otherwise. -/
  givenFormat : Option Format
  checkDerivation : Bool
  traceback : Bool
  debug : Bool
  completions : Option Shell
  deriving DecidableEq, Repr

namespace Format

/-- The value on the command line. -/
def argument : Format → Text
  | text => "text".toList
  | json => "json".toList

def ofArgument? (t : Text) : Option Format := [text, json].find? fun f => f.argument == t

def name : Format → Text
  | text => "Text".toList
  | json => "Json".toList

end Format

namespace Shell

def all : List Shell := [bash, zsh, fish, powerShell, elvish]

/-- The value on the command line. -/
def argument : Shell → Text
  | bash => "bash".toList
  | zsh => "zsh".toList
  | fish => "fish".toList
  | powerShell => "power-shell".toList
  | elvish => "elvish".toList

def ofArgument? (t : Text) : Option Shell := all.find? fun s => s.argument == t

def name : Shell → Text
  | bash => "Bash".toList
  | zsh => "Zsh".toList
  | fish => "Fish".toList
  | powerShell => "PowerShell".toList
  | elvish => "Elvish".toList

end Shell

namespace Options

/-- No option is given. -/
def none : Options := ⟨.none, .none, .none, .none, .none, false, false, false, .none⟩

def format (o : Options) : Format := o.givenFormat.getD .text

/-- The limits of a search: those given, and those of `base` in place of the others. -/
def limits (o : Options) (base : Limits) : Limits :=
  ⟨o.maxDepth.getD base.maxDepth, o.maxStates.getD base.maxStates⟩

/-- Errors are shown as values. -/
def showsDetail (o : Options) : Bool := o.traceback || o.debug

/-- An optional value as a value. -/
def optional {α : Type} (detail : α → Text) : Option α → Text
  | .none => "None".toList
  | some a => "Some(".toList ++ detail a ++ ")".toList

def boolean (b : Bool) : Text := if b then "true".toList else "false".toList

/-- The options as a value, on one line. -/
def detail (o : Options) : Text :=
  "Args \x7b grammar_file: ".toList ++ optional Text.quoted o.grammarFile ++
    ", derive: ".toList ++ optional Text.quoted o.target ++
    ", max_depth: ".toList ++ optional Text.ofNat o.maxDepth ++
    ", max_states: ".toList ++ optional Text.ofNat o.maxStates ++
    ", format: ".toList ++ o.format.name ++
    ", check_derivation: ".toList ++ boolean o.checkDerivation ++
    ", traceback: ".toList ++ boolean o.traceback ++
    ", debug: ".toList ++ boolean o.debug ++
    ", generate_completions: ".toList ++ optional Shell.name o.completions ++ " \x7d".toList

end Options

end Chomsky
