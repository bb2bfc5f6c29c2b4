import Chomsky.Text.Basic

/-!
# Synopsis

The named arguments as help and shell completions present them, in order.
-/

namespace Chomsky

/-- A named argument as it is presented. -/
structure Synopsis where
  short : Option Char
  /-- The long name without its dashes. -/
  long : Text
  /-- The name of its value, if it has one. -/
  valueName : Option Text
  meaning : Text
  /-- The values it may have and what they mean, the standard value first; empty when any will do. -/
  choices : List (Text × Text)
  deriving DecidableEq, Repr

namespace Synopsis

/-- The argument as `--derive <TARGET>`. -/
def longForm (s : Synopsis) : Text :=
  '-' :: '-' :: s.long ++
    match s.valueName with
    | none => []
    | some name => " <".toList ++ name ++ ">".toList

/-- The short name with its dash. -/
def shortForm? (s : Synopsis) : Option Text := s.short.map fun c => ['-', c]

/-- All arguments but those of help and version. -/
def options : List Synopsis := [
  { short := some 'd'
    long := "derive".toList
    valueName := some "TARGET".toList
    meaning := "Search for a derivation of TARGET ('$' for the empty string)".toList
    choices := [] },
  { short := none
    long := "max-depth".toList
    valueName := some "N".toList
    meaning := "Longest derivation to explore, in sentential forms".toList
    choices := [] },
  { short := none
    long := "max-states".toList
    valueName := some "N".toList
    meaning := "Distinct sentential forms to expand before giving up".toList
    choices := [] },
  { short := none
    long := "format".toList
    valueName := some "FORMAT".toList
    meaning := "Output format".toList
    choices := [
      ("text".toList, "Plain text output (default)".toList),
      ("json".toList, "A single JSON document".toList)] },
  { short := none
    long := "check-derivation".toList
    valueName := none
    meaning := "Exit with status 1 when no derivation of the target is found".toList
    choices := [] },
  { short := none
    long := "traceback".toList
    valueName := none
    meaning := "Show traceback on error".toList
    choices := [] },
  { short := none
    long := "debug".toList
    valueName := none
    meaning := "Debug mode (implies --traceback)".toList
    choices := [] }]

/-- The argument of help, which names the other form of help. -/
def help (other : Text) : Synopsis where
  short := some 'h'
  long := "help".toList
  valueName := none
  meaning := "Print help (".toList ++ other ++ ")".toList
  choices := []

def version : Synopsis where
  short := some 'V'
  long := "version".toList
  valueName := none
  meaning := "Print version".toList
  choices := []

/-- The name and the meaning of the grammar file. -/
def fileLabel : Text := "[GRAMMAR_FILE]".toList

def fileHelp : Text := "Grammar file (TOML) to read instead of prompting".toList

/-- All arguments as the short help has them. -/
def allShort : List Synopsis := options ++ [help "see more with '--help'".toList, version]

/-- All arguments as the long help has them. -/
def allLong : List Synopsis := options ++ [help "see a summary with '-h'".toList, version]

end Synopsis

end Chomsky
