import Chomsky.Options.Basic
import Chomsky.Options.Synopsis

/-!
# Shell completions

Scripts that complete the arguments of the program, for a program of any name.
-/

namespace Chomsky.Completion

/-- A text with one character replaced by a text. -/
def replaced (c : Char) (substitute t : Text) : Text :=
  t.flatMap fun d => if d = c then substitute else [d]

def lines (ls : List Text) : Text := ls.flatMap fun l => l ++ ['\n']

/-- All names of an argument with their dashes, the short one first. -/
def allNames (s : Synopsis) : List Text := s.shortForm?.toList ++ ['-' :: '-' :: s.long]

def spaced (ts : List Text) : Text := Text.joinWith [' '] ts

def bash (name : Text) : Text :=
  let function := '_' :: replaced '-' "__".toList name
  let arguments := Synopsis.allShort
  let valued := arguments.filter fun s => s.valueName.isSome && s.choices.isEmpty
  lines (
    [function ++ "() \x7b".toList,
      "    local i cur prev opts cmd".toList,
      "    cur=\"$2\"".toList,
      "    prev=\"$3\"".toList,
      "    opts=\"".toList ++ spaced (arguments.flatMap allNames) ++ "\"".toList,
      "    case \"$prev\" in".toList,
      "        ".toList ++ Text.joinWith ['|'] (valued.flatMap allNames) ++
        ") return 0 ;;".toList] ++
    (arguments.filter fun s => !s.choices.isEmpty).map (fun s =>
      "        --".toList ++ s.long ++ ") opts=\"".toList ++ spaced (s.choices.map Prod.fst) ++
        "\" ;;".toList) ++
    ["    esac".toList,
      "    COMPREPLY=( $(compgen -W \"$opts\" -- \"$cur\") )".toList,
      "\x7d".toList,
      [],
      "complete -F ".toList ++ function ++ " -o bashdefault -o default ".toList ++ name])

/-- A text in single quotes of a shell that ends and reopens them around a quote. -/
def reopened (t : Text) : Text := ['\''] ++ replaced '\'' "'\\''".toList t ++ ['\'']

def zshLine (s : Synopsis) (flag : Text) : Text :=
  let value :=
    match s.valueName, s.choices with
    | none, _ => []
    | some name, [] => ":".toList ++ name ++ ": ".toList
    | some name, choices =>
      ":".toList ++ name ++ ":(".toList ++ spaced (choices.map Prod.fst) ++ ")".toList
  "    ".toList ++ reopened (flag ++ "[".toList ++ s.meaning ++ "]".toList ++ value) ++ " \\".toList

def zsh (name : Text) : Text :=
  lines (
    ["#compdef ".toList ++ name,
      [],
      "autoload -U is-at-least".toList,
      [],
      "_arguments -s -S \\".toList] ++
    Synopsis.allShort.flatMap (fun s => (allNames s).map (zshLine s)) ++
    ["    ".toList ++ reopened ("::".toList ++ Synopsis.fileHelp ++ ":_files".toList)])

/-- A text in single quotes of a shell that escapes quotes and backslashes by a backslash. -/
def escaped (t : Text) : Text :=
  ['\''] ++ replaced '\'' "\\'".toList (replaced '\\' "\\\\".toList t) ++ ['\'']

def fishLine (name : Text) (s : Synopsis) : Text :=
  "complete -c ".toList ++ name ++
    (match s.short with
      | none => []
      | some c => " -s ".toList ++ [c]) ++
    " -l ".toList ++ s.long ++ " -d ".toList ++ escaped s.meaning ++
    (if s.valueName.isSome then " -r".toList else []) ++
    (match s.choices with
      | [] => []
      | choices => " -f -a ".toList ++ escaped (spaced (choices.map Prod.fst)))

def fish (name : Text) : Text := lines (Synopsis.allShort.map (fishLine name))

/-- A text in single quotes of a shell that doubles a quote. -/
def doubled (t : Text) : Text := ['\''] ++ replaced '\'' "''".toList t ++ ['\'']

def powerShell (name : Text) : Text :=
  lines (
    [[],
      "using namespace System.Management.Automation".toList,
      "using namespace System.Management.Automation.Language".toList,
      [],
      "Register-ArgumentCompleter -Native -CommandName ".toList ++ doubled name ++
        " -ScriptBlock \x7b".toList,
      "    param($wordToComplete, $commandAst, $cursorPosition)".toList,
      "    @(".toList] ++
    Synopsis.allShort.flatMap (fun s => (allNames s).map fun flag =>
      "        [CompletionResult]::new(".toList ++ doubled flag ++ ", ".toList ++ doubled flag ++
        ", [CompletionResultType]::ParameterName, ".toList ++ doubled s.meaning ++ ")".toList) ++
    ["    ).Where\x7b $_.CompletionText -like \"$wordToComplete*\" \x7d".toList,
      "\x7d".toList])

def elvish (name : Text) : Text :=
  lines (
    [[],
      "use builtin;".toList,
      "use str;".toList,
      [],
      "set edit:completion:arg-completer[".toList ++ name ++ "] = \x7b|@words|".toList] ++
    Synopsis.allShort.flatMap (fun s => (allNames s).map fun flag =>
      "    edit:complex-candidate ".toList ++ flag ++ " &display=".toList ++
        doubled (flag ++ "  ".toList ++ s.meaning)) ++
    ["\x7d".toList])

/-- The script of a shell for a program of a name. -/
def script : Shell → (name : Text) → Text
  | .bash => bash
  | .zsh => zsh
  | .fish => fish
  | .powerShell => powerShell
  | .elvish => elvish

end Chomsky.Completion
