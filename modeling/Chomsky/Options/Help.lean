import Chomsky.Options.Synopsis
import Chomsky.Path
import Chomsky.Text.Plain

/-!
# Help

The texts of `-h`, `--help` and `--version`.
-/

namespace Chomsky.Help

/-- The name of the program where the command line gives none. -/
def programName : Text := "grammar-validator".toList

/-- The name that help shows: the last part of the path that the program was called by, plain. -/
def shownName (arguments : List Text) : Text :=
  Text.plain .stream ((arguments.head?.bind Path.fileName?).getD programName)

def version : Text := programName ++ " 0.1.0\n".toList

/-- What stands before the lists of arguments. -/
def heading (name : Text) : Text :=
  "Classify formal grammars in the Chomsky hierarchy and search for derivations\n\n".toList ++
    "Usage: ".toList ++ name ++ " [OPTIONS] ".toList ++ Synopsis.fileLabel ++ "\n\n".toList

/-- The names of an argument; a missing short name leaves its room. -/
def names (s : Synopsis) : Text :=
  (match s.shortForm? with
    | none => "    ".toList
    | some short => short ++ ", ".toList) ++ s.longForm

/-- The longest of the long forms. -/
def nameWidth (ss : List Synopsis) : Nat := (ss.map fun s => (names s).length).foldl max 0

/-- A text with blanks up to a width. -/
def padTo (width : Nat) (t : Text) : Text := t ++ List.replicate (width - t.length) ' '

/-- The choices of an argument in brackets. -/
def shortChoices (s : Synopsis) : Text :=
  match s.choices with
  | [] => []
  | standard :: _ =>
    " [default: ".toList ++ standard.1 ++ "] [possible values: ".toList ++
      Text.joinWith ", ".toList (s.choices.map Prod.fst) ++ "]".toList

def shortLine (width : Nat) (s : Synopsis) : Text :=
  "  ".toList ++ padTo width (names s) ++ "  ".toList ++ s.meaning ++ shortChoices s ++ ['\n']

/-- The help of `-h`: one line for each argument. -/
def short (name : Text) : Text :=
  let arguments := Synopsis.allShort
  heading name ++
    "Arguments:\n  ".toList ++ Synopsis.fileLabel ++ "  ".toList ++ Synopsis.fileHelp ++
    "\n\nOptions:\n".toList ++ arguments.flatMap (shortLine (nameWidth arguments))

/-- A line of a paragraph. -/
def indented (t : Text) : Text := List.replicate 10 ' ' ++ t ++ ['\n']

/-- The choices of an argument as a list. -/
def longChoices (s : Synopsis) : Text :=
  match s.choices with
  | [] => []
  | standard :: _ =>
    ['\n'] ++ indented "Possible values:".toList ++
      s.choices.flatMap (fun c => indented ("- ".toList ++ c.1 ++ ": ".toList ++ c.2)) ++
      indented [] ++ indented ("[default: ".toList ++ standard.1 ++ "]".toList)

def paragraph (s : Synopsis) : Text :=
  "  ".toList ++ names s ++ ['\n'] ++ indented s.meaning ++ longChoices s

/-- The help of `--help`: a paragraph for each argument. -/
def long (name : Text) : Text :=
  heading name ++
    "Arguments:\n  ".toList ++ Synopsis.fileLabel ++ ['\n'] ++ indented Synopsis.fileHelp ++
    "\nOptions:\n".toList ++ Text.joinWith ['\n'] (Synopsis.allLong.map paragraph)

end Chomsky.Help
