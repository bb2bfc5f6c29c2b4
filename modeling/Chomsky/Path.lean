import Chomsky.Text.Basic

/-!
# Paths

A path is a text whose parts are separated by slashes. Empty parts and single dots name nothing.
-/

namespace Chomsky.Path

/-- The parts that name something, `..` among them. -/
def parts (path : Text) : List Text :=
  (Text.pieces (· == '/') path).filter fun p => !p.isEmpty && p != ['.']

def isAbsolute (path : Text) : Bool := path.head? == some '/'

/-- The last part, unless it is `..`. -/
def fileName? (path : Text) : Option Text := (parts path).getLast?.filter (· != ['.', '.'])

/-- A name without its last extension; a dot in front starts no extension. -/
def stem (name : Text) : Text :=
  match name.reverse.dropWhile (· != '.') with
  | [] => name
  | [_] => name
  | _ :: before => before.reverse

def fileStem? (path : Text) : Option Text := (fileName? path).map stem

def join (folder name : Text) : Text :=
  match folder.getLast? with
  | none | some '/' => folder ++ name
  | some _ => folder ++ '/' :: name

end Chomsky.Path
