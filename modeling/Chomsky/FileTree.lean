import Chomsky.Fault
import Chomsky.Path
import Chomsky.Text.Bytes

/-!
# File trees

A tree of folders and files, and how a path leads through it from a working folder. A path with
anything after a file, be it only a slash, fails because the file is no folder.
-/

namespace Chomsky

inductive FileTree where
  | file (content : Bytes)
  | folder (entries : List (Text × FileTree))

namespace FileTree

/-- The folder that holds what `outer` holds, and below the path nothing but what was there and the
new node. Files in the way are replaced. -/
def insert (node : FileTree) : List Text → FileTree → FileTree
  | [], _ => node
  | part :: path, tree =>
    let entries := match tree with
      | folder entries => entries
      | file _ => []
    let inner := ((entries.find? fun e => e.1 == part).map Prod.snd).getD (folder [])
    folder ((entries.filter fun e => e.1 != part) ++ [(part, insert node path inner)])

/-- Follows the parts of a path. `above` are the folders that lead to `here`, the nearest first; the
root is above itself. -/
def follow (above : List FileTree) (here : FileTree) : List Text → Except SystemFault FileTree
  | [] => .ok here
  | part :: rest =>
    match here with
    | file _ => .error .notDirectory
    | folder entries =>
      if part.isEmpty || part == ['.'] then follow above here rest
      else if part = ['.', '.'] then
        match above with
        | [] => follow [] here rest
        | parent :: above => follow above parent rest
      else
        match entries.find? fun e => e.1 == part with
        | none => .error .missing
        | some (_, inner) => follow (here :: above) inner rest

/-- What reading a file gives. A relative path starts in the working folder. -/
def read (root : FileTree) (working : List Text) (path : Text) : Except Fault Bytes :=
  let parts := Text.pieces (· == '/') path
  if path.isEmpty then .error (.system .missing)
  else
    match follow [] root (if Path.isAbsolute path then parts else working ++ parts) with
    | .error fault => .error (.system fault)
    | .ok (folder _) => .error (.system .isDirectory)
    | .ok (file content) => .ok content

end FileTree

end Chomsky
