import Chomsky.Text.Bytes

/-!
# Input lines

Input is cut into lines at newline bytes; a last line may lack its newline. A line is read as UTF-8
by itself, so that one ill-formed line leaves the others readable.
-/

namespace Chomsky

inductive Line where
  /-- The text of a line, without the newline and carriage returns at its end. -/
  | text (t : Text)
  /-- The bytes of the line are not UTF-8. -/
  | illFormed
  deriving DecidableEq, Repr

namespace Line

def isTerminator (c : Char) : Bool := c == '\n' || c == '\r'

def dropTerminators (t : Text) : Text := (t.reverse.dropWhile isTerminator).reverse

def ofBytes (bs : Bytes) : Line :=
  match Text.decode bs with
  | none => .illFormed
  | some t => .text (dropTerminators t)

/-- The lines of an input. What follows the last newline is a line if it is not empty. -/
def ofInput (bs : Bytes) : List Line :=
  let parts := Text.pieces (· == 10) bs
  let parts := if parts.getLast? = some [] then parts.dropLast else parts
  parts.map ofBytes

end Line

end Chomsky
