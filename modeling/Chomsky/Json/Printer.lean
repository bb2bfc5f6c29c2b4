import Chomsky.Json.Value

/-!
# Printing JSON

A value is printed over several lines, two blanks deeper for each level; empty arrays and objects
stay on one line. In a string only the quote, the backslash and the characters below U+0020 are
escaped. The text comes in the pieces in which it is written out.
-/

namespace Chomsky.Json

/-- The last two digits of an escaped control character. -/
def controlDigits (c : Char) : Text :=
  [Nat.digitChar (c.toNat / 16), Nat.digitChar (c.toNat % 16)]

def escapeChar (c : Char) : Text :=
  if c = '"' then ['\\', '"']
  else if c = '\\' then ['\\', '\\']
  else if c = '\x08' then ['\\', 'b']
  else if c = '\x0c' then ['\\', 'f']
  else if c = '\n' then ['\\', 'n']
  else if c = '\r' then ['\\', 'r']
  else if c = '\t' then ['\\', 't']
  else if c.toNat < 0x20 then "\\u00".toList ++ controlDigits c
  else [c]

def escape (t : Text) : Text := t.flatMap escapeChar

def stringPieces (t : Text) : List Text := [['"'], escape t, ['"']]

def integer : Int → Text
  | .ofNat n => Text.ofNat n
  | .negSucc n => '-' :: Text.ofNat (n + 1)

def numberText (mantissa exponent : Int) : Text :=
  if exponent = 0 then integer mantissa else integer mantissa ++ 'e' :: integer exponent

def newline (level : Nat) : Text := '\n' :: List.replicate (2 * level) ' '

mutual

/-- The pieces of a value whose lines after the first stand at `level`. -/
def pieces (level : Nat) : Json → List Text
  | null => ["null".toList]
  | bool true => ["true".toList]
  | bool false => ["false".toList]
  | number m e => [numberText m e]
  | string t => stringPieces t
  | array [] => ["[]".toList]
  | array (item :: rest) =>
    [['['], newline (level + 1)] ++ pieces (level + 1) item ++ itemPieces (level + 1) rest ++
      [newline level, [']']]
  | object [] => ["\x7b\x7d".toList]
  | object ((key, value) :: rest) =>
    [['\x7b'], newline (level + 1)] ++ stringPieces key ++ [": ".toList] ++
      pieces (level + 1) value ++ memberPieces (level + 1) rest ++ [newline level, ['\x7d']]

/-- The pieces of the items after the first. -/
def itemPieces (level : Nat) : List Json → List Text
  | [] => []
  | item :: rest => [[','], newline level] ++ pieces level item ++ itemPieces level rest

/-- The pieces of the members after the first. -/
def memberPieces (level : Nat) : List (Text × Json) → List Text
  | [] => []
  | (key, value) :: rest =>
    [[','], newline level] ++ stringPieces key ++ [": ".toList] ++ pieces level value ++
      memberPieces level rest

end

def render (j : Json) : Text := (j.pieces 0).flatten

end Chomsky.Json
