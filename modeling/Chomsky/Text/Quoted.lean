import Chomsky.Text.Unprintable

/-!
# Quoted texts

A quoted text stands between double quotes. A backslash marks a quote, a backslash, the four usual
controls and, as `\u` with the code point in braces, every other unprintable character.
-/

namespace Chomsky.Text

/-- The code point in lower-case hexadecimal digits. -/
def hexadecimal (c : Char) : Text := Nat.toDigits 16 c.toNat

def quoteChar (c : Char) : Text :=
  if c = '\x00' then ['\\', '0']
  else if c = '\t' then ['\\', 't']
  else if c = '\n' then ['\\', 'n']
  else if c = '\r' then ['\\', 'r']
  else if c = '"' then ['\\', '"']
  else if c = '\\' then ['\\', '\\']
  else if isUnprintable c then "\\u\x7b".toList ++ hexadecimal c ++ "\x7d".toList
  else [c]

def quoted (t : Text) : Text := ['"'] ++ t.flatMap quoteChar ++ ['"']

/-- A list as `["a", "b"]`. -/
def quotedList (ts : List Text) : Text :=
  ['['] ++ joinWith ", ".toList (ts.map quoted) ++ [']']

end Chomsky.Text
