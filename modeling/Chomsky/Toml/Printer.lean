import Chomsky.Decimal.Shortest
import Chomsky.Toml.Value

/-!
# Printed TOML values

A value as it could stand after a key. Tables are sorted by key. A string is written with as little
escaping as its characters allow; one that holds line breaks is written on several lines.
-/

namespace Chomsky.Toml

/-- A number with at least `width` digits. -/
def padded (width n : Nat) : Text :=
  let digits := Text.ofNat n
  List.replicate (width - digits.length) '0' ++ digits

namespace Date

def print (d : Date) : Text :=
  padded 4 d.year ++ '-' :: padded 2 d.month ++ '-' :: padded 2 d.day

end Date

/-- The digits of a fraction of a second, without zeros at the end. -/
def fractionDigits (nanosecond : Nat) : Text :=
  ((padded 9 nanosecond).reverse.dropWhile (· == '0')).reverse

namespace Time

def print (t : Time) : Text :=
  padded 2 t.hour ++ ':' :: padded 2 t.minute ++ ':' :: padded 2 t.second ++
    (if t.nanosecond = 0 then [] else '.' :: fractionDigits t.nanosecond)

end Time

namespace Offset

def print : Offset → Text
  | utc => ['Z']
  | minutes ahead =>
    (if ahead < 0 then '-' else '+') ::
      padded 2 (ahead.natAbs / 60) ++ ':' :: padded 2 (ahead.natAbs % 60)

end Offset

namespace Moment

def print : Moment → Text
  | date d => d.print
  | time t => t.print
  | both d t offset => d.print ++ 'T' :: t.print ++ ((offset.map Offset.print).getD [])

end Moment

/-- A float with at least one digit after the point; a NaN has no sign. -/
def printFloat (x : Float) : Text :=
  let bits := x.toBits
  let sign : Text := if bits >>> 63 == 1 then ['-'] else []
  if x.isNaN then "nan".toList
  else
    match Decimal.Binary.ofBits bits with
    | none => sign ++ "inf".toList
    | some b =>
      if b.mantissa = 0 then sign ++ "0.0".toList else sign ++ (Decimal.shortest b).positional

def printInteger : Int → Text
  | .ofNat n => Text.ofNat n
  | .negSucc n => '-' :: Text.ofNat (n + 1)

/-- How a string is quoted. -/
inductive Quoting where
  | basic
  | literal
  | basicLines
  | literalLines
  deriving DecidableEq, Repr

/-- Characters that no literal string can hold. -/
def needsEscape (c : Char) : Bool :=
  (c.toNat < 0x20 && c != '\t' && c != '\n') || c.toNat == 0x7F

/-- The length of the longest run of a character. -/
def longestRun (x : Char) (t : Text) : Nat :=
  (t.foldl (fun (best, current) c =>
    if c = x then (max best (current + 1), current + 1) else (best, 0)) (0, 0)).1

/-- The first kind of quoting that needs no escape, else the kind with double quotes. -/
def quotingOf (t : Text) : Quoting :=
  let escapes := t.any needsEscape
  let lines := t.contains '\n'
  let doubles := longestRun '"' t
  let singles := longestRun '\'' t
  let backslash := t.contains '\\'
  if !escapes && !lines && doubles == 0 && !backslash then .basic
  else if !escapes && !lines && singles == 0 then .literal
  else if !escapes && doubles ≤ 2 && !backslash then .basicLines
  else if !escapes && singles ≤ 2 then .literalLines
  else if lines then .basicLines
  else .basic

/-- A character other than a quote in a string in double quotes; newlines stay in a string of several
lines. -/
def escapeChar (lines : Bool) (c : Char) : Text :=
  if c = '\n' ∧ lines then [c]
  else if c = '\x08' then ['\\', 'b']
  else if c = '\t' then ['\\', 't']
  else if c = '\n' then ['\\', 'n']
  else if c = '\x0c' then ['\\', 'f']
  else if c = '\r' then ['\\', 'r']
  else if c = '\\' then ['\\', '\\']
  else if needsEscape c then
    "\\u00".toList ++ ((Nat.toDigits 16 (c.toNat + 0x100)).drop 1).map Char.toUpper
  else [c]

/-- The content of a string in double quotes, after `quotes` quotes that were left as they are. In a
string of several lines two quotes in a row are left, and the third is escaped. -/
def escapeFrom (lines : Bool) (quotes : Nat) : Text → Text
  | [] => []
  | c :: rest =>
    if c = '"' then
      if lines && quotes < 2 then '"' :: escapeFrom lines (quotes + 1) rest
      else '\\' :: '"' :: escapeFrom lines 0 rest
    else escapeChar lines c ++ escapeFrom lines 0 rest

/-- A text within quotes of a kind; text of several lines starts on a line of its own. -/
def quoteAs (q : Quoting) (t : Text) : Text :=
  let lead : Text := if t.contains '\n' then ['\n'] else []
  match q with
  | .basic => ['"'] ++ escapeFrom false 0 t ++ ['"']
  | .literal => ['\''] ++ t ++ ['\'']
  | .basicLines =>
    "\"\"\"".toList ++ lead ++ escapeFrom true 0 t ++ "\"\"\"".toList
  | .literalLines => "'''".toList ++ lead ++ t ++ "'''".toList

def printString (t : Text) : Text := quoteAs (quotingOf t) t

/-- A key stays bare if it can. -/
def printKey (key : Text) : Text :=
  if !key.isEmpty && key.all fun c => c.isAlphanum || c == '_' || c == '-' then key
  else
    match quotingOf key with
    | .literal => quoteAs .literal key
    | _ => quoteAs .basic key

/-- A printed entry in its place by key, among entries that are sorted. -/
def insertByKey (entry : Text × Text) : List (Text × Text) → List (Text × Text)
  | [] => [entry]
  | other :: rest =>
    if other.1 < entry.1 then other :: insertByKey entry rest else entry :: other :: rest

mutual

def Value.print : Value → Text
  | .string t => printString t
  | .integer n => printInteger n
  | .float x => printFloat x
  | .boolean true => "true".toList
  | .boolean false => "false".toList
  | .moment m => m.print
  | .array items => ['['] ++ Text.joinWith ", ".toList (printItems items) ++ [']']
  | .table entries =>
    match printEntries entries with
    | [] => "\x7b\x7d".toList
    | printed =>
      "\x7b ".toList ++
        Text.joinWith ", ".toList (printed.map fun (key, v) => printKey key ++ " = ".toList ++ v) ++
        " \x7d".toList

def printItems : List Value → List Text
  | [] => []
  | v :: rest => v.print :: printItems rest

/-- The keys with their printed values, sorted by key. -/
def printEntries : List (Text × Value) → List (Text × Text)
  | [] => []
  | (key, v) :: rest => insertByKey (key, v.print) (printEntries rest)

end

end Chomsky.Toml
