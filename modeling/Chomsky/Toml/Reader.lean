import Chomsky.Toml.Scalar
import Chomsky.Toml.Table

/-!
# Reading TOML

`Toml.read` reads a document of TOML 1.1 into the value of its root table, or refuses it. Loops over
a text of n characters have n + 1 as fuel, since each turn takes a character.
-/

namespace Chomsky.Toml

/-- Arrays and inline tables are nested at most this deep, and a key has at most so many parts. -/
def maxNesting : Nat := 80

/-- Characters that stand in no string and no comment; the tab is not among them. -/
def isControl (c : Char) : Bool := (c.toNat < 0x20 && c != '\t') || c.toNat == 0x7F

def isSpace (c : Char) : Bool := c == ' ' || c == '\t'

def skipSpace (t : Text) : Text := t.dropWhile isSpace

/-- What follows white space, newlines and comments; `none` for a control character in a comment. -/
def skipFiller (inComment : Bool) : Text → Option Text
  | [] => some []
  | '\n' :: rest => skipFiller false rest
  | '\r' :: '\n' :: rest => skipFiller false rest
  | c :: rest =>
    if inComment then if isControl c then none else skipFiller true rest
    else if isSpace c then skipFiller false rest
    else if c = '#' then skipFiller true rest
    else some (c :: rest)

/-- What follows the rest of a line, which holds nothing but a comment. -/
def endLine (inComment : Bool) : Text → Option Text
  | [] => some []
  | '\n' :: rest => some rest
  | '\r' :: '\n' :: rest => some rest
  | c :: rest =>
    if inComment then if isControl c then none else endLine true rest
    else if isSpace c then endLine false rest
    else if c = '#' then endLine true rest
    else none

/-! ## Strings -/

/-- The character of `count` hexadecimal digits; a surrogate is none. -/
def readCodePoint (count : Nat) (t : Text) : Option (Char × Text) := do
  let digits := t.take count
  if digits.length ≠ count then none
  let n := digitsIn 16 (← digits.mapM (digitValue 16))
  if n.isValidChar then return (Char.ofNat n, t.drop count) else none

/-- The character after a backslash. -/
def readEscape : Text → Option (Char × Text)
  | 'b' :: rest => some ('\x08', rest)
  | 't' :: rest => some ('\t', rest)
  | 'n' :: rest => some ('\n', rest)
  | 'f' :: rest => some ('\x0c', rest)
  | 'r' :: rest => some ('\r', rest)
  | 'e' :: rest => some ('\x1b', rest)
  | '"' :: rest => some ('"', rest)
  | '\\' :: rest => some ('\\', rest)
  | 'x' :: rest => readCodePoint 2 rest
  | 'u' :: rest => readCodePoint 4 rest
  | 'U' :: rest => readCodePoint 8 rest
  | _ => none

/-- A string in double quotes, after the first. -/
def readBasic : (fuel : Nat) → Text → Option (Text × Text)
  | 0, _ => none
  | _ + 1, [] => none
  | _ + 1, '"' :: rest => some ([], rest)
  | fuel + 1, '\\' :: rest => do
    let (c, rest) ← readEscape rest
    let (t, rest) ← readBasic fuel rest
    return (c :: t, rest)
  | fuel + 1, c :: rest =>
    if isControl c then none
    else (readBasic fuel rest).map fun (t, rest) => (c :: t, rest)

/-- A string in single quotes, after the first. -/
def readLiteral : Text → Option (Text × Text)
  | [] => none
  | '\'' :: rest => some ([], rest)
  | c :: rest =>
    if isControl c then none else (readLiteral rest).map fun (t, rest) => (c :: t, rest)

/-- What follows a newline, if the text starts with one. -/
def newline? : Text → Option Text
  | '\n' :: rest => some rest
  | '\r' :: '\n' :: rest => some rest
  | _ => none

/-- The end of a string in three quotes: up to two more quotes belong to the string. -/
def closing? (quote : Char) (t : Text) : Option (Text × Text) :=
  let quotes := t.takeWhile (· == quote)
  if quotes.length < 3 then none
  else some (quotes.drop 3 |>.take 2, t.drop (min quotes.length 5))

/-- A string of several lines holds a character as it is, given what follows: newlines too, and
carriage returns before them. -/
def standsInLines (c : Char) (rest : Text) : Bool :=
  !isControl c || c == '\n' || (c == '\r' && rest.head? == some '\n')

/-- What follows white space and newlines. -/
def skipBlankLines : Text → Text
  | [] => []
  | '\r' :: '\n' :: rest => skipBlankLines rest
  | c :: rest => if isSpace c || c == '\n' then skipBlankLines rest else c :: rest

/-- A string of several lines in double quotes. A backslash at the end of a line takes away the
white space up to the next other character. -/
def readBasicLines : (fuel : Nat) → Text → Option (Text × Text)
  | 0, _ => none
  | _ + 1, [] => none
  | fuel + 1, c :: rest =>
    match closing? '"' (c :: rest) with
    | some closed => some closed
    | none =>
      if c = '\\' then
        match newline? (skipSpace rest) with
        | some below => readBasicLines fuel (skipBlankLines below)
        | none => do
          let (escaped, rest) ← readEscape rest
          let (t, rest) ← readBasicLines fuel rest
          return (escaped :: t, rest)
      else if standsInLines c rest then
        (readBasicLines fuel rest).map fun (t, rest) => (c :: t, rest)
      else none

/-- A string of several lines in single quotes. -/
def readLiteralLines : (fuel : Nat) → Text → Option (Text × Text)
  | 0, _ => none
  | _ + 1, [] => none
  | fuel + 1, c :: rest =>
    match closing? '\'' (c :: rest) with
    | some closed => some closed
    | none =>
      if standsInLines c rest then
        (readLiteralLines fuel rest).map fun (t, rest) => (c :: t, rest)
      else none

/-- A newline right after the opening quotes is not part of the string. -/
def dropFirstNewline (t : Text) : Text := (newline? t).getD t

/-- A string of any kind, if the text starts with a quote. -/
def readString? (t : Text) : Option (Option (Text × Text)) :=
  match t with
  | '"' :: '"' :: '"' :: rest => some (readBasicLines (rest.length + 1) (dropFirstNewline rest))
  | '"' :: rest => some (readBasic (rest.length + 1) rest)
  | '\'' :: '\'' :: '\'' :: rest =>
    some (readLiteralLines (rest.length + 1) (dropFirstNewline rest))
  | '\'' :: rest => some (readLiteral rest)
  | _ => none

/-! ## Keys -/

def isBareKeyChar (c : Char) : Bool := c.isAlphanum || c == '_' || c == '-'

/-- One part of a key. -/
def readKeyPart : Text → Option (Text × Text)
  | '"' :: rest => readBasic (rest.length + 1) rest
  | '\'' :: rest => readLiteral rest
  | t =>
    match t.takeWhile isBareKeyChar with
    | [] => none
    | key => some (key, t.dropWhile isBareKeyChar)

/-- A key of at most `limit` parts as the parts before its last and the last part, and what follows
the blanks after it. -/
def readKey : (limit : Nat) → Text → Option ((List Text × Text) × Text)
  | 0, _ => none
  | limit + 1, t => do
    let (part, rest) ← readKeyPart (skipSpace t)
    match skipSpace rest with
    | '.' :: rest =>
      let ((path, key), rest) ← readKey limit rest
      return ((part :: path, key), rest)
    | rest => return (([], part), rest)

/-! ## Values -/

/-- The characters of unquoted values: all but white space, newlines and those that have a meaning
between values. -/
def isTokenChar (c : Char) : Bool :=
  !(isSpace c || c == '\n' || c == '\r' || c == '#' || c == ',' || c == '=' || c == '[' ||
    c == ']' || c == '\x7b' || c == '\x7d')

/-- The next token. After a date a single blank and a digit go on with a time. -/
def readToken (t : Text) : Text × Text :=
  let token := t.takeWhile isTokenChar
  let rest := t.dropWhile isTokenChar
  match rest with
  | ' ' :: c :: more =>
    if c.isDigit && (readDate token).isSome then
      (token ++ ' ' :: (c :: more).takeWhile isTokenChar, (c :: more).dropWhile isTokenChar)
    else (token, rest)
  | _ => (token, rest)

/-- A reader of one value, which takes it from the front of a text. -/
abbrev ValueReader := Text → Option (Node × Text)

/-- The items of an array up to its bracket; a comma may follow the last. -/
def readItems (item : ValueReader) : (fuel : Nat) → Text → Option (List Node × Text)
  | 0, _ => none
  | fuel + 1, t => do
    match ← skipFiller false t with
    | ']' :: rest => return ([], rest)
    | t =>
      let (v, rest) ← item t
      match ← skipFiller false rest with
      | ']' :: rest => return ([v], rest)
      | ',' :: rest =>
        let (items, rest) ← readItems item fuel rest
        return (v :: items, rest)
      | _ => none

/-- The entries of an inline table up to its brace; a comma may follow the last. Newlines and
comments may stand around the equals sign. -/
def readEntries (item : ValueReader) : (fuel : Nat) → Entries → Text → Option (Entries × Text)
  | 0, _, _ => none
  | fuel + 1, entries, t => do
    match ← skipFiller false t with
    | '\x7d' :: rest => return (entries, rest)
    | t =>
      let ((path, key), rest) ← readKey maxNesting t
      let '=' :: rest ← skipFiller false rest | none
      let (v, rest) ← item (← skipFiller false rest)
      let entries ← entries.put key v path
      match ← skipFiller false rest with
      | '\x7d' :: rest => return (entries, rest)
      | ',' :: rest => readEntries item fuel entries rest
      | _ => none

/-- A value, with room for `depth` levels of arrays and inline tables. -/
def readValue : (depth : Nat) → ValueReader
  | 0, t => readFlat t
  | depth + 1, t =>
    match t with
    | '[' :: rest =>
      (readItems (readValue depth) (rest.length + 1) rest).map fun (items, rest) =>
        (.array items, rest)
    | '\x7b' :: rest =>
      (readEntries (readValue depth) (rest.length + 1) [] rest).map fun (entries, rest) =>
        (.table .closed entries, rest)
    | _ => readFlat t
where
  /-- A string or an unquoted value. -/
  readFlat (t : Text) : Option (Node × Text) :=
    match readString? t with
    | some string => string.map fun (s, rest) => (.scalar (.value (.string s)), rest)
    | none =>
      let (token, rest) := readToken t
      (readScalar token).map fun s => (.scalar s, rest)

/-! ## Documents -/

/-- The statements of a text, below the table of the last header. -/
def readStatements : (fuel : Nat) → (header : List Text) → Entries → Text → Option Entries
  | 0, _, _, _ => none
  | fuel + 1, header, root, t => do
    match ← skipFiller false t with
    | [] => return root
    | '[' :: '[' :: rest =>
      let ((path, key), rest) ← readKey maxNesting rest
      let ']' :: ']' :: rest := rest | none
      readStatements fuel (path ++ [key]) (← root.openNext path key) (← endLine false rest)
    | '[' :: rest =>
      let ((path, key), rest) ← readKey maxNesting rest
      let ']' :: rest := rest | none
      readStatements fuel (path ++ [key]) (← root.openTable path key) (← endLine false rest)
    | t =>
      let ((path, key), rest) ← readKey maxNesting t
      let '=' :: rest := rest | none
      let (v, rest) ← readValue maxNesting (skipSpace rest)
      let root ← Entries.within (·.put key v path) header root
      readStatements fuel header root (← endLine false rest)

/-- A byte order mark may stand in front. -/
def dropByteOrderMark : Text → Text
  | '\uFEFF' :: rest => rest
  | t => t

/-- The value of the root table of a document. -/
def read (t : Text) : Option Value := do
  let t := dropByteOrderMark t
  let root ← readStatements (t.length + 1) [] [] t
  root.toValue? (finishEntries root)

end Chomsky.Toml
