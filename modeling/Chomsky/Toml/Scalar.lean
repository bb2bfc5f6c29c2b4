import Chomsky.Toml.Value

/-!
# Unquoted TOML values

Numbers, booleans, dates and times, each given as one token.
-/

namespace Chomsky.Toml

/-- A value without parts as it is written. A number may be written so that it is too large or lacks
proper digits; that it has no value matters only where the value is asked for. -/
inductive Scalar where
  | value (v : Value)
  | noValue
  deriving Repr

namespace Scalar

def value? : Scalar → Option Value
  | value v => some v
  | noValue => none

/-- Integers have 64 bits. -/
def ofInteger (n : Int) : Scalar :=
  if Int64.minValue.toInt ≤ n ∧ n ≤ Int64.maxValue.toInt then value (.integer n) else noValue

end Scalar

/-- The value of digits in a base, most significant first. -/
def digitsIn (base : Nat) (digits : List Nat) : Nat := digits.foldl (fun n d => base * n + d) 0

def digitValue (base : Nat) (c : Char) : Option Nat :=
  let value :=
    if '0' ≤ c ∧ c ≤ '9' then some (c.toNat - '0'.toNat)
    else if 'a' ≤ c ∧ c ≤ 'f' then some (c.toNat - 'a'.toNat + 10)
    else if 'A' ≤ c ∧ c ≤ 'F' then some (c.toNat - 'A'.toNat + 10)
    else none
  value.filter (· < base)

/-- Digits in which single underscores may stand between two digits. -/
def readDigits (base : Nat) (t : Text) : Option (List Nat) := do
  let groups ← (Text.pieces (· == '_') t).mapM fun group =>
    if group.isEmpty then none else group.mapM (digitValue base)
  return groups.flatten

/-- Decimal digits without a leading zero before another digit. -/
def readPlainDigits (t : Text) : Option (List Nat) := do
  match ← readDigits 10 t with
  | 0 :: _ :: _ => none
  | digits => return digits

/-- A sign, plus if there is none, and what follows it. -/
def splitSign : Text → Bool × Text
  | '-' :: rest => (true, rest)
  | '+' :: rest => (false, rest)
  | t => (false, t)

/-- What follows the mark of a base. Without digits it has no value. -/
def readInBase (base : Nat) (t : Text) : Option Scalar :=
  if t.isEmpty then some .noValue
  else (readDigits base t).map fun digits => .ofInteger (digitsIn base digits)

def isDigitOfAnyBase (c : Char) : Bool := (digitValue 16 c).isSome

/-- Underscores between groups stand between digits of some base. -/
def underscoresJoin : List Text → Bool
  | before :: after :: rest =>
    before.getLast?.any isDigitOfAnyBase && after.head?.any isDigitOfAnyBase &&
      underscoresJoin (after :: rest)
  | _ => true

/-- An integer in base ten without a sign. Behind its first underscore other characters than digits
may stand, but then it has no value. -/
def readDecimalInteger (negative : Bool) (t : Text) : Option Scalar :=
  let groups := Text.pieces (· == '_') t
  let first := t.takeWhile (· != '_')
  if first.isEmpty || !first.all Char.isDigit || (t.length > 1 && t.head? == some '0') ||
      !underscoresJoin groups then none
  else
    match readDigits 10 t with
    | none => some .noValue
    | some digits =>
      let n : Int := digitsIn 10 digits
      some (.ofInteger (if negative then -n else n))

/-- The characters by which a number is a float. -/
def isFloatMark (c : Char) : Bool := c == '.' || c == 'e' || c == 'E'

def readInteger (t : Text) : Option Scalar :=
  match t with
  | '0' :: 'x' :: rest => readInBase 16 rest
  | '0' :: 'o' :: rest => readInBase 8 rest
  | '0' :: 'b' :: rest => readInBase 2 rest
  | _ =>
    if t.any isFloatMark then none
    else
      let (negative, rest) := splitSign t
      readDecimalInteger negative rest

/-- The float nearest to `digits` · 10^`exponent`; `none` when it is too large. -/
def nearestFloat (digits : Nat) (exponent : Int) : Option Float :=
  let size : Int := (Nat.toDigits 10 digits).length
  if digits = 0 ∨ exponent + size < -400 then some 0.0
  else if exponent + size > 400 then none
  else
    let x := Float.ofScientific digits (exponent < 0) exponent.natAbs
    if x.isInf then none else some x

/-- The exponent of a float, after its letter. -/
def readExponent (t : Text) : Option Int := do
  let (negative, rest) := splitSign t
  let n : Int := digitsIn 10 (← readDigits 10 rest)
  return if negative then -n else n

/-- The part up to the first character of the class, and what follows that character. -/
def splitAtFirst (p : Char → Bool) (t : Text) : Text × Option Text :=
  match t.dropWhile fun c => !p c with
  | [] => (t, none)
  | _ :: rest => (t.takeWhile fun c => !p c, some rest)

/-- A float without a sign; the inner option is empty when it is too large. -/
def readUnsignedFloat (t : Text) : Option (Option Float) :=
  if t = "inf".toList then some (some (1.0 / 0.0))
  else if t = "nan".toList then some (some (0.0 / 0.0))
  else do
    let (number, exponent) := splitAtFirst (fun c => c == 'e' || c == 'E') t
    let (whole, fraction) := splitAtFirst (· == '.') number
    if exponent.isNone ∧ fraction.isNone then none
    let whole ← readPlainDigits whole
    let fraction ← match fraction with
      | none => pure []
      | some digits => readDigits 10 digits
    let exponent ← match exponent with
      | none => pure 0
      | some e => readExponent e
    return nearestFloat (digitsIn 10 (whole ++ fraction)) (exponent - fraction.length)

def readFloat (t : Text) : Option Scalar := do
  let (negative, rest) := splitSign t
  match ← readUnsignedFloat rest with
  | none => return .noValue
  | some x => return .value (.float (if negative then -x else x))

/-- A number of exactly `count` digits. -/
def readFixed (count : Nat) (t : Text) : Option Nat := do
  if t.length ≠ count then none
  return digitsIn 10 (← t.mapM (digitValue 10))

def isLeapYear (year : Nat) : Bool := year % 4 == 0 && (year % 100 != 0 || year % 400 == 0)

def daysInMonth (year month : Nat) : Nat :=
  if month = 2 then if isLeapYear year then 29 else 28
  else if month ∈ [4, 6, 9, 11] then 30
  else 31

def readDate (t : Text) : Option Date :=
  match Text.pieces (· == '-') t with
  | [y, m, d] => do
    let year ← readFixed 4 y
    let month ← readFixed 2 m
    let day ← readFixed 2 d
    if 1 ≤ month ∧ month ≤ 12 ∧ 1 ≤ day ∧ day ≤ daysInMonth year month then
      return ⟨year, month, day⟩
    else none
  | _ => none

/-- Nanoseconds from the digits of a fraction of a second; digits past the ninth are dropped. -/
def readFractionOfSecond (t : Text) : Option Nat := do
  if t.isEmpty then none
  let digits ← t.mapM (digitValue 10)
  return digitsIn 10 ((digits ++ List.replicate 9 0).take 9)

/-- A time of day: seconds that are left out are zero, and 60 is a leap second. -/
def readTime (t : Text) : Option Time := do
  let (clock, fraction) := splitAtFirst (· == '.') t
  let (h, m, s) ← match Text.pieces (· == ':') clock with
    | [h, m] => if fraction.isSome then none else some (h, m, "00".toList)
    | [h, m, s] => some (h, m, s)
    | _ => none
  let hour ← readFixed 2 h
  let minute ← readFixed 2 m
  let second ← readFixed 2 s
  let nanosecond ← match fraction with
    | none => pure 0
    | some digits => readFractionOfSecond digits
  if hour ≤ 23 ∧ minute ≤ 59 ∧ second ≤ 60 then return ⟨hour, minute, second, nanosecond⟩
  else none

/-- Hours and minutes of an offset are less than a day. -/
def readOffset (negative : Bool) (t : Text) : Option Offset :=
  match Text.pieces (· == ':') t with
  | [h, m] => do
    let hours ← readFixed 2 h
    let minutes ← readFixed 2 m
    if hours ≤ 23 ∧ minutes ≤ 59 then
      let ahead : Int := hours * 60 + minutes
      return .minutes (if negative then -ahead else ahead)
    else none
  | _ => none

/-- A time with the offset that may follow it. -/
def readOffsetTime (t : Text) : Option (Time × Option Offset) :=
  match splitAtFirst (fun c => c == 'Z' || c == 'z') t with
  | (clock, some []) => (readTime clock).map (·, some .utc)
  | (_, some _) => none
  | (_, none) =>
    match splitAtFirst (fun c => c == '+' || c == '-') t with
    | (clock, some offset) => do
      let time ← readTime clock
      return (time, some (← readOffset (t.contains '-') offset))
    | (clock, none) => (readTime clock).map (·, none)

/-- A date and a time are separated by `T`, in either case, or a blank. -/
def isDateSeparator (c : Char) : Bool := c == 'T' || c == 't' || c == ' '

def readMoment (t : Text) : Option Moment :=
  match splitAtFirst isDateSeparator t with
  | (date, some time) => do
    let date ← readDate date
    let (time, offset) ← readOffsetTime time
    return .both date time offset
  | (_, none) => (readDate t).map Moment.date <|> (readTime t).map Moment.time

/-- The value of a token. -/
def readScalar (t : Text) : Option Scalar :=
  if t = "true".toList then some (.value (.boolean true))
  else if t = "false".toList then some (.value (.boolean false))
  else
    readInteger t <|> readFloat t <|> (readMoment t).map fun m => .value (.moment m)

end Chomsky.Toml
