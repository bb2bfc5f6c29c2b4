/-!
# Shortest decimals

A binary float is m · 2^q and stands for all reals that round to it. Its shortest decimal is the one
with the fewest digits among those reals and, of those, the nearest; of two at the same distance it
is the larger. All arithmetic is exact, on natural numbers.
-/

namespace Chomsky.Decimal

/-- A positive finite float: `mantissa` · 2^`exponent`. -/
structure Binary where
  mantissa : Nat
  exponent : Int
  /-- The next smaller float is at half the usual distance. -/
  narrow : Bool
  deriving DecidableEq, Repr

/-- The magnitude of a finite float of 64 bits, or `none` for an infinity or a NaN. -/
def Binary.ofBits (bits : UInt64) : Option Binary :=
  let fraction : Nat := (bits &&& 0xFFFFFFFFFFFFF).toNat
  let exponent : Nat := (bits >>> 52 &&& 0x7FF).toNat
  if exponent = 2047 then none
  else if exponent = 0 then some ⟨fraction, -1074, false⟩
  else some ⟨0x10000000000000 + fraction, (exponent : Int) - 1075, fraction == 0 && exponent != 1⟩

/-- A decimal: `digits` · 10^`exponent`. -/
structure Scaled where
  digits : Nat
  exponent : Int
  deriving DecidableEq, Repr

/-- The reals that round to a float, as numerators over a common denominator. -/
structure Interval where
  low : Nat
  value : Nat
  high : Nat
  denominator : Nat
  /-- The ends round to the float too. -/
  closed : Bool
  deriving DecidableEq, Repr

def Binary.interval (b : Binary) : Interval :=
  let unit := Nat.pow 2 b.exponent.toNat
  let value := 4 * b.mantissa * unit
  { low := value - (if b.narrow then unit else 2 * unit)
    value
    high := value + 2 * unit
    denominator := 4 * Nat.pow 2 (-b.exponent).toNat
    closed := b.mantissa % 2 == 0 }

/-- The decimal lies in the interval. -/
def Interval.contains (i : Interval) (d : Scaled) : Bool :=
  let point := d.digits * Nat.pow 10 d.exponent.toNat * i.denominator
  let low := i.low * Nat.pow 10 (-d.exponent).toNat
  let high := i.high * Nat.pow 10 (-d.exponent).toNat
  if i.closed then low ≤ point && point ≤ high else low < point && point < high

/-- The exponent e with 10^e ≤ value < 10^(e+1). -/
def Interval.magnitude (i : Interval) : Int :=
  if i.denominator ≤ i.value then (Nat.toDigits 10 (i.value / i.denominator)).length - 1
  else
    let k := (Nat.toDigits 10 (i.denominator / i.value)).length
    if i.denominator ≤ i.value * Nat.pow 10 (k - 1) then 1 - (k : Int) else -k

/-- The decimal with `count` digits after one with these digits: past 99…9 the exponent goes up. -/
def Scaled.next (count : Nat) (d : Scaled) : Scaled :=
  if d.digits + 1 = Nat.pow 10 count then ⟨Nat.pow 10 (count - 1), d.exponent + 1⟩
  else ⟨d.digits + 1, d.exponent⟩

/-- The two neighbours of a value of this magnitude among the decimals with `count` digits, nearer
one first; halfway between them, the larger one. -/
def Interval.neighbours (i : Interval) (magnitude : Int) (count : Nat) : List Scaled :=
  let exponent := magnitude - count + 1
  let value := i.value * Nat.pow 10 (-exponent).toNat
  let step := i.denominator * Nat.pow 10 exponent.toNat
  let below : Scaled := ⟨value / step, exponent⟩
  if 2 * (value % step) < step then [below, below.next count] else [below.next count, below]

/-- The shortest decimal of a float; 17 digits always suffice. -/
def shortest (b : Binary) : Scaled :=
  let i := b.interval
  let magnitude := i.magnitude
  let nearest := (List.range 17).findSome? fun n =>
    (i.neighbours magnitude (n + 1)).find? i.contains
  nearest.getD ⟨0, 0⟩

/-- The digits of a decimal without an exponent, with at least one digit after the point. -/
def Scaled.positional (d : Scaled) : List Char :=
  let digits := Nat.toDigits 10 d.digits
  if 0 ≤ d.exponent then digits ++ List.replicate d.exponent.toNat '0' ++ ['.', '0']
  else
    let places := (-d.exponent).toNat
    let digits := List.replicate (places + 1 - digits.length) '0' ++ digits
    digits.take (digits.length - places) ++ '.' :: digits.drop (digits.length - places)

end Chomsky.Decimal
