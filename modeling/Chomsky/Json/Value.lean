import Chomsky.Text.Basic

/-!
# JSON values

Objects keep the order of their members. A number is a decimal: `number m e` is m · 10^e.
-/

namespace Chomsky

inductive Json where
  | null
  | bool (b : Bool)
  | number (mantissa exponent : Int)
  | string (t : Text)
  | array (items : List Json)
  | object (members : List (Text × Json))
  deriving Repr

namespace Json

def ofNat (n : Nat) : Json := number n 0

def strings (ts : List Text) : Json := array (ts.map string)

end Json

end Chomsky
