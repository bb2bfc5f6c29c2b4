import Chomsky.Text.Basic

/-!
# TOML values
-/

namespace Chomsky.Toml

structure Date where
  year : Nat
  month : Nat
  day : Nat
  deriving DecidableEq, Repr

structure Time where
  hour : Nat
  minute : Nat
  second : Nat
  nanosecond : Nat
  deriving DecidableEq, Repr

inductive Offset where
  | utc
  /-- Minutes ahead of UTC. -/
  | minutes (ahead : Int)
  deriving DecidableEq, Repr

/-- A date, a time or both; only both together may have an offset. -/
inductive Moment where
  | date (d : Date)
  | time (t : Time)
  | both (d : Date) (t : Time) (offset : Option Offset)
  deriving DecidableEq, Repr

inductive Value where
  | string (t : Text)
  | integer (n : Int)
  | float (x : Float)
  | boolean (b : Bool)
  | moment (m : Moment)
  | array (items : List Value)
  | table (entries : List (Text × Value))
  deriving Repr

namespace Value

/-- The entry of a table; other values have none. -/
def get? (v : Value) (key : Text) : Option Value :=
  match v with
  | table entries => (entries.find? fun e => e.1 == key).map Prod.snd
  | _ => none

def string? : Value → Option Text
  | string t => some t
  | _ => none

def integer? : Value → Option Int
  | integer n => some n
  | _ => none

def array? : Value → Option (List Value)
  | array items => some items
  | _ => none

end Value

end Chomsky.Toml
