import Chomsky.Declaration.Basic
import Chomsky.Text.Bytes
import Chomsky.Toml.Reader

/-!
# Declaration files

A grammar can be declared in a TOML document with the keys `terminals`, `non_terminals`, `start` and,
if there are rules, `rules`. A document with any other key is refused.
-/

namespace Chomsky.Declaration

def terminalsKey : Text := "terminals".toList
def nonTerminalsKey : Text := "non_terminals".toList
def startKey : Text := "start".toList
def rulesKey : Text := "rules".toList

/-- The keys that a document may have. -/
def keys : List Text := [terminalsKey, nonTerminalsKey, startKey, rulesKey]

/-- The texts of an array of strings. -/
def texts? (v : Toml.Value) : Option (List Text) := do
  (← v.array?).mapM Toml.Value.string?

def ofToml? (root : Toml.Value) : Option Declaration := do
  let .table entries := root | none
  if !entries.all fun e => keys.contains e.1 then none
  let terminals ← texts? (← root.get? terminalsKey)
  let nonTerminals ← texts? (← root.get? nonTerminalsKey)
  let start ← (← root.get? startKey).string?
  let rules ← match root.get? rulesKey with
    | none => some []
    | some v => texts? v
  return ⟨terminals, nonTerminals, start, rules⟩

/-- The declaration of a document. -/
def read (document : Text) : Except Error Declaration :=
  match (Toml.read document).bind ofToml? with
  | none => .error .toml
  | some d => .ok d

/-- The declaration of a file, given what reading the file gave. -/
def load (path : Text) (content : Except Fault Bytes) : Except Error Declaration :=
  match content with
  | .error fault => .error (.grammarFile path fault)
  | .ok bytes =>
    match Text.decode bytes with
    | none => .error (.grammarFile path .notUtf8)
    | some document => read document

end Chomsky.Declaration
