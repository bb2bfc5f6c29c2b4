import Chomsky.Derivation.Basic
import Chomsky.Error
import Chomsky.Grammar.Hierarchy
import Chomsky.Json.Printer
import Chomsky.Report.Sink

/-!
# Reports

A report tells a grammar's rules and place in the hierarchy and, if a target was searched for, the
answer of the search. It is written as plain text in two parts, or as one JSON document.
-/

namespace Chomsky

structure Report where
  grammar : Grammar
  level : Level
  /-- The target and the answer, if there was a search. -/
  search : Option (Word × Derivation)
  deriving DecidableEq, Repr

namespace Report

def line (t : Text) : Text := t ++ ['\n']

/-- The rules and the place in the hierarchy, one line each. -/
def classification (g : Grammar) (l : Level) : List Text :=
  g.display.map line ++
    [line (if l = .regular then "It's type 3".toList else "It's not type 3".toList),
      line ("Grammar type: ".toList ++ l.display)]

/-- A form as text shows it: the empty form as its marker. -/
def shown (form : Word) : Text := if form.isEmpty then emptyMarker else form

def answer (target : Word) : Derivation → List Text
  | .found steps => line "Derivation steps:".toList :: steps.map fun form => line (shown form)
  | .depthExceeded => [line "Max depth reached. Derivation stopped.".toList]
  | .stateLimitReached => [line "State limit reached. Derivation stopped.".toList]
  | .notFound => [line ("No valid derivation found for: ".toList ++ target)]

def ruleJson (r : Rule) : Json :=
  .object [("lhs".toList, .string r.left), ("rhs".toList, .string r.right)]

def searchJson : Option (Word × Derivation) → Json
  | none => .null
  | some (target, d) =>
    .object [("target".toList, .string target), ("outcome".toList, .string d.name),
      ("steps".toList, .strings d.steps)]

/-- The document. -/
def toJson (r : Report) : Json :=
  .object [
    ("terminals".toList, .strings r.grammar.terminals),
    ("non_terminals".toList, .strings r.grammar.nonTerminals),
    ("start".toList, .string r.grammar.start),
    ("rules".toList, .array (r.grammar.rules.map ruleJson)),
    ("grammar_type".toList, .ofNat r.level.number),
    ("type_name".toList, .string r.level.name),
    ("regular".toList, .bool (r.level = .regular)),
    ("derivation".toList, searchJson r.search)]

/-- The document and a newline. -/
def document (r : Report) : Text := r.toJson.render ++ ['\n']

/-- A text that did not fit, with what the sink holds. -/
structure Cut where
  error : Error
  sink : Sink
  deriving DecidableEq, Repr

def writeClassification (g : Grammar) (l : Level) (s : Sink) : Except Cut Sink :=
  (s.putAll (classification g l)).mapError (⟨.io .sinkFull, ·⟩)

def writeAnswer (target : Word) (d : Derivation) (s : Sink) : Except Cut Sink :=
  (s.putAll (answer target d)).mapError (⟨.io .sinkFull, ·⟩)

/-- Writes the document, then the newline; only within the document the fault is one of JSON. -/
def writeJson (r : Report) (s : Sink) : Except Cut Sink := do
  let s ← (s.putAll (r.toJson.pieces 0)).mapError (⟨.json .sinkFull, ·⟩)
  (s.put ['\n']).mapError (⟨.io .sinkFull, ·⟩)

theorem writeJson_of_endless (r : Report) {s : Sink} (endless : s.room = none) :
    ∃ full, r.writeJson s = .ok full ∧ full.written = s.written ++ Text.encode r.document := by
  obtain ⟨value, written, still, whole⟩ := s.putAll_of_endless endless (r.toJson.pieces 0)
  refine ⟨value.take none (Text.encode ['\n']), ?_, ?_⟩
  · rw [writeJson, written]
    change (value.put ['\n']).mapError _ = _
    rw [Sink.put_of_endless still]
    rfl
  · rw [Sink.written_take, whole, document, Json.render, Text.encode_append, List.append_assoc]

end Report

end Chomsky
