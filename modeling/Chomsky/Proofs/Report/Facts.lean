import Chomsky.Proofs.Json.RoundTrip
import Chomsky.Report.Basic

/-!
# Reports read back

`Report.Facts` is what a report tells: the symbols, the rules, the level and what a search gave.
`Facts.ofJson?` finds them in a JSON value by the names of its members, and takes only a document
whose parts agree with each other. Main statement: the bytes of a document give back the facts of
its report, so that reports have the same bytes exactly when they tell the same
(`Report.ofBytes?_of_writeJson`).
-/

namespace Chomsky

/-! ## Members and items -/

namespace Json

/-- The value of the first member with the key. -/
def member? (key : Text) : Json → Option Json
  | object members => (members.find? fun m => m.1 = key).map Prod.snd
  | _ => none

def text? : Json → Option Text
  | string t => some t
  | _ => none

def boolean? : Json → Option Bool
  | bool b => some b
  | _ => none

def natural? : Json → Option Nat
  | number (.ofNat n) 0 => some n
  | _ => none

/-- The items of an array, if each of them can be read. -/
def items? {α : Type} (read : Json → Option α) : Json → Option (List α)
  | array items => items.mapM read
  | _ => none

theorem items?_array {α : Type} {read : Json → Option α} (write : α → Json)
    (readsBack : ∀ a, read (write a) = some a) (as : List α) :
    items? read (array (as.map write)) = some as := by
  have each : ∀ a ∈ as, (read ∘ write) a = some (id a) := fun a _ => readsBack a
  rw [items?, List.mapM_map, mapM_eq_some_map each, List.map_id]

theorem items?_strings (ts : List Text) : items? text? (strings ts) = some ts :=
  items?_array string (fun _ => rfl) ts

/-- What is read from the member with the key. -/
def field? {α : Type} (key : Text) (read : Json → Option α) (j : Json) : Option α :=
  (j.member? key).bind read

theorem field?_eq {α : Type} {key : Text} {read : Json → Option α} {j value : Json} {a : α}
    (member : j.member? key = some value) (content : read value = some a) :
    j.field? key read = some a := by
  rw [field?, member, Option.bind_some, content]

end Json

/-! ## Parts of a document -/

/-- The answer with this name and these steps; only a derivation that was found has steps. -/
def Derivation.ofParts? (name : Text) (steps : List Word) : Option Derivation :=
  [found steps, depthExceeded, stateLimitReached, notFound].find? fun d =>
    d.name = name ∧ d.steps = steps

theorem Derivation.ofParts?_name_steps (d : Derivation) : ofParts? d.name d.steps = some d := by
  cases d with
  | found steps =>
    have same : (found steps).steps = steps := rfl
    exact List.find?_cons_of_pos (by simp [same])
  | depthExceeded => rfl
  | stateLimitReached => rfl
  | notFound => rfl

/-- The level with this number, if its name and whether it is regular are told rightly. -/
def Level.ofParts? (number : Nat) (name : Text) (regular : Bool) : Option Level :=
  (ofNumber? number).filter fun l => l.name = name ∧ decide (l = .regular) = regular

theorem Level.ofParts?_self (l : Level) : ofParts? l.number l.name (l = .regular) = some l := by
  simp [ofParts?, ofNumber?_number]

namespace Report

/-- What a report tells. Of the productions it tells the rules, so that a left-hand side without
alternatives does not show. -/
structure Facts where
  terminals : List Word
  nonTerminals : List Word
  start : Word
  rules : List Rule
  level : Level
  /-- The target and the answer, if there was a search. -/
  search : Option (Word × Derivation)
  deriving DecidableEq, Repr

def facts (r : Report) : Facts where
  terminals := r.grammar.terminals
  nonTerminals := r.grammar.nonTerminals
  start := r.grammar.start
  rules := r.grammar.rules
  level := r.level
  search := r.search

namespace Facts

def ruleOfJson? (j : Json) : Option Rule := do
  let left ← j.field? "lhs".toList Json.text?
  let right ← j.field? "rhs".toList Json.text?
  return ⟨left, right⟩

def levelOfJson? (j : Json) : Option Level := do
  let number ← j.field? "grammar_type".toList Json.natural?
  let name ← j.field? "type_name".toList Json.text?
  let regular ← j.field? "regular".toList Json.boolean?
  Level.ofParts? number name regular

/-- What a search gave; `null` stands for no search. -/
def searchOfJson? : Json → Option (Option (Word × Derivation))
  | .null => some none
  | j => do
    let target ← j.field? "target".toList Json.text?
    let outcome ← j.field? "outcome".toList Json.text?
    let steps ← j.field? "steps".toList (Json.items? Json.text?)
    let d ← Derivation.ofParts? outcome steps
    return some (target, d)

def ofJson? (j : Json) : Option Facts := do
  let terminals ← j.field? "terminals".toList (Json.items? Json.text?)
  let nonTerminals ← j.field? "non_terminals".toList (Json.items? Json.text?)
  let start ← j.field? "start".toList Json.text?
  let rules ← j.field? "rules".toList (Json.items? ruleOfJson?)
  let level ← levelOfJson? j
  let search ← j.field? "derivation".toList searchOfJson?
  return { terminals, nonTerminals, start, rules, level, search }

/-- The facts in the bytes of a JSON text. -/
def ofBytes? (bs : Bytes) : Option Facts := do
  ofJson? (← Json.read (← Text.decode bs))

end Facts

/-! ## Documents -/

theorem ruleOfJson?_ruleJson (rule : Rule) : Facts.ruleOfJson? (ruleJson rule) = some rule := rfl

theorem searchOfJson?_searchJson (search : Option (Word × Derivation)) :
    Facts.searchOfJson? (searchJson search) = some search := by
  cases search with
  | none => rfl
  | some found =>
    obtain ⟨target, d⟩ := found
    have steps : (searchJson (some (target, d))).field? "steps".toList (Json.items? Json.text?) =
        some d.steps :=
      Json.field?_eq rfl (Json.items?_strings d.steps)
    -- The target and the name of the answer stand in the document as they are.
    refine Option.bind_eq_some_iff.2 ⟨d.steps, steps, ?_⟩
    exact Option.bind_eq_some_iff.2 ⟨d, d.ofParts?_name_steps, rfl⟩

theorem levelOfJson?_toJson (r : Report) : Facts.levelOfJson? r.toJson = some r.level :=
  r.level.ofParts?_self

theorem ofJson?_toJson (r : Report) : Facts.ofJson? r.toJson = some r.facts := by
  have terminals : r.toJson.field? "terminals".toList (Json.items? Json.text?) =
      some r.grammar.terminals :=
    Json.field?_eq rfl (Json.items?_strings _)
  have nonTerminals : r.toJson.field? "non_terminals".toList (Json.items? Json.text?) =
      some r.grammar.nonTerminals :=
    Json.field?_eq rfl (Json.items?_strings _)
  have rules : r.toJson.field? "rules".toList (Json.items? Facts.ruleOfJson?) =
      some r.grammar.rules :=
    Json.field?_eq rfl (Json.items?_array ruleJson ruleOfJson?_ruleJson _)
  have search : r.toJson.field? "derivation".toList Facts.searchOfJson? = some r.search :=
    Json.field?_eq rfl (searchOfJson?_searchJson _)
  refine Option.bind_eq_some_iff.2 ⟨_, terminals, ?_⟩
  refine Option.bind_eq_some_iff.2 ⟨_, nonTerminals, ?_⟩
  refine Option.bind_eq_some_iff.2 ⟨r.grammar.start, rfl, ?_⟩
  refine Option.bind_eq_some_iff.2 ⟨_, rules, ?_⟩
  refine Option.bind_eq_some_iff.2 ⟨_, levelOfJson?_toJson r, ?_⟩
  exact Option.bind_eq_some_iff.2 ⟨_, search, rfl⟩

theorem read_document (r : Report) : Json.read r.document = some r.toJson :=
  r.toJson.read_render_append (List.forall_mem_singleton.2 rfl)

theorem ofBytes?_encode_document (r : Report) :
    Facts.ofBytes? (Text.encode r.document) = some r.facts := by
  simp [Facts.ofBytes?, Text.decode_encode, read_document, ofJson?_toJson]

/-- The document is made of the facts alone. -/
theorem document_congr {r other : Report} (same : r.facts = other.facts) :
    r.document = other.document := by
  obtain ⟨terminals, nonTerminals, start, rules, level, search⟩ := Facts.mk.inj same
  simp only [document, toJson, terminals, nonTerminals, start, rules, level, search]

/-- A report is written whole, and the bytes of its document give back what it tells. Two reports
have the same bytes exactly when they tell the same. -/
theorem ofBytes?_of_writeJson (r : Report) :
    ∃ full, r.writeJson .unlimited = .ok full ∧ Facts.ofBytes? full.written = some r.facts ∧
      ∀ other otherFull, writeJson other .unlimited = .ok otherFull →
        (full.written = otherFull.written ↔ r.facts = other.facts) := by
  have bytes : ∀ report : Report, ∃ full, report.writeJson .unlimited = .ok full ∧
      full.written = Text.encode report.document := fun report =>
    report.writeJson_of_endless rfl
  obtain ⟨full, written, whole⟩ := bytes r
  refine ⟨full, written, by rw [whole, ofBytes?_encode_document], ?_⟩
  intro other otherFull otherWritten
  obtain ⟨_, again, otherWhole⟩ := bytes other
  obtain rfl := Except.ok.inj (otherWritten.symm.trans again)
  rw [whole, otherWhole]
  constructor
  · intro same
    have read := ofBytes?_encode_document r
    rw [same, ofBytes?_encode_document other] at read
    exact (Option.some.inj read).symm
  · intro same
    rw [document_congr same]

end Report

end Chomsky
