import Chomsky.Error

/-!
# Declarations

A declaration is a grammar as it is written down: lists of symbols, a start symbol and rule lines.
`Declaration.toGrammar` reads the rules first, so that a line that is no rule is reported before
anything about the symbols.
-/

namespace Chomsky

structure Declaration where
  /-- Each entry holds any number of symbols, separated by blanks. -/
  terminals : List Text
  nonTerminals : List Text
  start : Text
  rules : List Text
  deriving DecidableEq, Repr

namespace Declaration

/-- Adds the rules of the lines, which are numbered from `position`. -/
def readRules (position : Nat) (ps : Productions) : List Text → Except Error Productions
  | [] => .ok ps
  | line :: rest =>
    match Production.read line with
    | .error cause => .error (.parse (some position) cause)
    | .ok p => readRules (position + 1) (ps.add p) rest

/-- Lines of which each is a rule are read together as they are read one by one. -/
theorem readRules_of_map_eq {lines : List Text} {qs : List Production}
    (read : lines.map Production.read = qs.map .ok) (position : Nat) (ps : Productions) :
    readRules position ps lines = .ok (qs.foldl .add ps) := by
  induction lines generalizing qs position ps with
  | nil =>
    obtain rfl := List.map_eq_nil_iff.1 read.symm
    rfl
  | cons line rest ih =>
    cases qs with
    | nil => cases read
    | cons q qs =>
      obtain ⟨first, others⟩ := List.cons.inj read
      rw [readRules, first]
      exact ih others (position + 1) _

/-- Each line is a rule, or some line is the first that is none. -/
theorem exists_map_read_or_first (lines : List Text) :
    (∃ qs : List Production, lines.map Production.read = qs.map .ok) ∨
      ∃ front line back cause, lines = front ++ line :: back ∧
        (∀ l ∈ front, ∃ p, Production.read l = .ok p) ∧ Production.read line = .error cause := by
  induction lines with
  | nil => exact .inl ⟨[], rfl⟩
  | cons line rest ih =>
    cases read : Production.read line with
    | error cause => exact .inr ⟨[], line, rest, cause, rfl, List.forall_mem_nil _, read⟩
    | ok p =>
      rcases ih with ⟨qs, others⟩ | ⟨front, first, back, cause, rfl, fine, refused⟩
      · refine .inl ⟨p :: qs, ?_⟩
        rw [List.map_cons, read, others, List.map_cons]
      · exact .inr ⟨line :: front, first, back, cause, rfl,
          List.forall_mem_cons.2 ⟨⟨p, read⟩, fine⟩, refused⟩

/-- The first line that is no rule ends the reading; it is named by its number. -/
theorem readRules_of_first {front back : List Text} {line : Text} {cause : Production.Unreadable}
    (fine : ∀ l ∈ front, ∃ p, Production.read l = .ok p)
    (refused : Production.read line = .error cause) (position : Nat) (ps : Productions) :
    readRules position ps (front ++ line :: back) =
      .error (.parse (some (position + front.length)) cause) := by
  induction front generalizing position ps with
  | nil =>
    rw [List.nil_append, readRules, refused]
    rfl
  | cons l front ih =>
    obtain ⟨⟨p, read⟩, others⟩ := List.forall_mem_cons.1 fine
    rw [List.cons_append, readRules, read]
    refine (ih others (position + 1) (ps.add p)).trans ?_
    rw [List.length_cons, Nat.add_assoc, Nat.add_comm 1]

def toGrammar (d : Declaration) : Except Error Grammar :=
  match readRules 1 .empty d.rules with
  | .error e => .error e
  | .ok productions =>
    (Grammar.build (d.terminals.flatMap readSymbols) (d.nonTerminals.flatMap readSymbols) d.start
      productions).mapError .invalidGrammar

theorem toGrammar_of_map_eq {d : Declaration} {qs : List Production}
    (read : d.rules.map Production.read = qs.map .ok) :
    d.toGrammar =
      (Grammar.build (d.terminals.flatMap readSymbols) (d.nonTerminals.flatMap readSymbols) d.start
        (.ofList qs)).mapError .invalidGrammar := by
  rw [toGrammar, readRules_of_map_eq read]
  rfl

/-- A declaration is accepted when all its lines are rules and its parts pass the checks. -/
theorem toGrammar_eq_ok_iff {d : Declaration} {g : Grammar} :
    d.toGrammar = .ok g ↔
      ∃ qs : List Production, d.rules.map Production.read = qs.map .ok ∧
        Grammar.build (d.terminals.flatMap readSymbols) (d.nonTerminals.flatMap readSymbols) d.start
          (.ofList qs) = .ok g := by
  have accepted_iff : ∀ built : Except Grammar.Defect Grammar,
      built.mapError Error.invalidGrammar = .ok g ↔ built = .ok g := by
    intro built
    cases built with
    | error defect => exact ⟨nofun, nofun⟩
    | ok made =>
      change (Except.ok made : Except Error Grammar) = .ok g ↔ _
      rw [Except.ok.injEq, Except.ok.injEq]
  constructor
  · intro accepted
    rcases exists_map_read_or_first d.rules with ⟨qs, read⟩ | ⟨_, _, _, _, cut, fine, refused⟩
    · rw [toGrammar_of_map_eq read, accepted_iff] at accepted
      exact ⟨qs, read, accepted⟩
    · rw [toGrammar, cut, readRules_of_first fine refused] at accepted
      cases accepted
  · rintro ⟨qs, read, built⟩
    rw [toGrammar_of_map_eq read, accepted_iff, built]

end Declaration

end Chomsky
