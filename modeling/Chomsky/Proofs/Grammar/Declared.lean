import Chomsky.Declaration.Basic
import Chomsky.Proofs.Grammar.Gathering

/-!
# What a declaration is read as

`Declaration.Declares` says which grammar a declaration means, and `Declaration.FirstError` why it
means none: a line that is no rule comes before everything about the symbols, and of the checks on
the symbols the first one that fails counts (`Grammar.FirstDefect`). Main statement:
`Declaration.toGrammar_eq_iff`.
-/

namespace Chomsky

/-! ## Checks on symbols -/

namespace Grammar

/-- What the symbols of a declaration have to satisfy. -/
structure IsConsistent (terminals nonTerminals : List Word) (start : Word) : Prop where
  filled : nonTerminals ≠ []
  unmarked : emptyMarker ∉ terminals ∧ emptyMarker ∉ nonTerminals
  disjoint : ∀ t ∈ terminals, t ∉ nonTerminals
  known : Text.trim start ∈ nonTerminals

/-- The first check that the symbols of a declaration fail. -/
inductive FirstDefect (terminals nonTerminals : List Word) (start : Word) : Defect → Prop
  | noNonTerminals (empty : nonTerminals = []) :
    FirstDefect terminals nonTerminals start .noNonTerminals
  | markerDeclared (filled : nonTerminals ≠ [])
      (declared : emptyMarker ∈ terminals ∨ emptyMarker ∈ nonTerminals) :
    FirstDefect terminals nonTerminals start .markerDeclared
  /-- The first terminal that is a non-terminal as well is named. -/
  | sharedSymbol {front back : List Word} {symbol : Word} (filled : nonTerminals ≠ [])
      (unmarked : emptyMarker ∉ terminals ∧ emptyMarker ∉ nonTerminals)
      (cut : terminals = front ++ symbol :: back) (apart : ∀ t ∈ front, t ∉ nonTerminals)
      (shared : symbol ∈ nonTerminals) :
    FirstDefect terminals nonTerminals start (.sharedSymbol symbol)
  | unknownStart (filled : nonTerminals ≠ [])
      (unmarked : emptyMarker ∉ terminals ∧ emptyMarker ∉ nonTerminals)
      (disjoint : ∀ t ∈ terminals, t ∉ nonTerminals) (unknown : Text.trim start ∉ nonTerminals) :
    FirstDefect terminals nonTerminals start (.unknownStart (Text.trim start))

variable {terminals nonTerminals : List Word} {start : Word} {productions : Productions}
  {defect : Defect} {g : Grammar}

theorem isConsistent_or_firstDefect (terminals nonTerminals : List Word) (start : Word) :
    IsConsistent terminals nonTerminals start ∨
      ∃ defect, FirstDefect terminals nonTerminals start defect := by
  by_cases filled : nonTerminals = []
  · exact .inr ⟨_, .noNonTerminals filled⟩
  by_cases marked : emptyMarker ∈ terminals ∨ emptyMarker ∈ nonTerminals
  · exact .inr ⟨_, .markerDeclared filled marked⟩
  have unmarked := not_or.1 marked
  cases found : terminals.find? (· ∈ nonTerminals) with
  | some symbol =>
    obtain ⟨shared, front, back, cut, apart⟩ := List.find?_eq_some_iff_append.1 found
    exact .inr ⟨_, .sharedSymbol filled unmarked cut (by simpa using apart) (by simpa using shared)⟩
  | none =>
    have disjoint : ∀ t ∈ terminals, t ∉ nonTerminals := by simpa using found
    by_cases known : Text.trim start ∈ nonTerminals
    · exact .inl ⟨filled, unmarked, disjoint, known⟩
    · exact .inr ⟨_, .unknownStart filled unmarked disjoint known⟩

theorem exists_build_eq_ok_iff :
    (∃ g, build terminals nonTerminals start productions = .ok g) ↔
      IsConsistent terminals nonTerminals start := by
  constructor
  · rintro ⟨g, built⟩
    obtain ⟨terminals_eq, nonTerminals_eq, start_eq, _⟩ := build_eq_ok_iff.1 built
    have marker := g.marker_not_mem
    have disjoint := g.disjoint
    have start_mem := g.start_mem
    simp only [terminals_eq, nonTerminals_eq, start_eq, mem_distinct] at marker disjoint start_mem
    exact ⟨List.ne_nil_of_mem start_mem, marker, disjoint, start_mem⟩
  · intro consistent
    let g : Grammar := {
      terminals := distinct terminals
      nonTerminals := distinct nonTerminals
      start := Text.trim start
      productions
      terminals_nodup := nodup_distinct terminals
      nonTerminals_nodup := nodup_distinct nonTerminals
      marker_not_mem := by simpa only [mem_distinct] using consistent.unmarked
      disjoint := by simpa only [mem_distinct] using consistent.disjoint
      start_mem := mem_distinct.2 consistent.known }
    exact ⟨g, build_eq_ok_iff.2 ⟨rfl, rfl, rfl, rfl⟩⟩

theorem FirstDefect.build_eq (first : FirstDefect terminals nonTerminals start defect) :
    build terminals nonTerminals start productions = .error defect := by
  have empty_iff : distinct nonTerminals = [] ↔ nonTerminals = [] := by
    simp only [List.eq_nil_iff_forall_not_mem, mem_distinct]
  have found : (distinct terminals).find? (· ∈ distinct nonTerminals) =
      terminals.find? (· ∈ nonTerminals) := by
    simp only [find?_distinct, mem_distinct]
  dsimp only [build]
  cases first with
  | noNonTerminals empty => rw [if_pos (empty_iff.2 empty)]
  | markerDeclared filled declared =>
    rw [if_neg (mt empty_iff.1 filled), dif_pos (by simpa only [mem_distinct] using declared)]
  | sharedSymbol filled unmarked cut apart shared =>
    have first : terminals.find? (· ∈ nonTerminals) = some _ :=
      List.find?_eq_some_iff_append.2 ⟨by simpa using shared, _, _, cut, by simpa using apart⟩
    rw [if_neg (mt empty_iff.1 filled),
      dif_neg (by simpa only [mem_distinct, not_or] using unmarked)]
    split
    · next symbol same =>
      rw [found, first] at same
      obtain rfl := Option.some.inj same
      rfl
    · next none =>
      rw [found, first] at none
      cases none
  | unknownStart filled unmarked disjoint unknown =>
    have none : terminals.find? (· ∈ nonTerminals) = none := by simpa using disjoint
    rw [if_neg (mt empty_iff.1 filled),
      dif_neg (by simpa only [mem_distinct, not_or] using unmarked)]
    split
    · next symbol same =>
      rw [found, none] at same
      cases same
    · rw [dif_neg (mt mem_distinct.1 unknown)]

end Grammar

/-! ## Declarations -/

namespace Declaration

/-- The grammar that a declaration means: its symbols are the words of the entries, and its
productions gather the rules on the lines. -/
structure Declares (d : Declaration) (g : Grammar) : Prop where
  terminals : KeepsFirsts (d.terminals.flatMap Text.words) g.terminals
  nonTerminals : KeepsFirsts (d.nonTerminals.flatMap Text.words) g.nonTerminals
  start : g.start = Text.trim d.start
  productions : ∃ qs, d.rules.map Production.read = qs.map .ok ∧ Gathers qs g.productions.entries

/-- Why a declaration is refused: for the first line that is no rule, whatever its symbols are, or
else for the first check that these fail. -/
inductive FirstError (d : Declaration) : Error → Prop
  | rule {front back : List Text} {line : Text} {cause : Production.Unreadable}
      (cut : d.rules = front ++ line :: back)
      (fine : ∀ l ∈ front, ∃ p, Production.read l = .ok p)
      (refused : Production.read line = .error cause) :
    FirstError d (.parse (some (front.length + 1)) cause)
  | symbols {defect : Grammar.Defect} (fine : ∀ l ∈ d.rules, ∃ p, Production.read l = .ok p)
      (first : Grammar.FirstDefect (d.terminals.flatMap Text.words)
        (d.nonTerminals.flatMap Text.words) d.start defect) :
    FirstError d (.invalidGrammar defect)

variable {d : Declaration} {g : Grammar} {e : Error} {lines : List Text}

theorem exists_map_read_iff :
    (∃ qs : List Production, lines.map Production.read = qs.map .ok) ↔
      ∀ line ∈ lines, ∃ p, Production.read line = .ok p := by
  constructor
  · rintro ⟨qs, read⟩ line member
    have inside : Production.read line ∈ lines.map Production.read := List.mem_map_of_mem member
    rw [read] at inside
    obtain ⟨p, _, same⟩ := List.mem_map.1 inside
    exact ⟨p, same.symm⟩
  · intro fine
    rcases exists_map_read_or_first lines with read | ⟨front, line, back, cause, rfl, _, refused⟩
    · exact read
    · obtain ⟨p, read⟩ := fine line (by simp)
      rw [refused] at read
      cases read

theorem exists_toGrammar_eq_ok_iff :
    (∃ g, d.toGrammar = .ok g) ↔
      (∀ line ∈ d.rules, ∃ p, Production.read line = .ok p) ∧
        Grammar.IsConsistent (d.terminals.flatMap Text.words) (d.nonTerminals.flatMap Text.words)
          d.start := by
  rw [← exists_map_read_iff]
  simp only [toGrammar_eq_ok_iff]
  constructor
  · rintro ⟨g, qs, read, built⟩
    exact ⟨⟨qs, read⟩, Grammar.exists_build_eq_ok_iff.1 ⟨g, built⟩⟩
  · rintro ⟨⟨qs, read⟩, consistent⟩
    obtain ⟨g, built⟩ := Grammar.exists_build_eq_ok_iff.2 consistent
    exact ⟨g, qs, read, built⟩

theorem toGrammar_eq_ok_iff_declares : d.toGrammar = .ok g ↔ d.Declares g := by
  rw [toGrammar_eq_ok_iff]
  constructor
  · rintro ⟨qs, read, built⟩
    obtain ⟨terminals, nonTerminals, start, productions⟩ := Grammar.build_eq_ok_iff.1 built
    exact {
      terminals := terminals ▸ Grammar.keepsFirsts_distinct _
      nonTerminals := nonTerminals ▸ Grammar.keepsFirsts_distinct _
      start
      productions := ⟨qs, read, Productions.eq_ofList_iff.1 productions⟩ }
  · rintro ⟨terminals, nonTerminals, start, qs, read, gathers⟩
    refine ⟨qs, read, Grammar.build_eq_ok_iff.2 ⟨?_, ?_, start, ?_⟩⟩
    · exact terminals.unique (Grammar.keepsFirsts_distinct _)
    · exact nonTerminals.unique (Grammar.keepsFirsts_distinct _)
    · exact Productions.eq_ofList_iff.2 gathers

theorem FirstError.toGrammar_eq (first : d.FirstError e) : d.toGrammar = .error e := by
  cases first with
  | rule cut fine refused =>
    rw [toGrammar, cut, readRules_of_first fine refused, Nat.add_comm]
  | symbols fine first =>
    obtain ⟨qs, read⟩ := exists_map_read_iff.2 fine
    rw [toGrammar_of_map_eq read]
    exact congrArg (Except.mapError _) first.build_eq

theorem exists_firstError (refused : ∀ g, d.toGrammar ≠ .ok g) : ∃ e, d.FirstError e := by
  rcases exists_map_read_or_first d.rules with
    ⟨qs, read⟩ | ⟨front, line, back, cause, cut, fine, unread⟩
  · have fine := exists_map_read_iff.1 ⟨qs, read⟩
    rcases Grammar.isConsistent_or_firstDefect (d.terminals.flatMap Text.words)
        (d.nonTerminals.flatMap Text.words) d.start with consistent | ⟨defect, first⟩
    · obtain ⟨g, accepted⟩ := exists_toGrammar_eq_ok_iff.2 ⟨fine, consistent⟩
      exact absurd accepted (refused g)
    · exact ⟨_, .symbols fine first⟩
  · exact ⟨_, .rule cut fine unread⟩

theorem toGrammar_eq_error_iff : d.toGrammar = .error e ↔ d.FirstError e := by
  constructor
  · intro refused
    obtain ⟨first, reason⟩ := exists_firstError (d := d) fun g accepted => by
      rw [refused] at accepted
      cases accepted
    have same := reason.toGrammar_eq
    rw [refused] at same
    obtain rfl := Except.error.inj same
    exact reason
  · exact FirstError.toGrammar_eq

/-- A declaration is accepted when all lines are rules and the symbols are consistent, as the
grammar that it means, and is otherwise refused for its first error. The message for a line is the
one that it has by itself, with the number of the line in front. -/
theorem toGrammar_eq_iff (d : Declaration) :
    ((∃ g, d.toGrammar = .ok g) ↔
        (∀ line ∈ d.rules, ∃ p, Production.read line = .ok p) ∧
          Grammar.IsConsistent (d.terminals.flatMap Text.words)
            (d.nonTerminals.flatMap Text.words) d.start) ∧
      (∀ g, d.toGrammar = .ok g ↔ d.Declares g) ∧
      (∀ e, d.toGrammar = .error e ↔ d.FirstError e) ∧
      ∀ n cause, (Error.parse none cause).message = "Parse error: ".toList ++ cause.message ∧
        (Error.parse (some n) cause).message =
          "Parse error: rule ".toList ++ Text.ofNat n ++ ": ".toList ++ cause.message :=
  ⟨exists_toGrammar_eq_ok_iff, fun _ => toGrammar_eq_ok_iff_declares,
    fun _ => toGrammar_eq_error_iff,
    fun n cause => ⟨Error.message_parse_none cause, Error.message_parse_some n cause⟩⟩

end Declaration

end Chomsky
