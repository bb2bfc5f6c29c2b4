import Chomsky.Grammar.Production
import Chomsky.Text.Blank

/-!
# Grammars

A grammar is the quadruple of terminal symbols, non-terminal symbols, start symbol and productions.
Symbols keep the order of their declaration. `Grammar.build` is the only way to make one from a
declaration; the four conditions it checks are fields of the type.
-/

namespace Chomsky

structure Grammar where
  terminals : List Word
  nonTerminals : List Word
  start : Word
  productions : Productions
  terminals_nodup : terminals.Nodup
  nonTerminals_nodup : nonTerminals.Nodup
  marker_not_mem : emptyMarker ∉ terminals ∧ emptyMarker ∉ nonTerminals
  disjoint : ∀ t ∈ terminals, t ∉ nonTerminals
  start_mem : start ∈ nonTerminals
  deriving DecidableEq, Repr

namespace Grammar

/-- Why a declaration is no grammar. -/
inductive Defect where
  | noNonTerminals
  | markerDeclared
  | sharedSymbol (symbol : Word)
  | unknownStart (symbol : Word)
  deriving DecidableEq, Repr

def Defect.message : Defect → Text
  | noNonTerminals => "no non-terminal symbols declared".toList
  | markerDeclared =>
    "'".toList ++ emptyMarker ++
      "' is reserved for the empty string and cannot be declared as a symbol".toList
  | sharedSymbol s =>
    "symbol '".toList ++ s ++ "' is declared both terminal and non-terminal".toList
  | unknownStart s => "start symbol '".toList ++ s ++ "' is not one of the non-terminals".toList

/-- The symbols of a declaration, each once, where it was first declared. -/
def distinct (symbols : List Word) : List Word := symbols.eraseDups

theorem nodup_distinct (symbols : List Word) : (distinct symbols).Nodup := by
  unfold distinct
  induction h : symbols.length using Nat.strongRecOn generalizing symbols with
  | ind n ih =>
    cases symbols with
    | nil => simp
    | cons s rest =>
      rw [List.eraseDups_cons, List.nodup_cons]
      refine ⟨by simp [List.mem_eraseDups], ih _ ?_ _ rfl⟩
      subst h
      exact Nat.lt_succ_of_le (List.length_filter_le _ _)

theorem mem_distinct {symbols : List Word} {symbol : Word} :
    symbol ∈ distinct symbols ↔ symbol ∈ symbols :=
  List.mem_eraseDups

theorem distinct_eq_self {symbols : List Word} (nodup : symbols.Nodup) :
    distinct symbols = symbols := by
  induction symbols with
  | nil => rfl
  | cons s rest ih =>
    obtain ⟨fresh, nodup⟩ := List.nodup_cons.1 nodup
    have others : rest.filter (fun t => !t == s) = rest := by
      refine List.filter_eq_self.2 fun t member => ?_
      have other : t ≠ s := fun same => fresh (same ▸ member)
      simpa using other
    rw [distinct, List.eraseDups_cons, others]
    exact congrArg (s :: ·) (ih nodup)

/-- Checks a declaration: there are non-terminals, the marker of the empty string is no symbol, no
symbol is both terminal and non-terminal, and the trimmed start symbol is a non-terminal. The
first condition that fails is reported. -/
def build (terminals nonTerminals : List Word) (start : Word) (productions : Productions) :
    Except Defect Grammar :=
  let ts := distinct terminals
  let ns := distinct nonTerminals
  let start := Text.trim start
  if ns = [] then .error .noNonTerminals
  else if hm : emptyMarker ∈ ts ∨ emptyMarker ∈ ns then .error .markerDeclared
  else
    match hs : ts.find? (· ∈ ns) with
    | some shared => .error (.sharedSymbol shared)
    | none =>
      if hn : start ∈ ns then
        .ok {
          terminals := ts
          nonTerminals := ns
          start
          productions
          terminals_nodup := nodup_distinct terminals
          nonTerminals_nodup := nodup_distinct nonTerminals
          marker_not_mem := not_or.1 hm
          disjoint := by simpa using hs
          start_mem := hn }
      else .error (.unknownStart start)

/-- A declaration is accepted as `g` exactly when `g` has its symbols, its start symbol and its
productions: that some grammar has them is what the checks ask for. -/
theorem build_eq_ok_iff {terminals nonTerminals : List Word} {start : Word}
    {productions : Productions} {g : Grammar} :
    build terminals nonTerminals start productions = .ok g ↔
      g.terminals = distinct terminals ∧ g.nonTerminals = distinct nonTerminals ∧
        g.start = Text.trim start ∧ g.productions = productions := by
  constructor
  · intro built
    dsimp only [build] at built
    split at built
    · cases built
    · split at built
      · cases built
      · split at built
        · cases built
        · split at built
          · cases built
            exact ⟨rfl, rfl, rfl, rfl⟩
          · cases built
  · rintro ⟨terminals_eq, nonTerminals_eq, start_eq, rfl⟩
    have start_mem := g.start_mem
    have marker := g.marker_not_mem
    have disjoint := g.disjoint
    rw [nonTerminals_eq, start_eq] at start_mem
    rw [terminals_eq, nonTerminals_eq] at marker disjoint
    have shared : (distinct terminals).find? (· ∈ distinct nonTerminals) = none := by
      simpa using disjoint
    dsimp only [build]
    rw [if_neg (List.ne_nil_of_mem start_mem), dif_neg (not_or.2 marker)]
    split
    · next symbol found => rw [shared] at found; cases found
    · rw [dif_pos start_mem]
      cases g
      simp_all

/-- Every rule, in declaration order. -/
def rules (g : Grammar) : List Rule := g.productions.rules

theorem mem_rules_iff {g : Grammar} {rule : Rule} :
    rule ∈ g.rules ↔
      ∃ p ∈ g.productions.entries, p.left = rule.left ∧ rule.right ∈ p.alternatives := by
  obtain ⟨left, right⟩ := rule
  simp only [rules, Productions.rules, Production.rules, List.mem_flatMap, List.mem_map]
  constructor
  · rintro ⟨p, member, alternative, inside, same⟩
    obtain ⟨rfl, rfl⟩ := Rule.mk.inj same
    exact ⟨p, member, rfl, inside⟩
  · rintro ⟨p, member, rfl, inside⟩
    exact ⟨p, member, right, inside, rfl⟩

def display (g : Grammar) : List Text := g.rules.map Rule.display

end Grammar

end Chomsky
