import Chomsky.Proofs.Grammar.Display

/-!
# Well-formed grammars

A grammar that is read from a declaration or entered in a dialogue is well formed, and nothing else
holds of all of them: each well-formed choice of symbols and productions can be declared
(`Grammar.exists_isRead_iff_isWellFormed`). The statement is about `Grammar.Parts`, which promise
nothing by their type. To declare a side with an arrow in it, its characters are written apart
(`Rule.spaced`); the blanks are dropped only after the line was cut at its arrow.
-/

namespace Chomsky

/-! ## Rules with blanks in their sides -/

/-- The text with a blank after each character. -/
def Text.spaced (t : Text) : Text := t.flatMap fun c => [c, ' ']

theorem Text.squeeze_spaced (t : Text) : squeeze (spaced t) = squeeze t := by
  have space : isBlank ' ' = true := rfl
  induction t with
  | nil => rfl
  | cons c t ih =>
    have cons : spaced (c :: t) = [c] ++ ([' '] ++ spaced t) := rfl
    have nothing : squeeze [' '] = [] := squeeze_eq_nil_iff.2 (List.forall_mem_singleton.2 space)
    rw [cons, squeeze_append, squeeze_append, nothing, List.nil_append, ih, ← squeeze_append,
      List.singleton_append]

/-- A blank stands behind each dash. -/
theorem Production.splitArrow_spaced (t : Text) : splitArrow (Text.spaced t) = none := by
  induction t with
  | nil => rfl
  | cons c t ih =>
    have space : ∀ c ∈ [' '], Text.isBlank c = true := List.forall_mem_singleton.2 rfl
    have rest : splitArrow ([' '] ++ Text.spaced t) = none := by
      rw [splitArrow_blank_append space, ih]
      rfl
    change splitArrow (c :: ([' '] ++ Text.spaced t)) = none
    rw [splitArrow, rest]
    · rfl
    · intro later _ head
      cases head

/-- The rule on a line with its characters apart. -/
def Rule.spaced (rule : Rule) : Text :=
  Text.spaced rule.left ++ '-' :: '>' :: Text.spaced rule.right

theorem Production.read_spaced {rule : Rule} (left : Text.IsSolid rule.left)
    (right : Text.IsSolid rule.right) (noBar : '|' ∉ rule.right) :
    read rule.spaced = .ok rule.production := by
  refine read_of_squeeze ?_ ?_ left right noBar (splitArrow_spaced _) (splitArrow_spaced _)
  · rw [Text.squeeze_spaced, left.squeeze_eq]
  · rw [Text.squeeze_spaced, right.squeeze_eq]

namespace Grammar

/-! ## Parts -/

/-- What a grammar consists of. -/
structure Parts where
  terminals : List Word
  nonTerminals : List Word
  start : Word
  productions : List Production
  deriving DecidableEq, Repr

def parts (g : Grammar) : Parts where
  terminals := g.terminals
  nonTerminals := g.nonTerminals
  start := g.start
  productions := g.productions.entries

structure Parts.IsWellFormed (p : Parts) : Prop where
  terminals_nodup : p.terminals.Nodup
  nonTerminals_nodup : p.nonTerminals.Nodup
  disjoint : ∀ w ∈ p.terminals, w ∉ p.nonTerminals
  marker_not_mem : emptyMarker ∉ p.terminals ∧ emptyMarker ∉ p.nonTerminals
  start_mem : p.start ∈ p.nonTerminals
  /-- Symbols are not empty and have no blanks. -/
  terminals_solid : ∀ w ∈ p.terminals, Text.IsSolid w
  nonTerminals_solid : ∀ w ∈ p.nonTerminals, Text.IsSolid w
  lefts_nodup : (p.productions.map Production.left).Nodup
  /-- Sides are not empty and have no blanks, each left-hand side has an alternative, and there is
  no bar in an alternative. -/
  productions_tidy : ∀ q ∈ p.productions, q.IsTidy

variable {g : Grammar}

theorem IsRead.isWellFormed (read : g.IsRead) : g.parts.IsWellFormed where
  terminals_nodup := g.terminals_nodup
  nonTerminals_nodup := g.nonTerminals_nodup
  disjoint := g.disjoint
  marker_not_mem := g.marker_not_mem
  start_mem := g.start_mem
  terminals_solid := read.tidy.terminals
  nonTerminals_solid := read.tidy.nonTerminals
  lefts_nodup := g.productions.nodup
  productions_tidy := read.tidy.productions

/-- The declaration of a grammar, with the characters of its rules apart. -/
def declaration (g : Grammar) : Declaration where
  terminals := g.terminals
  nonTerminals := g.nonTerminals
  start := g.start
  rules := g.rules.map Rule.spaced

theorem IsTidy.toGrammar_declaration (tidy : g.IsTidy) : g.declaration.toGrammar = .ok g := by
  have read : ∀ rule ∈ g.rules, Production.read rule.spaced = .ok rule.production := by
    intro rule declared
    obtain ⟨left, right⟩ := tidy.isSolid_of_mem_rules declared
    obtain ⟨p, member, _, alternative⟩ := mem_rules_iff.1 declared
    exact Production.read_spaced left right ((tidy.productions p member).no_bar _ alternative)
  have lines : (g.rules.map Rule.spaced).map Production.read =
      (g.rules.map Rule.production).map .ok := by
    rw [List.map_map, List.map_map]
    exact List.map_congr_left read
  have gathered : Productions.ofList (g.rules.map Rule.production) = g.productions :=
    g.productions.ofList_rules fun p member => (tidy.productions p member).nonempty
  refine Declaration.toGrammar_eq_ok_iff.2 ⟨g.rules.map Rule.production, lines, ?_⟩
  rw [declaration, flatMap_readSymbols tidy.terminals, flatMap_readSymbols tidy.nonTerminals,
    gathered, build_eq_self tidy.start.trim]

/-- The parts of the grammars that are read are those that are well formed. -/
theorem exists_isRead_iff_isWellFormed (p : Parts) :
    (∃ g : Grammar, g.IsRead ∧ g.parts = p) ↔ p.IsWellFormed := by
  constructor
  · rintro ⟨g, read, rfl⟩
    exact read.isWellFormed
  · intro well
    let g : Grammar := {
      terminals := p.terminals
      nonTerminals := p.nonTerminals
      start := p.start
      productions := ⟨p.productions, well.lefts_nodup⟩
      terminals_nodup := well.terminals_nodup
      nonTerminals_nodup := well.nonTerminals_nodup
      marker_not_mem := well.marker_not_mem
      disjoint := well.disjoint
      start_mem := well.start_mem }
    have tidy : g.IsTidy :=
      ⟨well.terminals_solid, well.nonTerminals_solid, well.productions_tidy⟩
    exact ⟨g, .declared g.declaration tidy.toGrammar_declaration, rfl⟩

end Grammar

end Chomsky
