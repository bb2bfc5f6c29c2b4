import Chomsky.Proofs.Grammar.Reading

/-!
# Displayed grammars

A grammar that was read is the grammar that its display declares, in the same order
(`Grammar.toGrammar_display`). A displayed rule is read as that rule alone
(`Production.read_display`), and rules that are added one by one gather again under their left-hand
sides (`Productions.ofList_rules`). A side with an arrow in it would be cut there, so grammars with
such a side are left out.
-/

namespace Chomsky

/-! ## One rule -/

namespace Production

theorem splitArrow_eq_none_iff {t : Text} : splitArrow t = none ↔ ¬ "->".toList <:+: t := by
  fun_induction splitArrow t with
  | case1 => simp
  | case2 rest =>
    have here : "->".toList <:+: '-' :: '>' :: rest := ⟨[], rest, rfl⟩
    exact iff_of_false (by simp) (fun absent => absent here)
  | case3 c rest noArrow ih =>
    have later : ¬ "->".toList <+: c :: rest := by
      rintro ⟨after, same⟩
      obtain ⟨dash, head⟩ := List.cons.inj same
      exact noArrow after dash.symm head.symm
    rw [Option.map_eq_none_iff, ih, List.infix_cons_iff, not_or]
    exact (and_iff_right later).symm

/-- No arrow begins before the first one, not even with a dash that stands right in front of it. -/
theorem splitArrow_append {before : Text} (arrowless : splitArrow before = none) (after : Text) :
    splitArrow (before ++ '-' :: '>' :: after) = some (before, after) := by
  fun_induction splitArrow before with
  | case1 => rfl
  | case2 rest => cases arrowless
  | case3 c rest noArrow ih =>
    rw [List.cons_append, splitArrow, ih (Option.map_eq_none_iff.1 arrowless)]
    · rfl
    · intro later dash head
      cases rest with
      | nil => cases head
      | cons d rest =>
        obtain ⟨rfl, _⟩ := List.cons.inj head
        exact noArrow rest dash rfl

/-- A line is cut at its first arrow. -/
theorem splitArrow_eq_some_iff {line before after : Text} :
    splitArrow line = some (before, after) ↔
      line = before ++ '-' :: '>' :: after ∧ splitArrow before = none := by
  constructor
  · intro cut
    fun_induction splitArrow line generalizing before with
    | case1 => cases cut
    | case2 rest =>
      obtain ⟨rfl, rfl⟩ := Prod.mk.inj (Option.some.inj cut)
      exact ⟨rfl, rfl⟩
    | case3 c rest noArrow ih =>
      obtain ⟨⟨front, back⟩, later, same⟩ := Option.map_eq_some_iff.1 cut
      obtain ⟨rfl, rfl⟩ := Prod.mk.inj same
      obtain ⟨rfl, arrowless⟩ := ih later
      refine ⟨rfl, ?_⟩
      rw [splitArrow, arrowless]
      · rfl
      · rintro later rfl rfl
        exact noArrow _ rfl rfl
  · rintro ⟨rfl, arrowless⟩
    exact splitArrow_append arrowless after

theorem readAlternatives_of_isSolid {w : Word} (solid : Text.IsSolid w) (noBar : '|' ∉ w) :
    readAlternatives w = some [w] := by
  have other : ∀ c ∈ w, (c == '|') = false := by
    intro c member
    exact beq_false_of_ne fun same => noBar (same ▸ member)
  have whole : Text.pieces (· == '|') w = [w] := by
    simpa [Text.pieces] using Text.pieces_append other []
  rw [readAlternatives_eq_some_iff, whole]
  exact ⟨by simp [solid.squeeze_eq], by simp [solid.ne_nil]⟩

end Production

/-- The production that gives a rule and no other. -/
def Rule.production (rule : Rule) : Production := ⟨rule.left, [rule.right]⟩

/-- A line with one arrow between two texts is read as the rule whose sides these texts are, less
their blanks. -/
theorem Production.read_of_squeeze {rule : Rule} {before after : Text}
    (left : Text.squeeze before = rule.left) (right : Text.squeeze after = rule.right)
    (left_solid : Text.IsSolid rule.left) (right_solid : Text.IsSolid rule.right)
    (noBar : '|' ∉ rule.right) (before_arrowless : splitArrow before = none)
    (after_arrowless : splitArrow after = none) :
    read (before ++ '-' :: '>' :: after) = .ok rule.production := by
  have alternatives : readAlternatives after = some [rule.right] := by
    rw [← readAlternatives_of_isSolid right_solid noBar]
    exact readAlternatives_congr (by rw [right, right_solid.squeeze_eq])
  rw [read_eq_ok_iff, readSides_eq_ok_iff]
  exact ⟨before, after, splitArrow_append before_arrowless after, after_arrowless, left.symm,
    left_solid.ne_nil, alternatives⟩

theorem Production.read_display {rule : Rule} (left : Text.IsSolid rule.left)
    (right : Text.IsSolid rule.right) (noBar : '|' ∉ rule.right)
    (left_arrowless : ¬ "->".toList <:+: rule.left)
    (right_arrowless : ¬ "->".toList <:+: rule.right) :
    read rule.display = .ok rule.production := by
  have space : ∀ c ∈ [' '], Text.isBlank c = true := List.forall_mem_singleton.2 rfl
  have before : splitArrow (rule.left ++ [' ']) = none := by
    rw [splitArrow_append_blank space, splitArrow_eq_none_iff.2 left_arrowless]
    rfl
  have after : splitArrow ([' '] ++ rule.right) = none := by
    rw [splitArrow_blank_append space, splitArrow_eq_none_iff.2 right_arrowless]
    rfl
  have shown : rule.display = (rule.left ++ [' ']) ++ '-' :: '>' :: ([' '] ++ rule.right) := by
    simp [Rule.display]
  have nothing : Text.squeeze [' '] = [] := Text.squeeze_eq_nil_iff.2 space
  have left_eq : Text.squeeze (rule.left ++ [' ']) = rule.left := by
    rw [Text.squeeze_append, left.squeeze_eq, nothing, List.append_nil]
  have right_eq : Text.squeeze ([' '] ++ rule.right) = rule.right := by
    rw [Text.squeeze_append, right.squeeze_eq, nothing, List.nil_append]
  rw [shown]
  exact read_of_squeeze left_eq right_eq left right noBar before after

/-! ## Gathering rules -/

theorem Production.addTo_append {q : Production} {front : List Production}
    (new : q.left ∉ front.map left) (back : List Production) :
    q.addTo (front ++ back) = front ++ q.addTo back := by
  induction front with
  | nil => rfl
  | cons p front ih =>
    obtain ⟨other, others⟩ := not_or.1 (mt List.mem_cons.2 new)
    rw [List.cons_append, addTo, if_neg fun same => other same.symm, ih others, List.cons_append]

/-- Alternatives that come one by one are added to the last production, if it is theirs. -/
theorem Production.foldl_addTo {left : Word} {front : List Production}
    (new : left ∉ front.map Production.left) (had rest : List Word) :
    (rest.map fun right => ⟨left, [right]⟩).foldl (fun ps q => addTo q ps)
        (front ++ [⟨left, had⟩]) =
      front ++ [⟨left, had ++ rest⟩] := by
  induction rest generalizing had with
  | nil => simp
  | cons right rest ih =>
    have added : addTo ⟨left, [right]⟩ (front ++ [⟨left, had⟩]) =
        front ++ [⟨left, had ++ [right]⟩] := by
      rw [addTo_append new, addTo, if_pos rfl]
    rw [List.map_cons, List.foldl_cons, added, ih, List.append_assoc, List.singleton_append]

namespace Productions

theorem entries_foldl_add (ps : Productions) (qs : List Production) :
    (qs.foldl add ps).entries = qs.foldl (fun entries q => q.addTo entries) ps.entries :=
  (List.foldl_hom entries fun _ _ => rfl).symm

/-- The rules of productions with different left-hand sides gather to these productions. -/
theorem foldl_addTo_rules (front : List Production) {back : List Production}
    (nodup : ((front ++ back).map Production.left).Nodup)
    (filled : ∀ p ∈ back, p.alternatives ≠ []) :
    ((back.flatMap Production.rules).map Rule.production).foldl
        (fun entries q => q.addTo entries) front =
      front ++ back := by
  induction back generalizing front with
  | nil => simp
  | cons p back ih =>
    obtain ⟨first, others⟩ := List.forall_mem_cons.1 filled
    obtain ⟨left, alternatives⟩ := p
    cases alternatives with
    | nil => exact absurd rfl first
    | cons right rest =>
      have new : left ∉ front.map Production.left := by
        intro old
        rw [List.map_append, List.nodup_append] at nodup
        exact nodup.2.2 left old left (by simp) rfl
      have opened : Production.addTo ⟨left, [right]⟩ front = front ++ [⟨left, [right]⟩] := by
        simpa [Production.addTo] using Production.addTo_append (q := ⟨left, [right]⟩) new []
      have gathered := Production.foldl_addTo new [right] rest
      have next := ih (front ++ [⟨left, right :: rest⟩]) (by simpa using nodup) others
      have first_rules : (Production.rules ⟨left, right :: rest⟩).map Rule.production =
          ⟨left, [right]⟩ :: rest.map fun right => ⟨left, [right]⟩ := by
        simp [Production.rules, Rule.production]
      rw [List.flatMap_cons, List.map_append, List.foldl_append, first_rules, List.foldl_cons,
        opened, gathered, List.singleton_append, next, List.append_assoc, List.singleton_append]

theorem ofList_rules (ps : Productions) (filled : ∀ p ∈ ps.entries, p.alternatives ≠ []) :
    ofList (ps.rules.map Rule.production) = ps := by
  refine eq_of_entries ?_
  rw [ofList, entries_foldl_add]
  exact foldl_addTo_rules [] ps.nodup filled

end Productions

/-! ## Displayed grammars -/

namespace Grammar

variable {g : Grammar}

theorem flatMap_readSymbols {symbols : List Word} (solid : ∀ w ∈ symbols, Text.IsSolid w) :
    symbols.flatMap readSymbols = symbols := by
  have single : ∀ w ∈ symbols, readSymbols w = [w] := fun w member => (solid w member).words_eq
  rw [List.flatMap_def, List.map_congr_left single, ← List.flatMap_def, List.flatMap_singleton']

/-- No side of a rule has an arrow in it. -/
def IsArrowless (g : Grammar) : Prop :=
  ∀ rule ∈ g.rules, ¬ "->".toList <:+: rule.left ∧ ¬ "->".toList <:+: rule.right

theorem IsTidy.read_display (tidy : g.IsTidy) (arrowless : g.IsArrowless) {rule : Rule}
    (declared : rule ∈ g.rules) : Production.read rule.display = .ok rule.production := by
  obtain ⟨left, right⟩ := tidy.isSolid_of_mem_rules declared
  obtain ⟨left_arrowless, right_arrowless⟩ := arrowless rule declared
  obtain ⟨p, member, _, alternative⟩ := mem_rules_iff.1 declared
  have noBar : '|' ∉ rule.right := (tidy.productions p member).no_bar _ alternative
  exact Production.read_display left right noBar left_arrowless right_arrowless

/-- The display of a grammar that was read declares this grammar, unless a side of a rule has an
arrow in it. -/
theorem toGrammar_display (g : Grammar) (read : g.IsRead) (arrowless : g.IsArrowless) :
    Declaration.toGrammar {
      terminals := g.terminals
      nonTerminals := g.nonTerminals
      start := g.start
      rules := g.display } = .ok g := by
  have tidy := read.tidy
  have lines : g.display.map Production.read = (g.rules.map Rule.production).map .ok := by
    rw [display, List.map_map, List.map_map]
    exact List.map_congr_left fun rule declared => tidy.read_display arrowless declared
  have gathered : (g.rules.map Rule.production).foldl .add .empty = g.productions :=
    g.productions.ofList_rules fun p member => (tidy.productions p member).nonempty
  rw [Declaration.toGrammar, Declaration.readRules_of_map_eq lines, gathered]
  simp only [flatMap_readSymbols tidy.terminals, flatMap_readSymbols tidy.nonTerminals,
    build_eq_self tidy.start.trim]
  rfl

/-- Sides with dashes, angles and bars at their ends, and a left-hand side that comes twice. -/
def bordered : Grammar where
  terminals := [['>'], ['-'], ['|']]
  nonTerminals := [['T']]
  start := ['T']
  productions := ⟨[⟨['T'], [['T', '-'], ['>']]⟩, ⟨['|', '-'], [['>', 'T']]⟩], by decide⟩
  terminals_nodup := by decide
  nonTerminals_nodup := by decide
  marker_not_mem := by decide
  disjoint := by decide
  start_mem := by decide

theorem toGrammar_display_bordered :
    bordered.IsRead ∧ bordered.IsArrowless ∧
      bordered.display = ["T -> T-".toList, "T -> >".toList, "|- -> >T".toList] ∧
      Declaration.toGrammar {
        terminals := bordered.terminals
        nonTerminals := bordered.nonTerminals
        start := bordered.start
        rules := bordered.display } = .ok bordered := by
  have read : bordered.IsRead :=
    .declared
      { terminals := ["> -".toList, "|".toList]
        nonTerminals := ["T".toList]
        start := "T ".toList
        rules := ["T -> T -".toList, "| -->> T".toList, "T->>".toList] }
      (by rfl)
  have arrowless : bordered.IsArrowless := by
    unfold IsArrowless
    decide
  exact ⟨read, arrowless, by decide, toGrammar_display bordered read arrowless⟩

end Grammar

end Chomsky
