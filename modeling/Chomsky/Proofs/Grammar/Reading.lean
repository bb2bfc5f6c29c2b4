import Chomsky.Declaration.Basic
import Chomsky.Dialogue.Basic
import Chomsky.Proofs.Grammar.Conditions

/-!
# What reading a grammar guarantees

A grammar that was read, from a declaration or in a dialogue, has no blanks in its symbols and in
the sides of its rules, and none of them is empty (`Grammar.IsRead.tidy`). The guarantee is made
where a line is read (`Production.IsTidy.of_read`), kept by every rule that is added, and not lost
when `Grammar.build` checks the symbols. Nothing is then left to trim, so linearity is a condition
on the rules as they stand (`Grammar.IsTidy.isLinear_iff`).
-/

namespace Chomsky

/-- Not empty, and without blanks. -/
structure Text.IsSolid (t : Text) : Prop where
  ne_nil : t ≠ []
  no_blank : ∀ c ∈ t, isBlank c = false

namespace Text.IsSolid

variable {t w : Text}

theorem trim (solid : IsSolid t) : Text.trim t = t := trim_eq_self solid.no_blank

theorem squeeze_eq (solid : IsSolid t) : Text.squeeze t = t :=
  List.filter_eq_self.2 fun c member => by simp [solid.no_blank c member]

theorem words_eq (solid : IsSolid t) : words t = [t] := by
  have whole : pieces isBlank t = [t] := by
    simpa [pieces] using pieces_append solid.no_blank []
  simp [words, whole, solid.ne_nil]

theorem of_mem_words (member : w ∈ words t) : IsSolid w where
  ne_nil := ne_nil_of_mem_words member
  no_blank := fun _ inside => not_isBlank_of_mem_words member inside

theorem squeeze (ne_nil : Text.squeeze t ≠ []) : IsSolid (Text.squeeze t) where
  ne_nil := ne_nil
  no_blank := fun _ inside => not_isBlank_of_mem_squeeze inside

end Text.IsSolid

/-- A production as written rules give it: at least one alternative, all sides solid, and no
alternative with the bar that separates alternatives. -/
structure Production.IsTidy (p : Production) : Prop where
  left : Text.IsSolid p.left
  nonempty : p.alternatives ≠ []
  alternatives : ∀ w ∈ p.alternatives, Text.IsSolid w
  no_bar : ∀ w ∈ p.alternatives, '|' ∉ w

def Productions.IsTidy (ps : Productions) : Prop := ∀ p ∈ ps.entries, p.IsTidy

structure Grammar.IsTidy (g : Grammar) : Prop where
  terminals : ∀ w ∈ g.terminals, Text.IsSolid w
  nonTerminals : ∀ w ∈ g.nonTerminals, Text.IsSolid w
  productions : g.productions.IsTidy

/-- The grammar was read from a declaration or entered in a dialogue. -/
inductive Grammar.IsRead (g : Grammar) : Prop where
  | declared (d : Declaration) (accepted : d.toGrammar = .ok g)
  | entered (lines : List Line) (accepted : (Dialogue.readGrammar lines).answer = .ok g)

/-! ## Rules -/

theorem Production.IsTidy.of_read {line : Text} {p : Production}
    (accepted : Production.read line = .ok p) : p.IsTidy := by
  obtain ⟨before, after, _, _, left, left_ne, alternatives⟩ :=
    readSides_eq_ok_iff.1 (read_eq_ok_iff.1 accepted)
  obtain ⟨squeezed, filled⟩ := readAlternatives_eq_some_iff.1 alternatives
  have piece : ∀ w ∈ p.alternatives,
      ∃ part ∈ Text.pieces (· == '|') after, Text.squeeze part = w := by
    intro w member
    rw [squeezed] at member
    exact List.mem_map.1 member
  refine ⟨left ▸ .squeeze (left ▸ left_ne), ?_, ?_, ?_⟩
  · rw [squeezed]
    simpa using Text.pieces_ne_nil _ after
  · intro w member
    obtain ⟨part, _, rfl⟩ := piece w member
    exact .squeeze (filled _ member)
  · intro w member bar
    obtain ⟨part, among, rfl⟩ := piece w member
    have inside : '|' ∈ part := (List.mem_filter.1 bar).1
    have other := Text.not_isSeparator_of_mem_pieces among inside
    simp at other

namespace Productions.IsTidy

variable {ps qs : Productions} {q : Production}

theorem empty : Productions.empty.IsTidy := by
  intro p member
  cases member

theorem of_addTo {entries : List Production} (tidy : ∀ p ∈ entries, p.IsTidy) (new : q.IsTidy) :
    ∀ p ∈ q.addTo entries, p.IsTidy := by
  induction entries with
  | nil =>
    intro p member
    obtain rfl := List.mem_singleton.1 member
    exact new
  | cons first rest ih =>
    obtain ⟨firstTidy, restTidy⟩ := List.forall_mem_cons.1 tidy
    rw [Production.addTo]
    split
    · refine List.forall_mem_cons.2 ⟨?_, restTidy⟩
      exact {
        left := firstTidy.left
        nonempty := List.append_ne_nil_of_left_ne_nil firstTidy.nonempty _
        alternatives := List.forall_mem_append.2 ⟨firstTidy.alternatives, new.alternatives⟩
        no_bar := List.forall_mem_append.2 ⟨firstTidy.no_bar, new.no_bar⟩ }
    · exact List.forall_mem_cons.2 ⟨firstTidy, ih restTidy⟩

theorem add (tidy : ps.IsTidy) (new : q.IsTidy) : (ps.add q).IsTidy := of_addTo tidy new

theorem of_foldl {added : List Production} (tidy : ps.IsTidy) (new : ∀ p ∈ added, p.IsTidy) :
    (added.foldl Productions.add ps).IsTidy := by
  induction added generalizing ps with
  | nil => exact tidy
  | cons p rest ih =>
    obtain ⟨first, others⟩ := List.forall_mem_cons.1 new
    exact ih (tidy.add first) others

theorem of_dialogue {lines : List Line} (tidy : ps.IsTidy)
    (accepted : (Dialogue.readRules ps lines).answer = .ok qs) : qs.IsTidy := by
  induction lines generalizing ps with
  | nil =>
    obtain rfl := Except.ok.inj accepted
    exact tidy
  | cons line rest ih =>
    cases line with
    | illFormed => cases accepted
    | text t =>
      rw [Dialogue.readRules] at accepted
      dsimp only at accepted
      split at accepted
      · obtain rfl := Except.ok.inj accepted
        exact tidy
      · split at accepted
        · exact ih tidy accepted
        · split at accepted
          · next p read => exact ih (tidy.add (.of_read read)) accepted
          · exact ih tidy accepted

end Productions.IsTidy

/-! ## Grammars -/

namespace Grammar

variable {g : Grammar} {side : Side}

/-- The parts of a grammar pass the checks again. -/
theorem build_eq_self (trimmed : Text.trim g.start = g.start) :
    build g.terminals g.nonTerminals g.start g.productions = .ok g :=
  build_eq_ok_iff.2 ⟨(distinct_eq_self g.terminals_nodup).symm,
    (distinct_eq_self g.nonTerminals_nodup).symm, trimmed.symm, rfl⟩

theorem IsTidy.of_build {terminals nonTerminals : List Word} {start : Word}
    {productions : Productions} (built : build terminals nonTerminals start productions = .ok g)
    (terminals_solid : ∀ w ∈ terminals, Text.IsSolid w)
    (nonTerminals_solid : ∀ w ∈ nonTerminals, Text.IsSolid w) (tidy : productions.IsTidy) :
    g.IsTidy := by
  obtain ⟨terminals_eq, nonTerminals_eq, _, productions_eq⟩ := build_eq_ok_iff.1 built
  refine ⟨?_, ?_, productions_eq ▸ tidy⟩
  · intro w member
    rw [terminals_eq, mem_distinct] at member
    exact terminals_solid w member
  · intro w member
    rw [nonTerminals_eq, mem_distinct] at member
    exact nonTerminals_solid w member

theorem IsTidy.of_toGrammar {d : Declaration} (accepted : d.toGrammar = .ok g) : g.IsTidy := by
  have solid : ∀ entries : List Text, ∀ w ∈ entries.flatMap readSymbols, Text.IsSolid w := by
    intro entries w member
    obtain ⟨entry, _, inside⟩ := List.mem_flatMap.1 member
    exact .of_mem_words inside
  obtain ⟨qs, read, built⟩ := Declaration.toGrammar_eq_ok_iff.1 accepted
  have rules : ∀ p ∈ qs, p.IsTidy := by
    intro p member
    obtain ⟨line, _, accepted⟩ := List.mem_map.1 (read ▸ List.mem_map_of_mem member)
    exact .of_read accepted
  exact .of_build built (solid _) (solid _) (.of_foldl .empty rules)

theorem IsTidy.of_readGrammar {lines : List Line}
    (accepted : (Dialogue.readGrammar lines).answer = .ok g) : g.IsTidy := by
  obtain ⟨terminals, _, accepted⟩ := Dialogue.bind_eq_ok accepted
  obtain ⟨nonTerminals, _, accepted⟩ := Dialogue.bind_eq_ok accepted
  obtain ⟨start, _, accepted⟩ := Dialogue.bind_eq_ok accepted
  obtain ⟨_, _, accepted⟩ := Dialogue.bind_eq_ok accepted
  obtain ⟨productions, read, accepted⟩ := Dialogue.bind_eq_ok accepted
  cases built : build (readSymbols terminals) (readSymbols nonTerminals) start productions with
  | error defect =>
    rw [built] at accepted
    cases accepted
  | ok h =>
    rw [built] at accepted
    obtain rfl := Except.ok.inj accepted
    exact .of_build built (fun _ => .of_mem_words) (fun _ => .of_mem_words)
      (.of_dialogue .empty read)

/-- Reading leaves no blank and nothing empty in a grammar. -/
theorem IsRead.tidy (read : g.IsRead) : g.IsTidy := by
  cases read with
  | declared d accepted => exact .of_toGrammar accepted
  | entered lines accepted => exact .of_readGrammar accepted

theorem IsTidy.isSolid_of_mem_rules (tidy : g.IsTidy) {rule : Rule} (declared : rule ∈ g.rules) :
    Text.IsSolid rule.left ∧ Text.IsSolid rule.right := by
  obtain ⟨p, member, same, alternative⟩ := mem_rules_iff.1 declared
  have solid := tidy.productions p member
  exact ⟨same ▸ solid.left, solid.alternatives _ alternative⟩

/-- Where no production lacks alternatives and no side has blanks at its ends, linearity is a
condition on the rules. -/
theorem IsTidy.isLinear_iff (tidy : g.IsTidy) :
    g.IsLinear side ↔ ∀ rule ∈ g.rules,
      g.isSingleNonTerminal rule.left ∧ g.FitsLinear side rule.left rule.right := by
  constructor
  · intro linear rule declared
    obtain ⟨p, member, same, alternative⟩ := mem_rules_iff.1 declared
    have fits := linear p member
    rw [(tidy.productions p member).left.trim, same] at fits
    exact ⟨fits.1, fits.2 _ alternative⟩
  · intro fits p member
    have solid := tidy.productions p member
    have rule : ∀ w ∈ p.alternatives, g.isSingleNonTerminal p.left ∧ g.FitsLinear side p.left w :=
      fun w alternative => fits ⟨p.left, w⟩ (mem_rules_iff.2 ⟨p, member, rfl, alternative⟩)
    obtain ⟨first, alternative⟩ := List.exists_mem_of_ne_nil _ solid.nonempty
    rw [solid.left.trim]
    exact ⟨(rule first alternative).1, fun w inside => (rule w inside).2⟩

/-- At least one `a`, and a `b` behind them. -/
def trailing : Grammar where
  terminals := [['a'], ['b']]
  nonTerminals := [['S'], ['A']]
  start := ['S']
  productions := ⟨[⟨['S'], [['A', 'b']]⟩, ⟨['A'], [['A', 'a'], ['a']]⟩], by decide⟩
  terminals_nodup := by decide
  nonTerminals_nodup := by decide
  marker_not_mem := by decide
  disjoint := by decide
  start_mem := by decide

theorem isRead_trailing : trailing.IsRead :=
  .declared
    { terminals := ["a b".toList]
      nonTerminals := ["S".toList, " A S".toList]
      start := " S".toList
      rules := ["S -> A b".toList, "A -> A a".toList, "A->a".toList] }
    (by rfl)

theorem IsTidy.start (tidy : g.IsTidy) : Text.IsSolid g.start := tidy.nonTerminals _ g.start_mem

end Grammar

end Chomsky
