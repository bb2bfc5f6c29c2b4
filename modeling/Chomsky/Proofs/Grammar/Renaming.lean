import Mathlib.Data.List.Nodup
import Mathlib.Logic.Equiv.Basic
import Chomsky.Proofs.Derivation.Transport
import Chomsky.Proofs.Grammar.Conditions
import Chomsky.Proofs.Grammar.Reading

/-!
# Renaming of characters

In a grammar that was read, only two characters mean something by themselves: a blank, which the
checks trim away, and the marker of the empty string. A renaming that respects both leaves the level
of the grammar as it is, and a search in the renamed grammar gives the renamed answer
(`Grammar.build_classify_derive_rename`). The encodings of the characters may change their lengths.
-/

namespace Chomsky

/-- Other names for characters: distinct ones stay distinct, the marker of the empty string keeps
its name, and only a blank may be named by a blank. -/
structure Renaming where
  char : Char → Char
  injective : Function.Injective char
  marker : char '$' = '$'
  no_blank : ∀ c, Text.isBlank c = false → Text.isBlank (char c) = false

namespace Renaming

variable (r : Renaming) {w v : Word}

/-- Renames character by character. -/
def word (w : Word) : Word := w.map r.char

theorem word_injective : Function.Injective r.word := List.map_injective_iff.2 r.injective

@[simp] theorem word_inj : r.word w = r.word v ↔ w = v := r.word_injective.eq_iff

@[simp] theorem length_word : (r.word w).length = w.length := List.length_map ..

theorem word_append : r.word (w ++ v) = r.word w ++ r.word v := List.map_append

@[simp] theorem word_emptyMarker : r.word emptyMarker = emptyMarker := by
  simp [word, emptyMarker, r.marker]

@[simp] theorem word_eq_emptyMarker : r.word w = emptyMarker ↔ w = emptyMarker := by
  rw [← r.word_inj (w := w), word_emptyMarker]

@[simp] theorem mem_map_word {ws : List Word} : r.word w ∈ ws.map r.word ↔ w ∈ ws :=
  List.mem_map_of_injective r.word_injective

theorem emptyMarker_mem_map_word {ws : List Word} :
    emptyMarker ∈ ws.map r.word ↔ emptyMarker ∈ ws := by
  have kept : r.word emptyMarker ∈ ws.map r.word ↔ emptyMarker ∈ ws := r.mem_map_word
  rwa [r.word_emptyMarker] at kept

theorem replacement_word (right : Word) :
    replacement (r.word right) = r.word (replacement right) := by
  unfold replacement
  by_cases empty : right = emptyMarker
  · rw [if_pos (r.word_eq_emptyMarker.2 empty), if_pos empty]
    rfl
  · rw [if_neg (fun same => empty (r.word_eq_emptyMarker.1 same)), if_neg empty]

theorem isSolid_word (solid : Text.IsSolid w) : Text.IsSolid (r.word w) where
  ne_nil := by simpa [word] using solid.ne_nil
  no_blank := by
    intro c member
    obtain ⟨d, inside, rfl⟩ := List.mem_map.1 member
    exact r.no_blank d (solid.no_blank d inside)

theorem trim_word (solid : Text.IsSolid w) : Text.trim (r.word w) = r.word (Text.trim w) := by
  rw [(r.isSolid_word solid).trim, solid.trim]

end Renaming

/-! ## Renamed grammars -/

def Production.rename (r : Renaming) (p : Production) : Production :=
  ⟨r.word p.left, p.alternatives.map r.word⟩

def Productions.rename (r : Renaming) (ps : Productions) : Productions where
  entries := ps.entries.map (Production.rename r)
  nodup := by
    have lefts : (ps.entries.map (Production.rename r)).map Production.left =
        (ps.entries.map Production.left).map r.word := by
      simp [Production.rename, Function.comp_def]
    rw [lefts]
    exact ps.nodup.map r.word_injective

namespace Grammar

/-- The grammar with its symbols and rules renamed, in the same order. -/
def rename (r : Renaming) (g : Grammar) : Grammar where
  terminals := g.terminals.map r.word
  nonTerminals := g.nonTerminals.map r.word
  start := r.word g.start
  productions := g.productions.rename r
  terminals_nodup := g.terminals_nodup.map r.word_injective
  nonTerminals_nodup := g.nonTerminals_nodup.map r.word_injective
  marker_not_mem :=
    g.marker_not_mem.imp (mt r.emptyMarker_mem_map_word.1) (mt r.emptyMarker_mem_map_word.1)
  disjoint := by
    intro t member
    obtain ⟨w, inside, rfl⟩ := List.mem_map.1 member
    simpa using g.disjoint w inside
  start_mem := r.mem_map_word.2 g.start_mem

variable {g : Grammar} (r : Renaming)

/-- A renamed form has the renamed successors, in the same order. -/
theorem successors_rename (form : Word) :
    (g.rename r).successors (r.word form) = (g.successors form).map r.word := by
  have production : ∀ p : Production,
      (p.rename r).successors (r.word form) = (p.successors form).map r.word := by
    intro p
    have cuts : Text.cuts (r.word p.left) (r.word form) =
        (Text.cuts p.left form).map (Prod.map r.word r.word) :=
      Text.cuts_map r.injective p.left form
    simp [Production.successors, Production.rename, cuts, List.flatMap_map, List.map_flatMap,
      Function.comp_def, r.replacement_word, r.word_append]
  simp [successors, rename, Productions.rename, List.flatMap_map, List.map_flatMap, production]

theorem carries_rename : g.Carries r.word (g.rename r) where
  injective := r.word_injective
  start := rfl
  successors := successors_rename r

/-! ## The level of a renamed grammar -/

theorem isSingleNonTerminal_rename (w : Word) :
    (g.rename r).isSingleNonTerminal (r.word w) = g.isSingleNonTerminal w := by
  simp [isSingleNonTerminal, rename]

theorem linearityOf_rename (w : Word) :
    (g.rename r).linearityOf (r.word w) = g.linearityOf w := by
  have terminal : ∀ c, [r.char c] ∈ (g.rename r).terminals ↔ [c] ∈ g.terminals :=
    fun c => r.mem_map_word (w := [c])
  have nonTerminal : ∀ c, [r.char c] ∈ (g.rename r).nonTerminals ↔ [c] ∈ g.nonTerminals :=
    fun c => r.mem_map_word (w := [c])
  rcases w with _ | ⟨a, _ | ⟨b, _ | ⟨c, rest⟩⟩⟩
  · rfl
  · simp [Renaming.word, linearityOf, terminal]
  · simp [Renaming.word, linearityOf, terminal, nonTerminal]
  · rfl

theorem fitsLinear_rename {side : Side} {left alternative : Word}
    (solid : Text.IsSolid alternative) :
    (g.rename r).FitsLinear side (r.word left) (r.word alternative) ↔
      g.FitsLinear side left alternative := by
  have start : r.word left = (g.rename r).start ↔ left = g.start := r.word_inj
  simp only [FitsLinear, r.trim_word solid, r.word_eq_emptyMarker, start, linearityOf_rename]

theorem isLinear_rename {side : Side} (tidy : g.IsTidy) :
    (g.rename r).IsLinear side ↔ g.IsLinear side := by
  have production : ∀ p ∈ g.productions.entries,
      ((g.rename r).isSingleNonTerminal (Text.trim (r.word p.left)) ∧
        ∀ alternative ∈ p.alternatives.map r.word,
          (g.rename r).FitsLinear side (Text.trim (r.word p.left)) alternative) ↔
      (g.isSingleNonTerminal (Text.trim p.left) ∧
        ∀ alternative ∈ p.alternatives, g.FitsLinear side (Text.trim p.left) alternative) := by
    intro p member
    have solid := tidy.productions p member
    rw [r.trim_word solid.left, isSingleNonTerminal_rename, List.forall_mem_map]
    refine and_congr_right fun _ => ?_
    exact forall₂_congr fun alternative inside => fitsLinear_rename r (solid.alternatives _ inside)
  simp only [IsLinear, rename, Productions.rename, List.forall_mem_map]
  exact forall₂_congr production

theorem rules_rename :
    (g.rename r).rules = g.rules.map fun rule => ⟨r.word rule.left, r.word rule.right⟩ := by
  simp [rules, Productions.rules, rename, Productions.rename, Production.rules, Production.rename,
    List.flatMap_map, List.map_flatMap, Function.comp_def]

theorem classify_rename (tidy : g.IsTidy) : (g.rename r).classify = g.classify := by
  have type3 : (g.rename r).isType3 = g.isType3 := by
    rw [Bool.eq_iff_iff, isType3_iff, isType3_iff]
    exact exists_congr fun side => isLinear_rename r tidy
  have type2 : (g.rename r).isType2 = g.isType2 := by
    rw [Bool.eq_iff_iff, isType2_iff, isType2_iff, rules_rename, List.forall_mem_map]
    simp only [isSingleNonTerminal_rename]
  have type1 : (g.rename r).isType1 = g.isType1 := by
    have start : ∀ w, r.word w = (g.rename r).start ↔ w = g.start := fun _ => r.word_inj
    rw [Bool.eq_iff_iff, isType1_iff, isType1_iff, rules_rename, List.forall_mem_map]
    simp only [r.word_eq_emptyMarker, start, r.length_word]
  simp only [classify, type3, type2, type1]

/-! ## What renaming leaves as it is -/

theorem build_rename (tidy : g.IsTidy) :
    build (g.terminals.map r.word) (g.nonTerminals.map r.word) (r.word g.start)
        (g.productions.rename r) = .ok (g.rename r) :=
  (g.rename r).build_eq_self (r.isSolid_word tidy.start).trim

theorem derive_rename (target : Word) (limits : Limits) :
    (g.rename r).derive (r.word target) limits = (g.derive target limits).map r.word :=
  (carries_rename r).derive_eq (r.replacement_word target) limits

/-- The renamed symbols and rules of a grammar that was read are accepted; what they make has the
same level, and the search for a renamed target gives the renamed answer. -/
theorem build_classify_derive_rename (g : Grammar) (read : g.IsRead) (r : Renaming) :
    ∃ h, build (g.terminals.map r.word) (g.nonTerminals.map r.word) (r.word g.start)
          (g.productions.rename r) = .ok h ∧
      h.classify = g.classify ∧
      ∀ target limits, h.derive (r.word target) limits = (g.derive target limits).map r.word :=
  ⟨g.rename r, build_rename r read.tidy, classify_rename r read.tidy, derive_rename r⟩

/-- Exchanges `a`, of one byte, and `é`, of two. -/
def accent : Renaming where
  char := Equiv.swap 'a' 'é'
  injective := (Equiv.swap 'a' 'é').injective
  marker := by decide
  no_blank := by
    intro c solid
    rw [Equiv.swap_apply_def]
    split
    · decide
    · split
      · decide
      · exact solid

theorem build_classify_derive_accent :
    trailing.IsRead ∧
      ∃ h, build [['é'], ['b']] [['S'], ['A']] ['S'] (trailing.productions.rename accent) = .ok h ∧
        h.classify = .regular ∧
        h.derive ['é', 'é', 'b'] ⟨4, 9⟩ =
          .found [['S'], ['A', 'b'], ['A', 'é', 'b'], ['é', 'é', 'b']] := by
  obtain ⟨h, built, level, answers⟩ := build_classify_derive_rename trailing isRead_trailing accent
  have found : trailing.derive ['a', 'a', 'b'] ⟨4, 9⟩ =
      .found [['S'], ['A', 'b'], ['A', 'a', 'b'], ['a', 'a', 'b']] := by
    rw [derive, (Search.Mirrors.initial trailing.start).run]
    decide +kernel
  refine ⟨isRead_trailing, h, built, level.trans (by decide), ?_⟩
  exact (answers ['a', 'a', 'b'] ⟨4, 9⟩).trans (by rw [found]; rfl)

end Grammar

end Chomsky
