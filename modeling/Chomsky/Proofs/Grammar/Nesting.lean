import Chomsky.Proofs.Derivation.Answers
import Chomsky.Proofs.Grammar.Conditions
import Chomsky.Proofs.Grammar.Reading

/-!
# How the levels nest

The checks of the levels are written apart. The one for type 3 trims both sides of a rule and looks
at left sides without alternatives too; the other two do neither. In a grammar that was read there
is nothing to trim and no such left side, so all three are conditions on its rules
(`IsTidy.isLinear_iff`, `isType2_iff`, `isType1_iff`). Each follows from the stricter one
(`Grammar.nested_of_isRead`), and fewer rules keep each of them (`Grammar.classify_antitone`).
-/

namespace Chomsky

theorem Level.number_injective : Function.Injective number := by
  intro l m same
  exact Option.some.inj (by rw [← ofNumber?_number l, same, ofNumber?_number m])

namespace Grammar

variable {g h : Grammar} {side : Side} {w left right : Word}

/-! ## What a level says -/

theorem classify_eq_regular_iff : g.classify = .regular ↔ g.isType3 := by
  unfold classify
  cases g.isType3 <;> cases g.isType2 <;> cases g.isType1 <;> decide

theorem contextFree_le_classify_iff :
    Level.contextFree.number ≤ g.classify.number ↔ g.isType3 ∨ g.isType2 := by
  unfold classify
  cases g.isType3 <;> cases g.isType2 <;> cases g.isType1 <;> decide

theorem contextSensitive_le_classify_iff :
    Level.contextSensitive.number ≤ g.classify.number ↔ g.isType3 ∨ g.isType2 ∨ g.isType1 := by
  unfold classify
  cases g.isType3 <;> cases g.isType2 <;> cases g.isType1 <;> decide

/-- A grammar that passes each check that another one passes is at least as high. -/
theorem classify_le (type3 : h.isType3 → g.isType3) (type2 : h.isType2 → g.isType2)
    (type1 : h.isType1 → g.isType1) : h.classify.number ≤ g.classify.number := by
  cases level : h.classify with
  | unrestricted => exact Nat.zero_le _
  | contextSensitive =>
    have passed := contextSensitive_le_classify_iff.1 (congrArg Level.number level).ge
    exact contextSensitive_le_classify_iff.2 (passed.imp type3 (Or.imp type2 type1))
  | contextFree =>
    have passed := contextFree_le_classify_iff.1 (congrArg Level.number level).ge
    exact contextFree_le_classify_iff.2 (passed.imp type3 type2)
  | regular =>
    rw [classify_eq_regular_iff.2 (type3 (classify_eq_regular_iff.1 level))]

/-! ## From one level to the next -/

theorem IsTidy.isType2_of_isType3 (tidy : g.IsTidy) (regular : g.isType3) : g.isType2 := by
  obtain ⟨side, linear⟩ := isType3_iff.1 regular
  exact isType2_iff.2 fun rule declared => (tidy.isLinear_iff.1 linear rule declared).1

theorem IsTidy.isType1_of_isType2 (tidy : g.IsTidy) (contextFree : g.isType2)
    (start : ∀ rule ∈ g.rules, rule.right = emptyMarker → rule.left = g.start) : g.isType1 := by
  refine isType1_iff.2 fun rule declared => ⟨start rule declared, ?_⟩
  obtain ⟨n, single, _⟩ := isSingleNonTerminal_iff.1 (isType2_iff.1 contextFree rule declared)
  have filled := (tidy.isSolid_of_mem_rules declared).2.ne_nil
  rw [single]
  exact List.length_pos_iff.2 filled

theorem IsTidy.isType1_of_isType3 (tidy : g.IsTidy) (regular : g.isType3) : g.isType1 := by
  obtain ⟨side, linear⟩ := isType3_iff.1 regular
  refine tidy.isType1_of_isType2 (tidy.isType2_of_isType3 regular) ?_
  intro rule declared empty
  have fits := (tidy.isLinear_iff.1 linear rule declared).2
  rwa [FitsLinear, (tidy.isSolid_of_mem_rules declared).2.trim, if_pos empty] at fits

/-- Of the grammars that were read, the regular ones are context-free and context-sensitive, and the
context-free ones are context-sensitive when only the start symbol may vanish. So the level tells
which of the checks hold. -/
theorem nested_of_isRead (g : Grammar) (read : g.IsRead) :
    (g.isType3 → g.isType2 ∧ g.isType1) ∧
      (g.isType2 → (∀ rule ∈ g.rules, rule.right = emptyMarker → rule.left = g.start) →
        g.isType1) ∧
      (Level.contextFree.number ≤ g.classify.number ↔ g.isType2) ∧
      (g.classify = .regular ↔ g.isType3) ∧
      (Level.contextSensitive.number ≤ g.classify.number ↔ g.isType2 ∨ g.isType1) := by
  have tidy := read.tidy
  have contextFree : g.isType3 → g.isType2 := tidy.isType2_of_isType3
  refine ⟨?_, tidy.isType1_of_isType2, ?_, classify_eq_regular_iff, ?_⟩
  · intro regular
    exact ⟨contextFree regular, tidy.isType1_of_isType3 regular⟩
  · rw [contextFree_le_classify_iff]
    exact or_iff_right_of_imp contextFree
  · rw [contextSensitive_le_classify_iff]
    exact or_iff_right_of_imp fun regular => Or.inl (contextFree regular)

theorem isRead_powers : powers.IsRead :=
  .declared
    { terminals := ["a".toList]
      nonTerminals := ["S".toList]
      start := "S".toList
      rules := ["S -> aS | $".toList] }
    (by rfl)

theorem nested_powers :
    powers.IsRead ∧ powers.isType3 = true ∧ powers.isType2 = true ∧ powers.isType1 = true ∧
      Level.contextFree.number ≤ powers.classify.number ∧ powers.classify = .regular ∧
      Level.contextSensitive.number ≤ powers.classify.number := by
  obtain ⟨stricter, vanishing, contextFree, regular, contextSensitive⟩ :=
    nested_of_isRead powers isRead_powers
  have type3 : powers.isType3 = true := by decide
  have type2 : powers.isType2 = true := (stricter type3).1
  have type1 : powers.isType1 = true := vanishing type2 (by decide)
  exact ⟨isRead_powers, type3, type2, type1, contextFree.2 type2, regular.2 type3,
    contextSensitive.2 (Or.inl type2)⟩

/-! ## Fewer rules -/

/-- The same terminals, non-terminals and start symbol. The order of the symbols does not matter. -/
structure SameSymbols (g h : Grammar) : Prop where
  terminals : ∀ w, w ∈ g.terminals ↔ w ∈ h.terminals
  nonTerminals : ∀ w, w ∈ g.nonTerminals ↔ w ∈ h.nonTerminals
  start : g.start = h.start

namespace SameSymbols

theorem symm (same : g.SameSymbols h) : h.SameSymbols g where
  terminals w := (same.terminals w).symm
  nonTerminals w := (same.nonTerminals w).symm
  start := same.start.symm

theorem isSingleNonTerminal_iff (same : g.SameSymbols h) :
    g.isSingleNonTerminal w ↔ h.isSingleNonTerminal w := by
  simp only [Grammar.isSingleNonTerminal_iff, same.nonTerminals]

theorem fitsLinear_iff (same : g.SameSymbols h) :
    g.FitsLinear side left right ↔ h.FitsLinear side left right := by
  simp only [FitsLinear, allows_linearityOf_iff, same.terminals, same.nonTerminals, same.start]

variable (same : g.SameSymbols h) (fewer : g.rules ⊆ h.rules)

include same fewer

theorem isType3_of_subset (g_tidy : g.IsTidy) (h_tidy : h.IsTidy) (regular : h.isType3) :
    g.isType3 := by
  obtain ⟨side, linear⟩ := isType3_iff.1 regular
  refine isType3_iff.2 ⟨side, g_tidy.isLinear_iff.2 fun rule declared => ?_⟩
  obtain ⟨single, fits⟩ := h_tidy.isLinear_iff.1 linear rule (fewer declared)
  exact ⟨same.isSingleNonTerminal_iff.2 single, same.fitsLinear_iff.2 fits⟩

theorem isType2_of_subset (contextFree : h.isType2) : g.isType2 :=
  isType2_iff.2 fun rule declared =>
    same.isSingleNonTerminal_iff.2 (isType2_iff.1 contextFree rule (fewer declared))

theorem isType1_of_subset (contextSensitive : h.isType1) : g.isType1 := by
  refine isType1_iff.2 fun rule declared => ?_
  rw [same.start]
  exact isType1_iff.1 contextSensitive rule (fewer declared)

theorem classify_le (g_tidy : g.IsTidy) (h_tidy : h.IsTidy) :
    h.classify.number ≤ g.classify.number :=
  Grammar.classify_le (same.isType3_of_subset fewer g_tidy h_tidy)
    (same.isType2_of_subset fewer) (same.isType1_of_subset fewer)

end SameSymbols

/-- Over the same symbols, a grammar with more rules is on no higher level, and one with the same
rules is on the same level, however they are ordered, grouped and repeated. -/
theorem classify_antitone (g h : Grammar) (g_read : g.IsRead) (h_read : h.IsRead)
    (same : g.SameSymbols h) :
    (g.rules ⊆ h.rules → h.classify.number ≤ g.classify.number) ∧
      ((∀ rule, rule ∈ g.rules ↔ rule ∈ h.rules) → h.classify = g.classify) := by
  refine ⟨fun fewer => same.classify_le fewer g_read.tidy h_read.tidy, ?_⟩
  intro rules
  have down : h.classify.number ≤ g.classify.number :=
    same.classify_le (fun rule => (rules rule).1) g_read.tidy h_read.tidy
  have up : g.classify.number ≤ h.classify.number :=
    same.symm.classify_le (fun rule => (rules rule).2) h_read.tidy g_read.tidy
  exact Level.number_injective (le_antisymm down up)

/-- Words of `trailing`, any number of them one behind the other. -/
def chained : Grammar where
  terminals := [['b'], ['a']]
  nonTerminals := [['A'], ['S']]
  start := ['S']
  productions :=
    ⟨[⟨['A'], [['a'], ['A', 'a'], ['a']]⟩, ⟨['S'], [['S', 'S'], ['A', 'b']]⟩], by decide⟩
  terminals_nodup := by decide
  nonTerminals_nodup := by decide
  marker_not_mem := by decide
  disjoint := by decide
  start_mem := by decide

theorem isRead_chained : chained.IsRead :=
  .declared
    { terminals := ["b a".toList, "a".toList]
      nonTerminals := ["A S".toList]
      start := "S".toList
      rules := ["A -> a | A a".toList, "S -> SS | Ab".toList, "A -> a".toList] }
    (by rfl)

theorem classify_chained :
    trailing.IsRead ∧ chained.IsRead ∧ trailing.SameSymbols chained ∧
      trailing.rules ⊆ chained.rules ∧ trailing.classify = .regular ∧
      chained.classify.number ≤ trailing.classify.number ∧ chained.classify = .contextFree := by
  have same : trailing.SameSymbols chained := {
    terminals := by simp [trailing, chained, or_comm]
    nonTerminals := by simp [trailing, chained, or_comm]
    start := rfl }
  have fewer : trailing.rules ⊆ chained.rules := by decide
  have level := (classify_antitone trailing chained isRead_trailing isRead_chained same).1 fewer
  exact ⟨isRead_trailing, isRead_chained, same, fewer, by decide, level, by decide⟩

end Grammar

end Chomsky
