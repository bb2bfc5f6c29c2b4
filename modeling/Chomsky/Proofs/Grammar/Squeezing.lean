import Chomsky.Proofs.Grammar.Display

/-!
# Rules without blanks

A line is cut at its arrow and at its bars before the blanks are dropped. Blanks do not hide a bar,
but one blank hides an arrow: `S -> a - > b` has an arrow in its only alternative. So a line that is
a rule stays this rule without its blanks, unless a side has an arrow in it; then there is more
than one arrow. Main statement: `Production.read_squeeze`.
-/

namespace Chomsky

namespace Text

variable {isSeparator : Char → Bool} {needle t first : Text} {others : List Text}

/-- A text without separators stands in front when it stands in front of the first piece. -/
theorem prefix_iff_of_pieces_eq (solid : ∀ c ∈ needle, isSeparator c = false)
    (parts : pieces isSeparator t = first :: others) : needle <+: t ↔ needle <+: first := by
  induction t generalizing needle first others with
  | nil =>
    obtain ⟨rfl, _⟩ := List.cons.inj parts
    rfl
  | cons c t ih =>
    obtain ⟨front, rest, cut⟩ := List.exists_cons_of_ne_nil (pieces_ne_nil isSeparator t)
    cases needle with
    | nil => simp
    | cons n needle =>
      obtain ⟨head, tail⟩ := List.forall_mem_cons.1 solid
      rw [pieces, cut] at parts
      split at parts
      · next separator =>
        obtain ⟨rfl, _⟩ := List.cons.inj parts
        have other : n ≠ c := by
          rintro rfl
          simp [head] at separator
        simp [other]
      · obtain ⟨rfl, _⟩ := List.cons.inj parts
        rw [List.cons_prefix_cons, List.cons_prefix_cons, ih tail cut]

/-- A text without separators stands in one of the pieces, if it stands anywhere. -/
theorem infix_iff_exists_mem_pieces (solid : ∀ c ∈ needle, isSeparator c = false) (t : Text) :
    needle <:+: t ↔ ∃ piece ∈ pieces isSeparator t, needle <:+: piece := by
  induction t with
  | nil => simp [pieces]
  | cons c t ih =>
    obtain ⟨front, rest, cut⟩ := List.exists_cons_of_ne_nil (pieces_ne_nil isSeparator t)
    have parts : pieces isSeparator (c :: t) =
        if isSeparator c then [] :: front :: rest else (c :: front) :: rest := by
      rw [pieces, cut, List.modifyHead_cons]
    rw [List.infix_cons_iff, ih, cut]
    split at parts
    · rw [prefix_iff_of_pieces_eq solid parts, parts]
      simp
    · rw [prefix_iff_of_pieces_eq solid parts, parts]
      simp [List.infix_cons_iff, or_assoc]

end Text

namespace Production

/-- No side has an arrow in it. -/
def IsArrowless (p : Production) : Prop :=
  ¬ "->".toList <:+: p.left ∧ ∀ w ∈ p.alternatives, ¬ "->".toList <:+: w

variable {line before after : Text} {p : Production}

theorem squeeze_of_splitArrow (cut : splitArrow line = some (before, after)) :
    Text.squeeze line = Text.squeeze before ++ '-' :: '>' :: Text.squeeze after := by
  obtain ⟨rfl, _⟩ := splitArrow_eq_some_iff.1 cut
  rw [Text.squeeze_append]
  rfl

/-- The alternatives have no arrow when the text that they were cut from has none. -/
theorem splitArrow_squeeze_eq_none_iff (read : readAlternatives after = some p.alternatives) :
    splitArrow (Text.squeeze after) = none ↔ ∀ w ∈ p.alternatives, ¬ "->".toList <:+: w := by
  obtain ⟨cut, _⟩ := readAlternatives_eq_some_iff.1 read
  rw [map_squeeze_pieces] at cut
  have solid : ∀ c ∈ "->".toList, (c == '|') = false := by simp
  rw [splitArrow_eq_none_iff, Text.infix_iff_exists_mem_pieces solid, cut]
  simp

/-- Two arrows, wherever they stand. -/
theorem readSides_of_two_arrows (first : splitArrow before ≠ none ∨ splitArrow after ≠ none) :
    readSides (before ++ '-' :: '>' :: after) = .error .secondArrow := by
  cases cut : splitArrow before with
  | none =>
    have second : (splitArrow after).isSome := by
      simpa [cut, Option.isSome_iff_ne_none] using first
    rw [readSides, splitArrow_append cut after]
    simp [second]
  | some sides =>
    obtain ⟨front, middle⟩ := sides
    obtain ⟨rfl, arrowless⟩ := splitArrow_eq_some_iff.1 cut
    have second : (splitArrow (middle ++ '-' :: '>' :: after)).isSome := by
      rw [Option.isSome_iff_ne_none]
      exact fun single => splitArrow_eq_none_iff.1 single ⟨middle, after, by simp⟩
    rw [readSides, List.append_assoc, List.cons_append, List.cons_append,
      splitArrow_append arrowless]
    simp [second]

/-- A line that is a rule is the same rule without its blanks, unless one of its sides has an arrow
in it. Then the line without blanks has a second arrow and is no rule. -/
theorem read_squeeze (line : Text) (p : Production) (accepted : read line = .ok p) :
    (p.IsArrowless → read (Text.squeeze line) = .ok p) ∧
      (¬ p.IsArrowless →
        read (Text.squeeze line) = .error ⟨Text.squeeze line, .secondArrow⟩) := by
  obtain ⟨before, after, cut, _, left, filled, found⟩ :=
    readSides_eq_ok_iff.1 (read_eq_ok_iff.1 accepted)
  have whole := squeeze_of_splitArrow cut
  have arrowless_iff : p.IsArrowless ↔
      splitArrow (Text.squeeze before) = none ∧ splitArrow (Text.squeeze after) = none := by
    rw [IsArrowless, splitArrow_squeeze_eq_none_iff found, left, splitArrow_eq_none_iff]
  rw [arrowless_iff]
  constructor
  · rintro ⟨front, back⟩
    rw [read_eq_ok_iff, readSides_eq_ok_iff]
    refine ⟨_, _, whole ▸ splitArrow_append front _, back, ?_, filled, ?_⟩
    · rw [left, Text.squeeze_squeeze]
    · rw [← found]
      exact readAlternatives_congr (Text.squeeze_squeeze after)
  · intro arrow
    have refused : readSides (Text.squeeze line) = .error .secondArrow := by
      rw [whole]
      exact readSides_of_two_arrows (Classical.not_and_iff_not_or_not.1 arrow)
    rw [read, refused]
    rfl

/-- A bar between dash and angle, an angle behind the arrow and a dash in front of it. -/
theorem read_squeeze_bordered :
    read "- C - -> > | - | > -".toList = .ok ⟨"-C-".toList, [['>'], ['-'], ['>', '-']]⟩ ∧
      IsArrowless ⟨"-C-".toList, [['>'], ['-'], ['>', '-']]⟩ ∧
      read (Text.squeeze "- C - -> > | - | > -".toList) =
        .ok ⟨"-C-".toList, [['>'], ['-'], ['>', '-']]⟩ := by
  have accepted : read "- C - -> > | - | > -".toList =
      .ok ⟨"-C-".toList, [['>'], ['-'], ['>', '-']]⟩ := by rfl
  have arrowless : IsArrowless ⟨"-C-".toList, [['>'], ['-'], ['>', '-']]⟩ := by
    unfold IsArrowless
    decide
  exact ⟨accepted, arrowless, (read_squeeze _ _ accepted).1 arrowless⟩

/-- The blank between dash and angle makes the difference between a rule and no rule. -/
theorem read_hidden_arrow :
    read "S -> a - > b".toList = .ok ⟨['S'], ["a->b".toList]⟩ ∧
      read (Text.squeeze "S -> a - > b".toList) = .error ⟨"S->a->b".toList, .secondArrow⟩ :=
  ⟨by rfl, by rfl⟩

end Production

end Chomsky
