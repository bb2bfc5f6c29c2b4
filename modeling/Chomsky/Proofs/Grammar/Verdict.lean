import Chomsky.Error
import Chomsky.Proofs.Grammar.Squeezing
import Chomsky.Text.Occurrence

/-!
# Verdicts on lines

A line is a rule when one arrow stands in it, something stands before the arrow, and something
stands in each piece between the bars behind it (`Production.IsRule`). Any other line is refused for
the first of four flaws that it has (`Production.Verdict`). The verdict counts the arrows of a line;
the reader looks for the first one and then for another one behind it, and both come to the same
(`Production.cuts_of_splitArrow`). Main statement: `Production.read_eq_iff`.
-/

namespace Chomsky

/-- Some character is not blank. -/
def Text.IsFilled (t : Text) : Prop := ∃ c ∈ t, isBlank c = false

theorem Text.isFilled_iff {t : Text} : IsFilled t ↔ squeeze t ≠ [] := by
  simp [IsFilled, squeeze_eq_nil_iff]

namespace Production

variable {line before after : Text} {outcome : Except Flaw Production}

/-! ## Arrows -/

theorem cuts_eq_nil_iff : Text.cuts "->".toList line = [] ↔ splitArrow line = none := by
  rw [splitArrow_eq_none_iff, List.eq_nil_iff_forall_not_mem]
  constructor
  · rintro absent ⟨front, back, rfl⟩
    exact absent (front, back) ((Text.mem_cuts_iff (by simp)).2 rfl)
  · rintro absent ⟨front, back⟩ cut
    exact absent ⟨front, back, ((Text.mem_cuts_iff (by simp)).1 cut).symm⟩

/-- The first cut is at the first arrow, and the others are those of the text behind it. -/
theorem cuts_of_splitArrow (cut : splitArrow line = some (before, after)) :
    Text.cuts "->".toList line =
      (before, after) :: (Text.cuts "->".toList after).map fun (front, back) =>
        (before ++ "->".toList ++ front, back) := by
  fun_induction splitArrow line generalizing before with
  | case1 => cases cut
  | case2 rest =>
    obtain ⟨rfl, rfl⟩ := Prod.mk.inj (Option.some.inj cut)
    simp [Text.cuts, Text.dropPrefix?, Function.comp_def]
  | case3 c rest noArrow ih =>
    obtain ⟨⟨front, back⟩, later, same⟩ := Option.map_eq_some_iff.1 cut
    obtain ⟨rfl, rfl⟩ := Prod.mk.inj same
    have here : Text.dropPrefix? "->".toList (c :: rest) = none := by
      rw [Option.eq_none_iff_forall_not_mem]
      intro behind found
      obtain ⟨dash, head⟩ := List.cons.inj (Text.eq_append_of_dropPrefix? found)
      exact noArrow behind dash head
    rw [Text.cuts, here, ih later]
    simp [Function.comp_def]

/-- The arrow is the only one. -/
theorem cuts_eq_singleton_iff :
    Text.cuts "->".toList line = [(before, after)] ↔
      splitArrow line = some (before, after) ∧ splitArrow after = none := by
  cases cut : splitArrow line with
  | none =>
    rw [cuts_eq_nil_iff.2 cut]
    simp
  | some sides =>
    obtain ⟨front, back⟩ := sides
    rw [cuts_of_splitArrow cut, ← cuts_eq_nil_iff]
    constructor
    · intro single
      obtain ⟨same, none_behind⟩ := List.cons.inj single
      obtain ⟨rfl, rfl⟩ := Prod.mk.inj same
      exact ⟨rfl, List.map_eq_nil_iff.1 none_behind⟩
    · rintro ⟨same, none_behind⟩
      obtain ⟨rfl, rfl⟩ := Prod.mk.inj (Option.some.inj same)
      rw [none_behind]
      rfl

/-- A second arrow stands behind the first one. -/
theorem one_lt_length_cuts_iff :
    1 < (Text.cuts "->".toList line).length ↔
      ∃ before after, splitArrow line = some (before, after) ∧ (splitArrow after).isSome := by
  cases cut : splitArrow line with
  | none =>
    rw [cuts_eq_nil_iff.2 cut]
    simp
  | some sides =>
    obtain ⟨front, back⟩ := sides
    have behind : 0 < (Text.cuts "->".toList back).length ↔ (splitArrow back).isSome := by
      rw [List.length_pos_iff, Option.isSome_iff_ne_none, ne_eq, ne_eq, cuts_eq_nil_iff]
    rw [cuts_of_splitArrow cut, List.length_cons, List.length_map, Nat.lt_add_left_iff_pos, behind]
    constructor
    · intro second
      exact ⟨front, back, rfl, second⟩
    · rintro ⟨before, after, same, second⟩
      obtain ⟨rfl, rfl⟩ := Prod.mk.inj (Option.some.inj same)
      exact second

/-! ## Verdicts -/

/-- One arrow stands in the line, and neither the text before it nor any piece between the bars
behind it is blank. -/
structure IsRule (line before after : Text) : Prop where
  single : Text.cuts "->".toList line = [(before, after)]
  left : Text.IsFilled before
  alternatives : ∀ piece ∈ Text.pieces (· == '|') after, Text.IsFilled piece

/-- What there is to say of a line: the rule that it is, or the first flaw that it has. -/
inductive Verdict (line : Text) : Except Flaw Production → Prop
  | noArrow (absent : Text.cuts "->".toList line = []) : Verdict line (.error .noArrow)
  | secondArrow (several : 1 < (Text.cuts "->".toList line).length) :
    Verdict line (.error .secondArrow)
  | noLeftSide {before after : Text} (single : Text.cuts "->".toList line = [(before, after)])
      (blank : ∀ c ∈ before, Text.isBlank c = true) : Verdict line (.error .noLeftSide)
  | emptyAlternative {before after : Text}
      (single : Text.cuts "->".toList line = [(before, after)]) (left : Text.IsFilled before)
      (blank : ∃ piece ∈ Text.pieces (· == '|') after, ∀ c ∈ piece, Text.isBlank c = true) :
    Verdict line (.error .emptyAlternative)
  | rule {before after : Text} (sides : IsRule line before after) :
    Verdict line
      (.ok ⟨Text.squeeze before, (Text.pieces (· == '|') after).map Text.squeeze⟩)

theorem verdict_readSides (line : Text) : Verdict line (readSides line) := by
  rw [readSides]
  split
  · next cut => exact .noArrow (cuts_eq_nil_iff.2 cut)
  · next before after cut =>
    split
    · next second => exact .secondArrow (one_lt_length_cuts_iff.2 ⟨before, after, cut, second⟩)
    · next last =>
      have single : Text.cuts "->".toList line = [(before, after)] :=
        cuts_eq_singleton_iff.2 ⟨cut, by simpa using last⟩
      dsimp only
      split
      · next blank =>
        exact .noLeftSide single (Text.squeeze_eq_nil_iff.1 (List.isEmpty_iff.1 blank))
      · next filled =>
        have left : Text.IsFilled before := Text.isFilled_iff.2 (by simpa using filled)
        split
        · next refused =>
          obtain ⟨piece, member, blank⟩ := readAlternatives_eq_none_iff.1 refused
          exact .emptyAlternative single left ⟨piece, member, Text.squeeze_eq_nil_iff.1 blank⟩
        · next alternatives read =>
          obtain ⟨rfl, squeezed⟩ := readAlternatives_eq_some_iff.1 read
          exact .rule ⟨single, left, fun piece member =>
            Text.isFilled_iff.2 (squeezed _ (List.mem_map_of_mem member))⟩

theorem Verdict.readSides_eq (verdict : Verdict line outcome) : readSides line = outcome := by
  cases verdict with
  | noArrow absent => rw [readSides, cuts_eq_nil_iff.1 absent]
  | secondArrow several =>
    obtain ⟨before, after, cut, second⟩ := one_lt_length_cuts_iff.1 several
    rw [readSides, cut]
    exact if_pos second
  | noLeftSide single blank =>
    obtain ⟨cut, last⟩ := cuts_eq_singleton_iff.1 single
    simp [readSides, cut, last, Text.squeeze_eq_nil_iff.2 blank]
  | emptyAlternative single left blank =>
    obtain ⟨cut, last⟩ := cuts_eq_singleton_iff.1 single
    obtain ⟨piece, member, blank⟩ := blank
    have refused := readAlternatives_eq_none_iff.2
      ⟨piece, member, Text.squeeze_eq_nil_iff.2 blank⟩
    simp [readSides, cut, last, Text.isFilled_iff.1 left, refused]
  | rule sides =>
    obtain ⟨cut, last⟩ := cuts_eq_singleton_iff.1 sides.single
    have filled : ∀ w ∈ (Text.pieces (· == '|') _).map Text.squeeze, w ≠ [] :=
      List.forall_mem_map.2 fun piece member => Text.isFilled_iff.1 (sides.alternatives piece member)
    exact readSides_eq_ok_iff.2 ⟨_, _, cut, last, rfl, Text.isFilled_iff.1 sides.left,
      readAlternatives_eq_some_iff.2 ⟨rfl, filled⟩⟩

theorem readSides_eq_iff : readSides line = outcome ↔ Verdict line outcome := by
  constructor
  · rintro rfl
    exact verdict_readSides line
  · exact Verdict.readSides_eq

/-- Each bar ends an alternative, and no character of the line is lost but its blanks. -/
theorem IsRule.conserves (sides : IsRule line before after) :
    ((Text.pieces (· == '|') after).map Text.squeeze).length = after.count '|' + 1 ∧
      Text.squeeze line = Text.squeeze before ++ "->".toList ++
        Text.joinWith ['|'] ((Text.pieces (· == '|') after).map Text.squeeze) := by
  obtain ⟨cut, _⟩ := cuts_eq_singleton_iff.1 sides.single
  constructor
  · rw [List.length_map, Text.length_pieces, List.count_eq_countP]
  · rw [squeeze_of_splitArrow cut, map_squeeze_pieces, Text.joinWith_pieces, List.append_assoc]
    rfl

/-- The message names the trimmed line and its flaw. -/
theorem message_refused (line : Text) (flaw : Flaw) :
    (Error.parse none ⟨line, flaw⟩).message =
      "Parse error: invalid rule '".toList ++ Text.trim line ++ "': ".toList ++ flaw.message := by
  have parts : (Error.parse none ⟨line, flaw⟩).message = "Parse error: ".toList ++
      ("invalid rule '".toList ++ Text.trim line ++ "': ".toList ++ flaw.message) := rfl
  rw [parts]
  simp

/-- A line is read as the rule that it is, or refused for the first flaw that it has. There is one
alternative more than there are bars behind the arrow, and the sides with arrow and bars between
them are the line without its blanks. -/
theorem read_eq_iff (line : Text) :
    (∀ p, read line = .ok p ↔ Verdict line (.ok p)) ∧
      (∀ cause, read line = .error cause ↔
        cause.line = line ∧ Verdict line (.error cause.flaw)) ∧
      (∀ p, read line = .ok p → ∃ before after, IsRule line before after ∧
        p.alternatives.length = after.count '|' + 1 ∧
        Text.squeeze line = p.left ++ "->".toList ++ Text.joinWith ['|'] p.alternatives) ∧
      ∀ flaw, (Error.parse none ⟨line, flaw⟩).message =
        "Parse error: invalid rule '".toList ++ Text.trim line ++ "': ".toList ++
          flaw.message := by
  refine ⟨fun p => ?_, fun cause => ?_, fun p accepted => ?_, message_refused line⟩
  · rw [read_eq_ok_iff, readSides_eq_iff]
  · rw [← readSides_eq_iff, read]
    obtain ⟨text, flaw⟩ := cause
    cases readSides line with
    | ok p =>
      change (Except.ok p : Except Unreadable Production) = _ ↔ _
      simp
    | error first =>
      change (Except.error ⟨line, first⟩ : Except Unreadable Production) = _ ↔ _
      simp [eq_comm]
  · rw [read_eq_ok_iff, readSides_eq_iff] at accepted
    cases accepted with
    | rule sides => exact ⟨_, _, sides, sides.conserves⟩

end Production

end Chomsky
