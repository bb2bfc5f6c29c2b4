import Chomsky.Grammar.Production
import Chomsky.Text.Blank

/-!
# Written rules

A rule is written `A -> aA | b`. Symbols are single characters, so blanks carry no meaning inside a
side and are dropped: `S -> a S b` is the rule `S -> aSb`. A written list of symbols separates them
by blanks.
-/

namespace Chomsky

/-- The symbols of a written list. -/
def readSymbols (line : Text) : List Word := Text.words line

namespace Production

/-- The texts before and after the first arrow `->`. -/
def splitArrow : Text → Option (Text × Text)
  | [] => none
  | '-' :: '>' :: rest => some ([], rest)
  | c :: rest => (splitArrow rest).map fun (before, after) => (c :: before, after)

/-- Blanks in front of a line stay in front of its arrow. -/
theorem splitArrow_blank_append {front : Text} (blank : ∀ c ∈ front, Text.isBlank c = true)
    (t : Text) :
    splitArrow (front ++ t) =
      (splitArrow t).map fun (before, after) => (front ++ before, after) := by
  induction front with
  | nil => simp
  | cons c front ih =>
    obtain ⟨first, others⟩ := List.forall_mem_cons.1 blank
    have other : c ≠ '-' := by
      rintro rfl
      cases first
    rw [List.cons_append, splitArrow, ih others]
    · cases splitArrow t <;> rfl
    · intro _ same
      exact absurd same other

/-- Blanks at the end of a line stay behind its arrow. -/
theorem splitArrow_append_blank {back : Text} (blank : ∀ c ∈ back, Text.isBlank c = true)
    (t : Text) :
    splitArrow (t ++ back) = (splitArrow t).map fun (before, after) => (before, after ++ back) := by
  fun_induction splitArrow t with
  | case1 =>
    have alone := splitArrow_blank_append blank []
    rw [List.append_nil] at alone
    exact alone
  | case2 rest => rfl
  | case3 c rest noArrow ih =>
    rw [List.cons_append, splitArrow, ih]
    · cases splitArrow rest <;> rfl
    · intro later dash head
      cases rest with
      | nil =>
        have stop : Text.isBlank '>' = true := blank '>' (by simp_all)
        cases stop
      | cons d rest =>
        obtain ⟨rfl, _⟩ := List.cons.inj head
        exact noArrow rest dash rfl

/-- What is wrong with a written rule. -/
inductive Flaw where
  | noArrow
  | secondArrow
  | noLeftSide
  | emptyAlternative
  deriving DecidableEq, Repr

/-- A line that is no rule, with its first flaw. -/
structure Unreadable where
  line : Text
  flaw : Flaw
  deriving DecidableEq, Repr

def Flaw.message : Flaw → Text
  | noArrow => "expected the form 'A -> aA'".toList
  | secondArrow => "more than one '->'".toList
  | noLeftSide => "missing left-hand side".toList
  | emptyAlternative => "empty alternative (use '$' for the empty string)".toList

def Unreadable.message (u : Unreadable) : Text :=
  "invalid rule '".toList ++ Text.trim u.line ++ "': ".toList ++ u.flaw.message

/-- The alternatives of the text after the arrow, or `none` when one is blank. -/
def readAlternatives (text : Text) : Option (List Word) :=
  (Text.pieces (· == '|') text).mapM fun piece =>
    let alternative := Text.squeeze piece
    if alternative.isEmpty then none else some alternative

/-- There is one alternative for each piece between bars: the piece without its blanks. -/
theorem readAlternatives_eq_some_iff {text : Text} {alternatives : List Word} :
    readAlternatives text = some alternatives ↔
      alternatives = (Text.pieces (· == '|') text).map Text.squeeze ∧
        ∀ w ∈ alternatives, w ≠ [] := by
  unfold readAlternatives
  generalize Text.pieces (· == '|') text = parts
  induction parts generalizing alternatives with
  | nil =>
    constructor
    · intro read
      obtain rfl := Option.some.inj read
      exact ⟨rfl, by simp⟩
    · rintro ⟨rfl, _⟩
      rfl
  | cons part parts ih =>
    rw [List.mapM_cons]
    by_cases blank : Text.squeeze part = []
    · have refused : (Text.squeeze part).isEmpty = true := List.isEmpty_iff.2 blank
      simp only [refused, if_true]
      constructor
      · intro read
        cases read
      · rintro ⟨rfl, filled⟩
        exact absurd blank (filled _ (by simp))
    · have taken : (Text.squeeze part).isEmpty = false := List.isEmpty_eq_false_iff.2 blank
      simp only [taken, Bool.false_eq_true, if_false, Option.bind_eq_bind, Option.bind_some]
      rw [Option.bind_eq_some_iff]
      constructor
      · rintro ⟨others, read, same⟩
        obtain ⟨rfl, filled⟩ := ih.1 read
        obtain rfl := Option.some.inj same
        exact ⟨rfl, List.forall_mem_cons.2 ⟨blank, filled⟩⟩
      · rintro ⟨rfl, filled⟩
        exact ⟨_, ih.2 ⟨rfl, (List.forall_mem_cons.1 filled).2⟩, rfl⟩

theorem readAlternatives_eq_none_iff {text : Text} :
    readAlternatives text = none ↔
      ∃ piece ∈ Text.pieces (· == '|') text, Text.squeeze piece = [] := by
  constructor
  · intro refused
    refine Classical.byContradiction fun none_blank => ?_
    have filled : ∀ piece ∈ Text.pieces (· == '|') text, Text.squeeze piece ≠ [] :=
      fun piece member blank => none_blank ⟨piece, member, blank⟩
    have read : readAlternatives text =
        some ((Text.pieces (· == '|') text).map Text.squeeze) :=
      readAlternatives_eq_some_iff.2 ⟨rfl, List.forall_mem_map.2 filled⟩
    rw [refused] at read
    cases read
  · rintro ⟨piece, member, blank⟩
    rw [Option.eq_none_iff_forall_not_mem]
    intro alternatives read
    obtain ⟨rfl, filled⟩ := readAlternatives_eq_some_iff.1 read
    exact filled _ (List.mem_map_of_mem member) blank

/-- Blanks may be dropped before or after a text is cut at its bars. -/
theorem map_squeeze_pieces (text : Text) :
    (Text.pieces (· == '|') text).map Text.squeeze = Text.pieces (· == '|') (Text.squeeze text) := by
  refine Text.map_squeeze_pieces (fun c bar => ?_) text
  obtain rfl := beq_iff_eq.1 bar
  rfl

/-- The blanks in a text make no difference to its alternatives. -/
theorem readAlternatives_congr {text other : Text}
    (same : Text.squeeze text = Text.squeeze other) :
    readAlternatives text = readAlternatives other := by
  ext alternatives
  rw [readAlternatives_eq_some_iff, readAlternatives_eq_some_iff, map_squeeze_pieces,
    map_squeeze_pieces, same]

def readSides (line : Text) : Except Flaw Production :=
  match splitArrow line with
  | none => .error .noArrow
  | some (before, after) =>
    if (splitArrow after).isSome then .error .secondArrow
    else
      let left := Text.squeeze before
      if left.isEmpty then .error .noLeftSide
      else
        match readAlternatives after with
        | none => .error .emptyAlternative
        | some alternatives => .ok ⟨left, alternatives⟩

/-- Reads `A -> x | y`. -/
def read (line : Text) : Except Unreadable Production := (readSides line).mapError (⟨line, ·⟩)

/-- A line is read as a rule exactly when it has one arrow, a left-hand side and readable
alternatives. -/
theorem readSides_eq_ok_iff {line : Text} {p : Production} :
    readSides line = .ok p ↔
      ∃ before after, splitArrow line = some (before, after) ∧ splitArrow after = none ∧
        p.left = Text.squeeze before ∧ p.left ≠ [] ∧
        readAlternatives after = some p.alternatives := by
  constructor
  · intro read
    unfold readSides at read
    split at read
    · cases read
    · next before after arrow =>
      split at read
      · cases read
      · next single =>
        dsimp only at read
        split at read
        · cases read
        · next filled =>
          split at read
          · cases read
          · next alternatives found =>
            obtain rfl := Except.ok.inj read
            exact ⟨before, after, arrow, by simpa using single, rfl, by simpa using filled, found⟩
  · rintro ⟨before, after, arrow, single, left, filled, found⟩
    obtain ⟨_, alternatives⟩ := p
    obtain rfl : _ = Text.squeeze before := left
    simp [readSides, arrow, single, List.isEmpty_eq_false_iff.2 filled, found]

theorem read_eq_ok_iff {line : Text} {p : Production} :
    read line = .ok p ↔ readSides line = .ok p := by
  rw [read]
  cases readSides line with
  | error flaw =>
    constructor <;> intro refused <;> cases refused
  | ok q =>
    constructor
    · intro accepted
      obtain rfl := Except.ok.inj accepted
      rfl
    · intro accepted
      obtain rfl := Except.ok.inj accepted
      rfl

/-- Blanks at the ends of a line make no difference to the rule in it. -/
theorem readSides_trim (line : Text) : readSides (Text.trim line) = readSides line := by
  obtain ⟨front, back, front_blank, back_blank, same⟩ := Text.exists_trim line
  have left : ∀ before : Text, Text.squeeze (front ++ before) = Text.squeeze before := by
    simp [Text.squeeze_append, Text.squeeze_eq_nil_iff.2 front_blank]
  have right : ∀ after : Text, readAlternatives (after ++ back) = readAlternatives after :=
    fun after => readAlternatives_congr (by
      simp [Text.squeeze_append, Text.squeeze_eq_nil_iff.2 back_blank])
  conv => rhs; rw [same]
  generalize Text.trim line = t
  rw [readSides, readSides, splitArrow_append_blank back_blank, splitArrow_blank_append front_blank]
  cases splitArrow t with
  | none => rfl
  | some sides => simp [splitArrow_append_blank back_blank, left, right]

end Production

end Chomsky
