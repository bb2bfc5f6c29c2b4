import Chomsky.Text.Basic

/-!
# Blank characters

Blank means the Unicode property `White_Space`: 25 characters, ASCII and beyond. Symbol lists are
split at blanks, the sides of a rule lose theirs, and input lines are trimmed by them.
-/

namespace Chomsky.Text

/-- The first and last code points of the runs of `White_Space` characters. -/
def blankRuns : List (Nat × Nat) :=
  [(0x9, 0xD), (0x20, 0x20), (0x85, 0x85), (0xA0, 0xA0), (0x1680, 0x1680), (0x2000, 0x200A),
    (0x2028, 0x2029), (0x202F, 0x202F), (0x205F, 0x205F), (0x3000, 0x3000)]

def isBlank (c : Char) : Bool :=
  blankRuns.any fun run => run.1 ≤ c.toNat && c.toNat ≤ run.2

/-- A text without its leading blanks. -/
def trimStart (t : Text) : Text := t.dropWhile isBlank

/-- A text without its trailing blanks. -/
def trimEnd (t : Text) : Text := (t.reverse.dropWhile isBlank).reverse

def trim (t : Text) : Text := trimEnd (trimStart t)

/-- A text without blanks has none at its ends. -/
theorem trim_eq_self {t : Text} (solid : ∀ c ∈ t, isBlank c = false) : trim t = t := by
  have keep : ∀ u : Text, (∀ c ∈ u, isBlank c = false) → u.dropWhile isBlank = u := by
    intro u solid
    cases u with
    | nil => rfl
    | cons c u => rw [List.dropWhile_cons_of_neg (by simp [solid c (by simp)])]
  rw [trim, trimStart, trimEnd, keep t solid, keep t.reverse (by simpa using solid),
    List.reverse_reverse]

theorem trimEnd_cons (c : Char) (t : Text) :
    trimEnd (c :: t) = if isBlank c ∧ trimEnd t = [] then [] else c :: trimEnd t := by
  unfold trimEnd
  rw [List.reverse_cons, List.dropWhile_append]
  cases t.reverse.dropWhile isBlank with
  | nil => cases blank : isBlank c <;> simp [blank]
  | cons d rest => simp

/-- The two ends are trimmed in either order. -/
theorem trimStart_trimEnd (t : Text) : trimStart (trimEnd t) = trimEnd (trimStart t) := by
  induction t with
  | nil => rfl
  | cons c t ih =>
    cases blank : isBlank c with
    | true =>
      have front : ∀ u : Text, trimStart (c :: u) = trimStart u :=
        fun u => List.dropWhile_cons_of_pos blank
      rw [front, ← ih, trimEnd_cons]
      by_cases empty : trimEnd t = []
      · simp [blank, empty]
      · simp [empty, front]
    | false =>
      have front : ∀ u : Text, trimStart (c :: u) = c :: u :=
        fun u => List.dropWhile_cons_of_neg (by simp [blank])
      have back : trimEnd (c :: t) = c :: trimEnd t := by simp [trimEnd_cons, blank]
      rw [back, front, front, back]

theorem trim_reverse (t : Text) : trim t.reverse = (trim t).reverse := by
  have start : ∀ u : Text, trimStart u.reverse = (trimEnd u).reverse := fun u => by
    rw [trimStart, trimEnd, List.reverse_reverse]
  have ends : ∀ u : Text, trimEnd u.reverse = (trimStart u).reverse := fun u => by
    rw [trimStart, trimEnd, List.reverse_reverse]
  rw [trim, trim, start, ends, trimStart_trimEnd]

/-- Blanks at the ends are trimmed away. -/
theorem trim_append_of_blank {front back : Text} (front_blank : ∀ c ∈ front, isBlank c = true)
    (t : Text) (back_blank : ∀ c ∈ back, isBlank c = true) :
    trim (front ++ t ++ back) = trim t := by
  have start : ∀ u : Text, trimStart (front ++ u) = trimStart u :=
    fun u => List.dropWhile_append_of_pos front_blank
  have ends : trimEnd (t ++ back) = trimEnd t := by
    rw [trimEnd, List.reverse_append, List.dropWhile_append_of_pos (by simpa using back_blank)]
    rfl
  rw [trim, List.append_assoc, start, ← trimStart_trimEnd, ends, trimStart_trimEnd, trim]

/-- What is trimmed away is blank. -/
theorem exists_trim (t : Text) :
    ∃ front back, (∀ c ∈ front, isBlank c = true) ∧ (∀ c ∈ back, isBlank c = true) ∧
      t = front ++ trim t ++ back := by
  refine ⟨t.takeWhile isBlank, ((trimStart t).reverse.takeWhile isBlank).reverse, ?_, ?_, ?_⟩
  · exact List.all_eq_true.1 List.all_takeWhile
  · intro c member
    exact List.all_eq_true.1 List.all_takeWhile c (List.mem_reverse.1 member)
  · have back := congrArg List.reverse
      (List.takeWhile_append_dropWhile (p := isBlank) (l := (trimStart t).reverse))
    rw [List.reverse_append, List.reverse_reverse] at back
    rw [List.append_assoc, trim, trimEnd, back, trimStart, List.takeWhile_append_dropWhile]

theorem trim_trim (t : Text) : trim (trim t) = trim t := by
  obtain ⟨front, back, front_blank, back_blank, same⟩ := exists_trim t
  rw [← trim_append_of_blank front_blank (trim t) back_blank, ← same]

/-- A text without any of its blanks. -/
def squeeze (t : Text) : Text := t.filter fun c => !isBlank c

/-- The maximal runs of characters that are not blank, from left to right. -/
def words (t : Text) : List Text := (pieces isBlank t).filter fun w => !w.isEmpty

theorem not_isBlank_of_mem_squeeze {t : Text} {c : Char} (member : c ∈ squeeze t) :
    isBlank c = false := by
  simpa using (List.mem_filter.1 member).2

theorem squeeze_append (s t : Text) : squeeze (s ++ t) = squeeze s ++ squeeze t :=
  List.filter_append ..

theorem squeeze_squeeze (t : Text) : squeeze (squeeze t) = squeeze t := by
  simp [squeeze, List.filter_filter]

theorem squeeze_eq_nil_iff {t : Text} : squeeze t = [] ↔ ∀ c ∈ t, isBlank c = true := by
  simp [squeeze, List.filter_eq_nil_iff]

/-- Blanks may be dropped before or after a text is cut at other characters. -/
theorem map_squeeze_pieces {isSeparator : Char → Bool}
    (solid : ∀ c, isSeparator c = true → isBlank c = false) (t : Text) :
    (pieces isSeparator t).map squeeze = pieces isSeparator (squeeze t) := by
  induction t with
  | nil => rfl
  | cons c t ih =>
    obtain ⟨piece, rest, parts⟩ := List.exists_cons_of_ne_nil (pieces_ne_nil isSeparator t)
    rw [parts, List.map_cons] at ih
    cases separator : isSeparator c with
    | true =>
      have kept : squeeze (c :: t) = c :: squeeze t := by simp [squeeze, solid c separator]
      have nil : squeeze [] = [] := rfl
      simp [kept, nil, pieces, separator, parts, ← ih]
    | false =>
      cases blank : isBlank c with
      | true =>
        have dropped : ∀ u : Text, squeeze (c :: u) = squeeze u := by simp [squeeze, blank]
        simp [dropped, pieces, separator, parts, ← ih]
      | false =>
        have kept : ∀ u : Text, squeeze (c :: u) = c :: squeeze u := by simp [squeeze, blank]
        simp [kept, pieces, separator, parts, ← ih]

theorem ne_nil_of_mem_words {t w : Text} (member : w ∈ words t) : w ≠ [] := by
  simpa using (List.mem_filter.1 member).2

theorem not_isBlank_of_mem_words {t w : Text} (member : w ∈ words t) {c : Char} (inside : c ∈ w) :
    isBlank c = false :=
  not_isSeparator_of_mem_pieces (List.mem_filter.1 member).1 inside

/-- A text between blanks has the words that it has alone. -/
theorem words_append_of_blank {front back : Text} (front_blank : ∀ c ∈ front, isBlank c = true)
    (t : Text) (back_blank : ∀ c ∈ back, isBlank c = true) :
    words (front ++ t ++ back) = words t := by
  induction front with
  | nil => simp [words, pieces_append_of_forall t back_blank]
  | cons c front ih =>
    obtain ⟨first, others⟩ := List.forall_mem_cons.1 front_blank
    have rest : words (front ++ t ++ back) = words t := ih others
    simpa [words, pieces, first] using rest

theorem words_trim (t : Text) : words (trim t) = words t := by
  obtain ⟨front, back, front_blank, back_blank, same⟩ := exists_trim t
  rw [← words_append_of_blank front_blank (trim t) back_blank, ← same]

end Chomsky.Text
