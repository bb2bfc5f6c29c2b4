/-!
# Text

A text is a list of Unicode scalar values, so that every function on it is a recursion on a list.
Strings appear only where a constant is written down, where very many texts are kept at once, or
where the program meets the outside.
-/

namespace Chomsky

/-- Characters in reading order. -/
abbrev Text := List Char

namespace Text

/-- A number in decimal digits, without sign or leading zeros. -/
def ofNat (n : Nat) : Text := Nat.toDigits 10 n

theorem isDigit_of_mem_ofNat {n : Nat} {c : Char} (member : c ∈ ofNat n) : c.isDigit = true :=
  Nat.isDigit_of_mem_toDigits (by omega) (by omega) member

theorem exists_cons_ofNat (n : Nat) : ∃ c t, ofNat n = c :: t ∧ c.isDigit = true := by
  obtain ⟨c, t, digits⟩ := List.exists_cons_of_ne_nil (Nat.toDigits_ne_nil (n := n) (b := 10))
  refine ⟨c, t, digits, isDigit_of_mem_ofNat (n := n) ?_⟩
  rw [ofNat, digits]
  exact List.mem_cons_self

/-- The parts between separators, empty ones included: one more than there are separators. -/
def pieces {α : Type} (isSeparator : α → Bool) : List α → List (List α)
  | [] => [[]]
  | a :: rest =>
    if isSeparator a then [] :: pieces isSeparator rest
    else (pieces isSeparator rest).modifyHead (a :: ·)

theorem pieces_ne_nil {α : Type} (isSeparator : α → Bool) (as : List α) :
    pieces isSeparator as ≠ [] := by
  induction as with
  | nil => simp [pieces]
  | cons a as ih =>
    rw [pieces]
    split
    · simp
    · cases h : pieces isSeparator as with
      | nil => exact absurd h ih
      | cons piece rest => simp

theorem not_isSeparator_of_mem_pieces {α : Type} {isSeparator : α → Bool} {as piece : List α}
    (member : piece ∈ pieces isSeparator as) {a : α} (inside : a ∈ piece) :
    isSeparator a = false := by
  induction as generalizing piece with
  | nil =>
    obtain rfl := List.mem_singleton.1 member
    cases inside
  | cons b as ih =>
    rw [pieces] at member
    split at member
    · rcases List.mem_cons.1 member with rfl | later
      · cases inside
      · exact ih later inside
    · next other =>
      cases h : pieces isSeparator as with
      | nil => exact absurd h (pieces_ne_nil isSeparator as)
      | cons first rest =>
        rw [h, List.modifyHead_cons] at member
        rcases List.mem_cons.1 member with rfl | later
        · rcases List.mem_cons.1 inside with rfl | inside
          · simpa using other
          · exact ih (h ▸ List.mem_cons_self) inside
        · exact ih (h ▸ List.mem_cons_of_mem first later) inside

/-- What stands before the first separator is part of the first piece. -/
theorem pieces_append {α : Type} {isSeparator : α → Bool} {front : List α}
    (solid : ∀ a ∈ front, isSeparator a = false) (as : List α) :
    pieces isSeparator (front ++ as) = (pieces isSeparator as).modifyHead (front ++ ·) := by
  obtain ⟨first, others, parts⟩ := List.exists_cons_of_ne_nil (pieces_ne_nil isSeparator as)
  induction front with
  | nil => simp [parts]
  | cons a front ih =>
    obtain ⟨head, tail⟩ := List.forall_mem_cons.1 solid
    simp [pieces, head, ih tail, parts]

/-- Each separator at the end of a list ends a part and opens an empty one. -/
theorem pieces_append_of_forall {α : Type} {isSeparator : α → Bool} (as : List α) {back : List α}
    (separators : ∀ a ∈ back, isSeparator a = true) :
    pieces isSeparator (as ++ back) = pieces isSeparator as ++ back.map fun _ => [] := by
  induction as with
  | nil =>
    induction back with
    | nil => rfl
    | cons a back ih =>
      obtain ⟨first, others⟩ := List.forall_mem_cons.1 separators
      have rest : pieces isSeparator back = [] :: back.map fun _ => [] := ih others
      simp [pieces, first, rest]
  | cons a as ih =>
    obtain ⟨piece, rest, parts⟩ := List.exists_cons_of_ne_nil (pieces_ne_nil isSeparator as)
    rw [parts, List.cons_append] at ih
    rw [List.cons_append, pieces, pieces, ih, parts]
    split <;> rfl

theorem length_pieces {α : Type} (isSeparator : α → Bool) (as : List α) :
    (pieces isSeparator as).length = as.countP isSeparator + 1 := by
  induction as with
  | nil => rfl
  | cons a as ih =>
    rw [pieces, List.countP_cons]
    split
    · rw [List.length_cons, ih]
    · rw [List.length_modifyHead, ih]

/-- The texts with a separator text between each two neighbours. -/
def joinWith (separator : Text) : List Text → Text
  | [] => []
  | [t] => t
  | t :: rest => t ++ separator ++ joinWith separator rest

/-- The pieces between equal separators are joined to the text that was cut. -/
theorem joinWith_pieces (separator : Char) (t : Text) :
    joinWith [separator] (pieces (· == separator) t) = t := by
  induction t with
  | nil => rfl
  | cons c t ih =>
    obtain ⟨first, others, parts⟩ := List.exists_cons_of_ne_nil (pieces_ne_nil (· == separator) t)
    rw [parts] at ih
    rw [pieces, parts]
    split
    · next same =>
      obtain rfl := beq_iff_eq.1 same
      rw [joinWith, ih]
      · rfl
      · exact List.cons_ne_nil _ _
    · cases others with
      | nil =>
        rw [joinWith] at ih
        rw [List.modifyHead_cons, joinWith, ih]
      | cons second others =>
        rw [joinWith] at ih
        · rw [List.modifyHead_cons, joinWith, ← ih]
          · rfl
          · exact List.cons_ne_nil _ _
        · exact List.cons_ne_nil _ _

end Text

end Chomsky
