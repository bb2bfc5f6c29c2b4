import Chomsky.Dialogue.Line
import Chomsky.Text.Blank

/-!
# Lines of a text

Input is cut into lines while it is bytes, and each line is read by itself. Where the whole input is
UTF-8 this gives the lines of its text (`Line.ofInput_encode`): a newline is a byte of its own, and
no other character has that byte in its encoding. What stands behind a number of lines is input
again, of the lines that follow (`Line.ofInput_encode_afterLines`).
-/

namespace Chomsky

namespace Text

/-- The lines of a text, without their newlines. What follows the last newline is a line if it is
not empty. -/
def lines : Text → List Text
  | [] => []
  | c :: rest =>
    if c = '\n' then [] :: lines rest
    else
      match lines rest with
      | [] => [[c]]
      | line :: later => (c :: line) :: later

/-- What stands behind the first `n` lines of a text. -/
def afterLines : Nat → Text → Text
  | 0, t => t
  | n + 1, t => afterLines n (t.dropWhile (· != '\n')).tail

example : lines "a\r\n\nb".toList = ["a\r".toList, [], "b".toList] := by decide

/-- The text with these lines, each of them with its newline. -/
def ofLines (ls : List Text) : Text := ls.flatMap (· ++ ['\n'])

theorem ofLines_cons (line : Text) (ls : List Text) :
    ofLines (line :: ls) = line ++ '\n' :: ofLines ls := by
  simp [ofLines]

theorem lines_append_newline {line : Text} (single : '\n' ∉ line) (rest : Text) :
    lines (line ++ '\n' :: rest) = line :: lines rest := by
  induction line with
  | nil => rfl
  | cons c line ih =>
    obtain ⟨head, tail⟩ := not_or.1 (mt List.mem_cons.2 single)
    rw [List.cons_append, lines, if_neg (Ne.symm head), ih tail]

theorem lines_afterLine (t : Text) : lines (t.dropWhile (· != '\n')).tail = (lines t).tail := by
  induction t with
  | nil => rfl
  | cons c rest ih =>
    by_cases newline : c = '\n'
    · simp [newline, lines]
    · have skip : (c :: rest).dropWhile (· != '\n') = rest.dropWhile (· != '\n') :=
        List.dropWhile_cons_of_pos (by simpa using newline)
      rw [skip, ih, lines, if_neg newline]
      cases lines rest <;> rfl

theorem lines_afterLines (n : Nat) (t : Text) : lines (afterLines n t) = (lines t).drop n := by
  induction n generalizing t with
  | zero => rfl
  | succ n ih => rw [afterLines, ih, lines_afterLine, List.drop_tail]

/-- The lines are the pieces between newlines, less an empty last one. -/
theorem lines_eq_pieces (t : Text) :
    lines t =
      if (pieces (· == '\n') t).getLast? = some [] then (pieces (· == '\n') t).dropLast
      else pieces (· == '\n') t := by
  induction t with
  | nil => rfl
  | cons c rest ih =>
    obtain ⟨first, others, parts⟩ := List.exists_cons_of_ne_nil (pieces_ne_nil (· == '\n') rest)
    by_cases newline : c = '\n'
    · subst newline
      rw [parts] at ih
      by_cases empty : (first :: others).getLast? = some [] <;> simp_all [lines, pieces]
    · have other : (c == '\n') = false := by simpa using newline
      rw [parts] at ih
      cases others with
      | nil =>
        by_cases empty : first = [] <;> simp_all [lines, pieces]
      | cons second others =>
        by_cases empty : (second :: others).getLast? = some [] <;> simp_all [lines, pieces]

end Text

/-! ## Lines of bytes -/

/-- The bytes of longer encodings lie above ASCII, so only a newline has the byte of a newline. -/
theorem eq_newline_of_mem_utf8EncodeChar {c : Char} (member : 10 ∈ String.utf8EncodeChar c) :
    c = '\n' := by
  have toNat : ∀ n : Nat, 10 = UInt8.ofNat n → n % 256 = 10 := by
    intro n same
    simpa using (congrArg UInt8.toNat same).symm
  have above : ∀ codes : List Nat, (∀ n ∈ codes, 128 ≤ n ∧ n < 256) →
      10 ∉ codes.map UInt8.ofNat := by
    intro codes high member
    obtain ⟨n, inside, same⟩ := List.mem_map.1 member
    have low := toNat n same.symm
    have bounds := high n inside
    omega
  dsimp only [String.utf8EncodeChar] at member
  split at member
  · next ascii =>
    have code : c.val.toNat % 256 = 10 := toNat _ (List.mem_singleton.1 member)
    have same : c.val.toNat = 10 := by omega
    exact Char.ext (UInt32.toNat_inj.1 same)
  · exfalso
    split at member
    · exact above [_, _] (by simp; omega) member
    · split at member
      · exact above [_, _, _] (by simp; omega) member
      · exact above [_, _, _, _] (by simp; omega) member

theorem Text.pieces_encode (t : Text) :
    pieces (· == 10) (encode t) = (pieces (· == '\n') t).map encode := by
  induction t with
  | nil => rfl
  | cons c t ih =>
    obtain ⟨first, others, parts⟩ := List.exists_cons_of_ne_nil (pieces_ne_nil (· == '\n') t)
    have bytes : encode (c :: t) = String.utf8EncodeChar c ++ encode t := rfl
    by_cases newline : c = '\n'
    · subst newline
      have single : String.utf8EncodeChar '\n' = [10] := by decide
      simp [bytes, single, pieces, ih]
      rfl
    · have absent : ∀ b ∈ String.utf8EncodeChar c, (b == 10) = false := by
        intro b member
        refine beq_false_of_ne fun same => newline ?_
        exact eq_newline_of_mem_utf8EncodeChar (same ▸ member)
      have other : (c == '\n') = false := beq_false_of_ne newline
      rw [bytes, pieces_append absent, ih, parts, pieces, other, parts]
      rfl

namespace Line

/-- The line with a given text, less what ended it. -/
def ofText (t : Text) : Line := .text (dropTerminators t)

theorem ofBytes_encode (t : Text) : ofBytes (Text.encode t) = ofText t := by
  rw [ofBytes, Text.decode_encode, ofText]

theorem ofInput_encode (t : Text) : ofInput (Text.encode t) = (Text.lines t).map ofText := by
  have empty : ∀ w : Text, Text.encode w = [] ↔ w = [] := by
    intro w
    cases w <;> simp [Text.encode]
  have last : ((Text.pieces (· == '\n') t).map Text.encode).getLast? = some [] ↔
      (Text.pieces (· == '\n') t).getLast? = some [] := by
    simp [List.getLast?_map, empty]
  rw [ofInput, Text.pieces_encode, Text.lines_eq_pieces]
  simp only [last, ← List.map_dropLast]
  split <;> simp [Function.comp_def, ofBytes_encode]

theorem ofInput_encode_afterLines (n : Nat) (t : Text) :
    ofInput (Text.encode (Text.afterLines n t)) = (ofInput (Text.encode t)).drop n := by
  rw [ofInput_encode, ofInput_encode, Text.lines_afterLines, List.map_drop]

/-- What ends a line is blank. -/
theorem trim_dropTerminators (t : Text) : Text.trim (dropTerminators t) = Text.trim t := by
  have blank : ∀ c ∈ (t.reverse.takeWhile isTerminator).reverse, Text.isBlank c = true := by
    intro c member
    have terminator : isTerminator c = true :=
      List.all_eq_true.1 List.all_takeWhile c (List.mem_reverse.1 member)
    rcases Bool.or_eq_true_iff.1 terminator with same | same
    all_goals
      obtain rfl := beq_iff_eq.1 same
      decide
  have whole : dropTerminators t ++ (t.reverse.takeWhile isTerminator).reverse = t := by
    rw [dropTerminators, ← List.reverse_append, List.takeWhile_append_dropWhile,
      List.reverse_reverse]
  conv => rhs; rw [← whole]
  exact (Text.trim_append_of_blank (List.forall_mem_nil _) (dropTerminators t) blank).symm

end Line

end Chomsky
