import Chomsky.Text.Bytes

/-!
# Sinks

A sink takes bytes, either without end or up to a number of bytes. A text that does not fit is
written as far as it fits, and the sink is then full. Main statements: `written_take`,
`putAll_eq_put`.
-/

namespace Chomsky

structure Sink where
  /-- The bytes that it still takes; `none` when there is no end. -/
  room : Option Nat
  /-- What was written, last byte first. -/
  backwards : Bytes
  deriving DecidableEq, Repr

namespace Sink

def unlimited : Sink := ⟨none, []⟩

def ofCapacity (n : Nat) : Sink := ⟨some n, []⟩

/-- What was written, in order. -/
def written (s : Sink) : Bytes := s.backwards.reverse

/-- Takes bytes behind those written, and leaves some room. -/
def take (s : Sink) (room : Option Nat) (bytes : Bytes) : Sink :=
  ⟨room, bytes.reverseAux s.backwards⟩

@[simp] theorem written_take (s : Sink) (room : Option Nat) (bytes : Bytes) :
    (s.take room bytes).written = s.written ++ bytes := by
  simp [take, written, List.reverseAux_eq]

/-- Writes a text. The error is the sink after a text that did not fit. -/
def put (s : Sink) (t : Text) : Except Sink Sink :=
  let bytes := Text.encode t
  match s.room with
  | none => .ok (s.take none bytes)
  | some n =>
    if bytes.length ≤ n then .ok (s.take (some (n - bytes.length)) bytes)
    else .error (s.take (some 0) (bytes.take n))

/-- Writes texts in order, up to the first that does not fit. -/
def putAll (s : Sink) (ts : List Text) : Except Sink Sink := ts.foldlM put s

theorem putAll_cons (s : Sink) (t : Text) (ts : List Text) :
    s.putAll (t :: ts) = s.put t >>= fun s => s.putAll ts :=
  List.foldlM_cons ..

theorem put_empty (s : Sink) : s.put [] = .ok s := by
  obtain ⟨room, backwards⟩ := s
  cases room <;> rfl

theorem put_of_endless {s : Sink} (endless : s.room = none) (t : Text) :
    s.put t = .ok (s.take none (Text.encode t)) := by
  rw [put, endless]

theorem put_of_le {s : Sink} {n : Nat} {t : Text} (room : s.room = some n)
    (fits : (Text.encode t).length ≤ n) :
    s.put t = .ok (s.take (some (n - (Text.encode t).length)) (Text.encode t)) := by
  simp only [put, room, if_pos fits]

theorem put_of_lt {s : Sink} {n : Nat} {t : Text} (room : s.room = some n)
    (tooLong : n < (Text.encode t).length) :
    s.put t = .error (s.take (some 0) ((Text.encode t).take n)) := by
  simp only [put, room, if_neg (Nat.not_le.2 tooLong)]

/-- A text may be written in two parts: it is cut at the same byte. -/
theorem put_append (s : Sink) (t u : Text) : s.put (t ++ u) = s.put t >>= fun s => s.put u := by
  have split := Text.encode_append t u
  have length : (Text.encode (t ++ u)).length =
      (Text.encode t).length + (Text.encode u).length := by
    rw [split, List.length_append]
  cases room : s.room with
  | none =>
    rw [put_of_endless room, put_of_endless room]
    change _ = (s.take none (Text.encode t)).put u
    rw [put_of_endless rfl]
    simp [take, split, List.reverseAux_eq]
  | some n =>
    by_cases first : (Text.encode t).length ≤ n
    · rw [put_of_le room first]
      change _ = (s.take (some (n - (Text.encode t).length)) (Text.encode t)).put u
      by_cases second : (Text.encode u).length ≤ n - (Text.encode t).length
      · rw [put_of_le room (by omega), put_of_le rfl second]
        simp [take, split, List.reverseAux_eq, Nat.sub_sub]
      · rw [put_of_lt room (by omega), put_of_lt rfl (by omega)]
        simp [take, split, List.reverseAux_eq, List.take_append, List.take_of_length_le first]
    · rw [put_of_lt room (by omega), put_of_lt room (by omega), split,
        List.take_append_of_le_length (by omega)]
      rfl

/-- Texts in order are written like one text. -/
theorem putAll_eq_put (s : Sink) (ts : List Text) : s.putAll ts = s.put ts.flatten := by
  induction ts generalizing s with
  | nil => exact (put_empty s).symm
  | cons t ts ih => simp only [putAll_cons, List.flatten_cons, put_append, ih]

/-- A sink without end takes all texts whole. -/
theorem putAll_of_endless {s : Sink} (endless : s.room = none) (ts : List Text) :
    ∃ full, s.putAll ts = .ok full ∧ full.room = none ∧
      full.written = s.written ++ Text.encode ts.flatten :=
  ⟨s.take none (Text.encode ts.flatten), by rw [putAll_eq_put, put_of_endless endless], rfl,
    written_take ..⟩

end Sink

end Chomsky
