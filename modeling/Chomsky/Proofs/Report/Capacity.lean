import Chomsky.Report.Basic

/-!
# Sinks that end

A part of a report that does not fit into its sink is cut at the byte where the sink ends, wherever
that is among the texts that make up the part (`Report.fills_parts`). The newline behind a document
is no part of the JSON, so that its fault is one of plain output.
-/

namespace Chomsky.Report

/-- What a writer does with sinks of every size. Where there is room it writes the whole. Otherwise
it fails for the cause of that size, after exactly the bytes that there is room for. -/
structure Fills (write : Sink → Except Cut Sink) (whole : Bytes) (cause : Nat → Error) : Prop where
  endless : ∃ full, write .unlimited = .ok full ∧ full.written = whole
  fits : ∀ n, whole.length ≤ n →
    ∃ full, write (.ofCapacity n) = .ok full ∧ full.written = whole
  cut : ∀ n, n < whole.length →
    ∃ full, write (.ofCapacity n) = .error ⟨cause n, full⟩ ∧ full.written = whole.take n

/-- It is enough to write one text, and to name the error by the room that there was. -/
theorem fills_of_put {write : Sink → Except Cut Sink} {t : Text} {cause : Nat → Error}
    (writes : ∀ s, write s = (s.put t).mapError (⟨cause (s.room.getD 0), ·⟩)) :
    Fills write (Text.encode t) cause where
  endless := by
    refine ⟨Sink.unlimited.take none (Text.encode t), ?_, Sink.written_take ..⟩
    rw [writes, Sink.put_of_endless rfl]
    rfl
  fits n room := by
    let rest := n - (Text.encode t).length
    refine ⟨(Sink.ofCapacity n).take (some rest) (Text.encode t), ?_, Sink.written_take ..⟩
    rw [writes, Sink.put_of_le rfl room]
    rfl
  cut n tooLong := by
    refine ⟨(Sink.ofCapacity n).take (some 0) ((Text.encode t).take n), ?_,
      Sink.written_take ..⟩
    rw [writes, Sink.put_of_lt rfl tooLong]
    rfl

theorem writeClassification_eq_put (g : Grammar) (l : Level) (s : Sink) :
    writeClassification g l s =
      (s.put (classification g l).flatten).mapError (⟨.io .sinkFull, ·⟩) := by
  rw [writeClassification, Sink.putAll_eq_put]

theorem writeAnswer_eq_put (target : Word) (d : Derivation) (s : Sink) :
    writeAnswer target d s = (s.put (answer target d).flatten).mapError (⟨.io .sinkFull, ·⟩) := by
  rw [writeAnswer, Sink.putAll_eq_put]

/-- Why a document does not fit into a sink: all but its last byte are JSON. -/
def documentCause (r : Report) (n : Nat) : Error :=
  if n + 1 < (Text.encode r.document).length then .json .sinkFull else .io .sinkFull

/-- The document and its newline are written like one text. -/
theorem writeJson_eq_put (r : Report) (s : Sink) :
    r.writeJson s = (s.put r.document).mapError (⟨r.documentCause (s.room.getD 0), ·⟩) := by
  have length : (Text.encode r.document).length =
      (Text.encode r.toJson.render).length + 1 := by
    rw [document, Text.encode_append, List.length_append]
    rfl
  rw [document, Sink.put_append, writeJson, Sink.putAll_eq_put]
  change ((s.put r.toJson.render).mapError _ >>= _) = _
  cases room : s.room with
  | none =>
    rw [Sink.put_of_endless room]
    rfl
  | some n =>
    by_cases fits : (Text.encode r.toJson.render).length ≤ n
    · -- Only the newline can be left over.
      have cause : r.documentCause n = .io .sinkFull := if_neg (by omega)
      rw [Sink.put_of_le room fits, Option.getD_some, cause]
      rfl
    · have cause : r.documentCause n = .json .sinkFull := if_pos (by omega)
      rw [Sink.put_of_lt room (by omega), Option.getD_some, cause]
      rfl

/-- Each part of a report fills a sink up to the byte where it ends. -/
theorem fills_parts (r : Report) (target : Word) (d : Derivation) :
    Fills (writeClassification r.grammar r.level)
        (Text.encode (classification r.grammar r.level).flatten) (fun _ => .io .sinkFull) ∧
      Fills (writeAnswer target d) (Text.encode (answer target d).flatten)
        (fun _ => .io .sinkFull) ∧
      Fills r.writeJson (Text.encode r.document) r.documentCause :=
  ⟨fills_of_put (writeClassification_eq_put r.grammar r.level),
    fills_of_put (writeAnswer_eq_put target d), fills_of_put r.writeJson_eq_put⟩

end Chomsky.Report
