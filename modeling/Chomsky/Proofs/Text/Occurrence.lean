import Mathlib.Data.List.Sort
import Chomsky.Text.Scan

/-!
# Scans find all occurrences

No text that is not empty starts inside of a character of another, because the first byte of a
character is never one that goes on with a character (`OccursAt.isBoundary`). So the bytes of a
needle stand exactly where its characters stand (`occursAt_iff`), a round of a scan that starts on a
boundary ends on one and skips no match (`exists_round?`), and no cut fails. Main statement:
`scan?_eq_some`.
-/

namespace Chomsky.Text

variable {needle hay : Text} {start : Nat}

/-! ## Matches of bytes and of characters -/

theorem occursAt_zero_iff : OccursAt needle hay 0 ↔ needle <+: hay := by
  rw [OccursAt, List.drop_zero, encode_prefix_iff]

theorem occursAt_append (before after : Text) (n : Nat) :
    OccursAt needle (before ++ after) (byteLength before + n) ↔ OccursAt needle after n := by
  rw [OccursAt, OccursAt, encode_append, ← List.drop_drop, byteLength, List.drop_left]

theorem OccursAt.isBoundary {n : Nat} (occurs : OccursAt needle hay n) (needle_ne : needle ≠ []) :
    IsBoundary hay n := by
  obtain ⟨c, needle, rfl⟩ := List.exists_cons_of_ne_nil needle_ne
  obtain ⟨back, whole⟩ := occurs
  have pos : 0 < (String.utf8EncodeChar c).length := by simp [c.utf8Size_pos]
  have byte : (encode hay)[n]? = some (String.utf8EncodeChar c)[0] := by
    rw [← Nat.add_zero n, ← List.getElem?_drop, ← whole, encode, List.flatMap_cons,
      List.append_assoc, List.getElem?_append_left pos, List.getElem?_eq_getElem]
  exact isBoundary_of_getElem? byte UInt8.isUTF8FirstByte_getElem_zero_utf8EncodeChar

theorem occursAt_iff {n : Nat} (needle_ne : needle ≠ []) :
    OccursAt needle hay n ↔
      ∃ before after, hay = before ++ needle ++ after ∧ byteLength before = n := by
  constructor
  · intro occurs
    obtain ⟨before, rest, rfl, rfl⟩ := isBoundary_iff.1 (occurs.isBoundary needle_ne)
    obtain ⟨after, rfl⟩ := occursAt_zero_iff.1 ((occursAt_append before rest 0).1 occurs)
    exact ⟨before, after, (List.append_assoc ..).symm, rfl⟩
  · rintro ⟨before, after, rfl, rfl⟩
    rw [List.append_assoc]
    exact (occursAt_append before _ 0).2 (occursAt_zero_iff.2 (List.prefix_append needle after))

theorem mem_occurrences_iff {n : Nat} (needle_ne : needle ≠ []) :
    n ∈ occurrences needle hay ↔ OccursAt needle hay n := by
  simp [occurrences, mem_cuts_iff needle_ne, occursAt_iff needle_ne]

/-! ## Rounds and scans from a boundary -/

theorem not_occursAt_of_firstOffset? {rest : Text} (needle_ne : needle ≠ [])
    (absent : firstOffset? needle rest = none) (front : Text) {n : Nat}
    (le : byteLength front ≤ n) : ¬ OccursAt needle (front ++ rest) n := by
  obtain ⟨m, rfl⟩ := Nat.exists_eq_add_of_le le
  rw [occursAt_append]
  exact (firstOffset?_eq_none_iff needle_ne).1 absent m

theorem occursAt_of_firstOffset? {rest : Text} {offset : Nat} (needle_ne : needle ≠ [])
    (present : firstOffset? needle rest = some offset) (front : Text) :
    OccursAt needle (front ++ rest) (byteLength front + offset) ∧
      ∀ n, byteLength front ≤ n → n < byteLength front + offset →
        ¬ OccursAt needle (front ++ rest) n := by
  obtain ⟨occurs, first⟩ := (firstOffset?_eq_some_iff needle_ne).1 present
  refine ⟨(occursAt_append front rest offset).2 occurs, fun n le lt => ?_⟩
  obtain ⟨m, rfl⟩ := Nat.exists_eq_add_of_le le
  rw [occursAt_append]
  exact first m (by omega)

/-- A round from a boundary comes to the first match from there on, if one is left, and goes on from
a boundary before which there is no other. -/
theorem exists_round? (needle_ne : needle ≠ []) (boundary : IsBoundary hay start) :
    (round? needle hay start = some .over ∧ ∀ n, start ≤ n → ¬ OccursAt needle hay n) ∨
      ∃ index next, round? needle hay start = some (.found index next) ∧
        IsBoundary hay next ∧ start ≤ index ∧ index < next ∧
        ∀ n, start ≤ n → n < next → (OccursAt needle hay n ↔ n = index) := by
  obtain ⟨front, rest, rfl, rfl⟩ := isBoundary_iff.1 boundary
  have cut : cutAt? (byteLength front) (front ++ rest) = some (front, rest) :=
    cutAt?_eq_some_iff.2 ⟨rfl, rfl⟩
  cases looked : firstOffset? needle rest with
  | none =>
    exact Or.inl ⟨round?_of_absent cut looked,
      fun n le => not_occursAt_of_firstOffset? needle_ne looked front le⟩
  | some offset =>
    obtain ⟨occurs, least⟩ := occursAt_of_firstOffset? needle_ne looked front
    obtain ⟨before, after, whole, size⟩ := (occursAt_iff needle_ne).1 occurs
    obtain ⟨c, needle, rfl⟩ := List.exists_cons_of_ne_nil needle_ne
    rw [List.append_assoc, List.cons_append] at whole
    have pos := c.utf8Size_pos
    refine Or.inr ⟨_, _,
      round?_of_present cut looked (cutAt?_eq_some_iff.2 ⟨whole, size⟩), ?_, by omega,
      by omega, fun n le lt => ⟨fun other => ?_, ?_⟩⟩
    · exact isBoundary_iff.2 ⟨before ++ [c], needle ++ after, by simp [whole], by simp [size]⟩
    · -- Another match would be on a boundary, hence not inside of `c`, nor before the first one.
      have upper : n ≤ byteLength before :=
        (whole ▸ other.isBoundary needle_ne).le_or_le.resolve_right (by omega)
      have lower : ¬ n < byteLength front + offset := fun lt => least n le lt other
      omega
    · rintro rfl
      exact occurs

/-- A scan from a boundary finds the matches from there on, in increasing order. -/
theorem exists_scanFrom? (needle_ne : needle ≠ []) (boundary : IsBoundary hay start) :
    ∃ offsets, scanFrom? needle hay start = some offsets ∧ offsets.Pairwise (· < ·) ∧
      ∀ n, n ∈ offsets ↔ start ≤ n ∧ OccursAt needle hay n := by
  -- Induction on the rounds to come; each of them starts on a boundary.
  induction start using (goesOn_wellFounded needle hay).induction with
  | _ start ih =>
    rcases exists_round? needle_ne boundary with
      ⟨ends, none_left⟩ | ⟨index, next, goes, ahead, le, lt, only⟩
    · refine ⟨[], scanFrom?_of_over ends, List.Pairwise.nil, fun n => ?_⟩
      simpa using none_left n
    · obtain ⟨later, scanned, sorted, members⟩ := ih next ⟨index, goes⟩ ahead
      refine ⟨index :: later, by rw [scanFrom?_of_found goes, scanned]; rfl, ?_, fun n => ?_⟩
      · refine List.pairwise_cons.2 ⟨fun n member => ?_, sorted⟩
        exact Nat.lt_of_lt_of_le lt ((members n).1 member).1
      · rw [List.mem_cons, members]
        constructor
        · rintro (rfl | ⟨beyond, occurs⟩)
          · exact ⟨le, (only n le lt).2 rfl⟩
          · exact ⟨by omega, occurs⟩
        · rintro ⟨from_start, occurs⟩
          rcases Nat.lt_or_ge n next with before | beyond
          · exact Or.inl ((only n from_start before).1 occurs)
          · exact Or.inr ⟨beyond, occurs⟩

/-- A scan never fails and finds the occurrences, whatever the text and the needle. -/
theorem scan?_eq_some (needle hay : Text) : scan? needle hay = some (occurrences needle hay) := by
  unfold scan?
  split
  · next empty => rw [occurrences_of_isEmpty empty]
  · next filled =>
    have needle_ne : needle ≠ [] := by simpa using filled
    have at_start : IsBoundary hay 0 := isBoundary_iff.2 ⟨[], hay, rfl, rfl⟩
    obtain ⟨offsets, scanned, sorted, members⟩ := exists_scanFrom? needle_ne at_start
    have same : offsets = occurrences needle hay :=
      sorted.eq_of_mem_iff (pairwise_occurrences needle_ne hay) fun n => by
        rw [members, mem_occurrences_iff needle_ne]
        simp
    rw [scanned, same]

end Chomsky.Text
