import Chomsky.Text.Bytes

/-!
# Occurrences of one text in another

`cuts` lists every way to read a text as `before ++ needle ++ after`, from left to right and with
overlaps. `occurrences` gives the same places as byte offsets into the UTF-8 form of the text, in
increasing order (`pairwise_occurrences`).
-/

namespace Chomsky.Text

/-- What follows `needle` at the front of a text, if the text starts with it. -/
def dropPrefix? : (needle hay : Text) → Option Text
  | [], hay => some hay
  | _ :: _, [] => none
  | n :: needle, h :: hay => if n = h then dropPrefix? needle hay else none

/-- The texts before and after each occurrence of a needle that is not empty; an empty needle
occurs nowhere. -/
def cuts (needle : Text) : Text → List (Text × Text)
  | [] => []
  | c :: rest =>
    let here := if needle.isEmpty then none else dropPrefix? needle (c :: rest)
    (here.toList.map fun after => ([], after)) ++
      (cuts needle rest).map fun (before, after) => (c :: before, after)

theorem eq_append_of_dropPrefix? {needle hay after : Text}
    (h : dropPrefix? needle hay = some after) : hay = needle ++ after := by
  induction needle generalizing hay with
  | nil => exact Option.some.inj h
  | cons n needle ih =>
    cases hay with
    | nil => cases h
    | cons c hay =>
      rw [dropPrefix?] at h
      split at h
      · next hc => rw [List.cons_append, ← ih h, hc]
      · cases h

theorem dropPrefix?_append (needle after : Text) :
    dropPrefix? needle (needle ++ after) = some after := by
  induction needle with
  | nil => rfl
  | cons n needle ih => simpa [dropPrefix?] using ih

theorem dropPrefix?_eq_some_iff {needle hay after : Text} :
    dropPrefix? needle hay = some after ↔ hay = needle ++ after := by
  constructor
  · exact eq_append_of_dropPrefix?
  · rintro rfl
    exact dropPrefix?_append needle after

theorem cuts_of_isEmpty {needle : Text} (h : needle.isEmpty) (hay : Text) :
    cuts needle hay = [] := by
  induction hay with
  | nil => rfl
  | cons c hay ih => simp [cuts, h, ih]

/-- The cuts are exactly the readings of a text around the needle. -/
theorem mem_cuts_iff {needle hay before after : Text} (needle_ne : needle ≠ []) :
    (before, after) ∈ cuts needle hay ↔ hay = before ++ needle ++ after := by
  induction hay generalizing before with
  | nil => simp [cuts, needle_ne]
  | cons c rest ih =>
    have here : dropPrefix? needle (c :: rest) = some after ↔ c :: rest = needle ++ after :=
      dropPrefix?_eq_some_iff
    cases before with
    | nil => simp [cuts, needle_ne, here]
    | cons b before =>
      have there : (∃ shorter, (shorter, after) ∈ cuts needle rest ∧ c :: shorter = b :: before) ↔
          c = b ∧ rest = before ++ needle ++ after := by
        constructor
        · rintro ⟨shorter, member, same⟩
          obtain ⟨rfl, rfl⟩ := List.cons.inj same
          exact ⟨rfl, ih.1 member⟩
        · rintro ⟨rfl, reading⟩
          exact ⟨before, ih.2 reading, rfl⟩
      simpa [cuts, needle_ne] using there

theorem dropPrefix?_map {f : Char → Char} (injective : Function.Injective f) (needle hay : Text) :
    dropPrefix? (needle.map f) (hay.map f) = (dropPrefix? needle hay).map (List.map f) := by
  induction needle generalizing hay with
  | nil => rfl
  | cons n needle ih =>
    cases hay with
    | nil => rfl
    | cons c hay =>
      simp only [List.map_cons, dropPrefix?, injective.eq_iff, ih]
      split <;> rfl

/-- Distinct characters that stay distinct make no new occurrences and lose none. -/
theorem cuts_map {f : Char → Char} (injective : Function.Injective f) (needle hay : Text) :
    cuts (needle.map f) (hay.map f) =
      (cuts needle hay).map (Prod.map (List.map f) (List.map f)) := by
  induction hay with
  | nil => rfl
  | cons c hay ih =>
    have here := dropPrefix?_map injective needle (c :: hay)
    rw [List.map_cons] at here
    rw [List.map_cons, cuts, cuts, ih, here, List.map_append, List.isEmpty_map]
    split
    · simp [Function.comp_def]
    · cases dropPrefix? needle (c :: hay) <;> simp [Function.comp_def]

/-- The length of a text in UTF-8 bytes. -/
def byteLength (t : Text) : Nat := (encode t).length

@[simp] theorem byteLength_nil : byteLength [] = 0 := rfl

@[simp] theorem byteLength_cons (c : Char) (t : Text) :
    byteLength (c :: t) = c.utf8Size + byteLength t := by
  simp [byteLength, encode]

@[simp] theorem byteLength_append (t u : Text) :
    byteLength (t ++ u) = byteLength t + byteLength u := by
  simp [byteLength, encode_append]

theorem byteLength_eq_zero_iff {t : Text} : byteLength t = 0 ↔ t = [] := by
  cases t with
  | nil => simp
  | cons c t => simp [Nat.ne_of_gt c.utf8Size_pos]

/-- The byte offset of each occurrence. -/
def occurrences (needle hay : Text) : List Nat :=
  (cuts needle hay).map fun (before, _) => byteLength before

theorem occurrences_of_isEmpty {needle : Text} (empty : needle.isEmpty) (hay : Text) :
    occurrences needle hay = [] := by
  rw [occurrences, cuts_of_isEmpty empty, List.map_nil]

theorem occurrences_cons {needle : Text} (needle_ne : needle ≠ []) (c : Char) (rest : Text) :
    occurrences needle (c :: rest) =
      (if needle <+: c :: rest then [0] else []) ++
        (occurrences needle rest).map (c.utf8Size + ·) := by
  have later : ((cuts needle rest).map fun (before, after) => (c :: before, after)).map
      (fun (before, _) => byteLength before) = (occurrences needle rest).map (c.utf8Size + ·) := by
    simp [occurrences, Function.comp_def]
  rw [occurrences, cuts, List.map_append, later, if_neg (by simpa using needle_ne)]
  split
  · next front =>
    obtain ⟨after, whole⟩ := front
    simp [← whole, dropPrefix?_append]
  · next other =>
    cases stands : dropPrefix? needle (c :: rest) with
    | none => rfl
    | some after => exact absurd ⟨after, (eq_append_of_dropPrefix? stands).symm⟩ other

theorem pairwise_occurrences {needle : Text} (needle_ne : needle ≠ []) (hay : Text) :
    (occurrences needle hay).Pairwise (· < ·) := by
  induction hay with
  | nil => exact List.Pairwise.nil
  | cons c hay ih =>
    have later : ((occurrences needle hay).map (c.utf8Size + ·)).Pairwise (· < ·) :=
      ih.map _ fun _ _ lt => Nat.add_lt_add_left lt _
    have pos := c.utf8Size_pos
    rw [occurrences_cons needle_ne, List.pairwise_append]
    refine ⟨by split <;> simp, later, fun m first n member => ?_⟩
    obtain ⟨n, _, rfl⟩ := List.mem_map.1 member
    split at first
    · obtain rfl := List.mem_singleton.1 first
      omega
    · cases first

/-- There is at most one occurrence for each character of the text. -/
theorem length_occurrences_le {needle : Text} (needle_ne : needle ≠ []) (hay : Text) :
    (occurrences needle hay).length ≤ hay.length := by
  induction hay with
  | nil => exact Nat.le_refl 0
  | cons c hay ih =>
    have here : (if needle <+: c :: hay then [0] else []).length ≤ 1 := by split <;> simp
    rw [occurrences_cons needle_ne, List.length_append, List.length_map, List.length_cons]
    omega

end Chomsky.Text
