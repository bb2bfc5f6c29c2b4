import Chomsky.Text.Occurrence

/-!
# Scans by byte offsets

A text can be searched in its UTF-8 form, by byte offsets alone. A scan looks for the bytes of the
needle from an offset on, notes where they stand and goes on behind the first character of what it
found. It cuts the text at offsets, and a cut inside of a character fails. Main statements:
`cutAt?_eq_some_iff`, by which a cut succeeds exactly where the bytes of the first characters end,
and `goesOn_wellFounded`, by which every scan ends.
-/

namespace Chomsky.Text

/-! ## Boundaries and cuts -/

/-- A character starts at the byte offset, or the text ends there. -/
def IsBoundary (t : Text) (offset : Nat) : Prop :=
  String.Pos.Raw.IsValid (String.ofList t) ⟨offset⟩

instance (t : Text) (offset : Nat) : Decidable (IsBoundary t offset) :=
  inferInstanceAs (Decidable (String.Pos.Raw.IsValid (String.ofList t) ⟨offset⟩))

theorem utf8ByteSize_ofList (t : Text) : (String.ofList t).utf8ByteSize = byteLength t := by
  rw [← String.size_toByteArray, String.toByteArray_ofList]
  simp [byteLength, encode, List.utf8Encode]

theorem isBoundary_iff {t : Text} {offset : Nat} :
    IsBoundary t offset ↔ ∃ before after, t = before ++ after ∧ byteLength before = offset := by
  simp only [IsBoundary, String.Pos.Raw.isValid_ofList, utf8ByteSize_ofList]
  constructor
  · rintro ⟨i, rfl⟩
    exact ⟨t.take i, t.drop i, (List.take_append_drop i t).symm, rfl⟩
  · rintro ⟨before, after, rfl, rfl⟩
    exact ⟨before.length, by rw [List.take_left']; rfl⟩

/-- A byte that starts a character stands on a boundary. -/
theorem isBoundary_of_getElem? {t : Text} {offset : Nat} {b : UInt8}
    (byte : (encode t)[offset]? = some b) (first : b.IsUTF8FirstByte) : IsBoundary t offset := by
  obtain ⟨lt, rfl⟩ := List.getElem?_eq_some_iff.1 byte
  rw [IsBoundary, String.Pos.Raw.isValid_iff_isUTF8FirstByte]
  refine Or.inr ⟨?_, ?_⟩
  · rwa [String.Pos.Raw.lt_iff, String.byteIdx_rawEndPos, utf8ByteSize_ofList, byteLength]
  · simpa [String.getUTF8Byte, List.utf8Encode, encode] using first

/-- A boundary is not inside of any character. -/
theorem IsBoundary.le_or_le {before after : Text} {c : Char} {offset : Nat}
    (boundary : IsBoundary (before ++ c :: after) offset) :
    offset ≤ byteLength before ∨ byteLength before + c.utf8Size ≤ offset := by
  obtain ⟨front, back, parts, rfl⟩ := isBoundary_iff.1 boundary
  rcases List.append_eq_append_iff.1 parts with ⟨more, rfl, tail⟩ | ⟨more, rfl, _⟩
  · cases more with
    | nil => exact Or.inl (by simp)
    | cons d more =>
      obtain ⟨rfl, _⟩ := List.cons.inj tail
      exact Or.inr (by simp)
  · exact Or.inl (by simp)

/-- The texts before and behind a byte offset; `none` inside of a character and past the end. -/
def cutAt? : (offset : Nat) → Text → Option (Text × Text)
  | 0, t => some ([], t)
  | _ + 1, [] => none
  | n + 1, c :: t =>
    if c.utf8Size ≤ n + 1 then
      (cutAt? (n + 1 - c.utf8Size) t).map fun (before, after) => (c :: before, after)
    else none

theorem cutAt?_eq_some_iff {offset : Nat} {t before after : Text} :
    cutAt? offset t = some (before, after) ↔ t = before ++ after ∧ byteLength before = offset := by
  fun_induction cutAt? offset t generalizing before with
  | case1 t =>
    constructor
    · rintro ⟨⟩
      exact ⟨rfl, rfl⟩
    · rintro ⟨rfl, empty⟩
      obtain rfl := byteLength_eq_zero_iff.1 empty
      rfl
  | case2 n =>
    constructor
    · rintro ⟨⟩
    · rintro ⟨nothing, size⟩
      simp [(List.append_eq_nil_iff.1 nothing.symm).1] at size
  | case3 n c t fits ih =>
    cases before with
    | nil => simp
    | cons b before =>
      simp only [Option.map_eq_some_iff, Prod.exists, Prod.mk.injEq, List.cons.injEq,
        List.cons_append, byteLength_cons]
      constructor
      · rintro ⟨shorter, rest, cut, ⟨rfl, rfl⟩, rfl⟩
        obtain ⟨rfl, size⟩ := ih.1 cut
        exact ⟨⟨rfl, rfl⟩, by omega⟩
      · rintro ⟨⟨rfl, rfl⟩, size⟩
        exact ⟨before, after, ih.2 ⟨rfl, by omega⟩, ⟨rfl, rfl⟩, rfl⟩
  | case4 n c t short =>
    constructor
    · rintro ⟨⟩
    · rintro ⟨parts, size⟩
      cases before with
      | nil => simp at size
      | cons b before =>
        obtain ⟨rfl, _⟩ := List.cons.inj parts
        rw [byteLength_cons] at size
        omega

/-! ## The first match -/

/-- The bytes of the needle stand at the byte offset. -/
def OccursAt (needle hay : Text) (offset : Nat) : Prop :=
  encode needle <+: (encode hay).drop offset

instance (needle hay : Text) (offset : Nat) : Decidable (OccursAt needle hay offset) :=
  inferInstanceAs (Decidable (encode needle <+: (encode hay).drop offset))

/-- The first byte offset at which the bytes of the needle stand. -/
def firstOffset? (needle hay : Text) : Option Nat :=
  (List.range (byteLength hay + 1)).find? fun offset => decide (OccursAt needle hay offset)

section

variable {needle hay : Text}

theorem OccursAt.lt {offset : Nat} (occurs : OccursAt needle hay offset)
    (needle_ne : needle ≠ []) : offset < byteLength hay := by
  have size := occurs.length_le
  have pos : 0 < (encode needle).length :=
    Nat.pos_of_ne_zero (mt byteLength_eq_zero_iff.1 needle_ne)
  rw [List.length_drop] at size
  rw [byteLength]
  omega

theorem firstOffset?_eq_none_iff (needle_ne : needle ≠ []) :
    firstOffset? needle hay = none ↔ ∀ n, ¬ OccursAt needle hay n := by
  rw [firstOffset?, List.find?_range_eq_none]
  constructor
  · intro absent n occurs
    have lt := occurs.lt needle_ne
    have refuted := absent n (by omega)
    simp [occurs] at refuted
  · intro absent n _
    simp [absent n]

theorem firstOffset?_eq_some_iff (needle_ne : needle ≠ []) {n : Nat} :
    firstOffset? needle hay = some n ↔
      OccursAt needle hay n ∧ ∀ m, m < n → ¬ OccursAt needle hay m := by
  rw [firstOffset?, List.find?_range_eq_some]
  constructor
  · rintro ⟨occurs, _, first⟩
    exact ⟨by simpa using occurs, fun m lt => by simpa using first m lt⟩
  · rintro ⟨occurs, first⟩
    have lt := occurs.lt needle_ne
    exact ⟨by simpa using occurs, List.mem_range.2 (by omega),
      fun m lt => by simpa using first m lt⟩

end

/-! ## Rounds -/

/-- What a round of a scan comes to. -/
inductive Round where
  /-- No match is left. -/
  | over
  /-- The byte offset of a match and that from which to go on. -/
  | found (index next : Nat)
  deriving DecidableEq, Repr

/-- One round of a scan, from a byte offset on. It goes on behind the first character of the match,
so that matches may overlap. -/
def round? (needle hay : Text) (start : Nat) : Option Round := do
  let (_, rest) ← cutAt? start hay
  match firstOffset? needle rest with
  | none => return .over
  | some offset =>
    let index := start + offset
    let (_, here) ← cutAt? index hay
    return .found index (index + here.head?.elim 1 Char.utf8Size)

/-- A round from one byte offset on finds a match and goes on from the other. -/
def GoesOn (needle hay : Text) (next start : Nat) : Prop :=
  ∃ index, round? needle hay start = some (.found index next)

section

variable {needle hay front rest before after : Text} {start offset index next : Nat} {c : Char}

theorem round?_of_absent (cut : cutAt? start hay = some (front, rest))
    (absent : firstOffset? needle rest = none) : round? needle hay start = some .over := by
  simp [round?, cut, absent]

theorem round?_of_present (cut : cutAt? start hay = some (front, rest))
    (present : firstOffset? needle rest = some offset)
    (cut_here : cutAt? (start + offset) hay = some (before, c :: after)) :
    round? needle hay start = some (.found (start + offset) (start + offset + c.utf8Size)) := by
  simp [round?, cut, present, cut_here]

/-- A round starts within the text and goes on farther to the right, whatever it looks for. -/
theorem GoesOn.bounds (goes : GoesOn needle hay next start) :
    start ≤ byteLength hay ∧ start < next := by
  obtain ⟨index, goes⟩ := goes
  simp only [round?, Option.bind_eq_bind, Option.bind_eq_some_iff, Prod.exists] at goes
  obtain ⟨before, rest, cut, goes⟩ := goes
  obtain ⟨rfl, rfl⟩ := cutAt?_eq_some_iff.1 cut
  refine ⟨by simp, ?_⟩
  split at goes
  · simp at goes
  · simp only [Option.bind_eq_some_iff, Prod.exists, Option.pure_def, Option.some.injEq,
      Round.found.injEq] at goes
    obtain ⟨_, here, _, rfl, rfl⟩ := goes
    cases here with
    | nil =>
      simp only [List.head?_nil, Option.elim_none]
      omega
    | cons c t =>
      have pos := c.utf8Size_pos
      simp only [List.head?_cons, Option.elim_some]
      omega

end

/-- No scan goes on for ever. -/
theorem goesOn_wellFounded (needle hay : Text) : WellFounded (GoesOn needle hay) := by
  refine Subrelation.wf ?_ (measure fun start => byteLength hay + 1 - start).wf
  intro next start goes
  obtain ⟨le, lt⟩ := goes.bounds
  simp only [InvImage, WellFoundedRelation.rel]
  omega

/-- The byte offsets of the matches from a byte offset on; `none` when a cut fails. -/
def scanFrom? (needle hay : Text) (start : Nat) : Option (List Nat) :=
  match _h : round? needle hay start with
  | none => none
  | some .over => some []
  | some (.found index next) => (scanFrom? needle hay next).map (index :: ·)
termination_by (goesOn_wellFounded needle hay).wrap start
decreasing_by exact ⟨index, _h⟩

/-- The byte offsets of all matches; a needle that is empty is not looked for. -/
def scan? (needle hay : Text) : Option (List Nat) :=
  if needle.isEmpty then some [] else scanFrom? needle hay 0

section

variable {needle hay : Text} {start index next : Nat}

theorem scanFrom?_of_over (ends : round? needle hay start = some .over) :
    scanFrom? needle hay start = some [] := by
  rw [scanFrom?]
  split <;> simp_all

theorem scanFrom?_of_found (goes : round? needle hay start = some (.found index next)) :
    scanFrom? needle hay start = (scanFrom? needle hay next).map (index :: ·) := by
  rw [scanFrom?]
  split <;> simp_all

end

end Chomsky.Text
