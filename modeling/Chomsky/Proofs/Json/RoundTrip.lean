import Chomsky.Proofs.Json.Scalars

/-!
# Printed values are read back

A printed value is read back as it was (`Json.read_render_append`). The reader is bounded by fuel,
so the statement is carried by induction on the fuel, for values and for the items and members after
a bracket or a comma at once (`Json.ReadsBack`); the length of the printed text says how much fuel
is enough.
-/

namespace Chomsky.Json

/-! ## Values -/

section

variable (level : Nat)

/-- The text of a value whose lines after the first stand at `level`. -/
def renderAt (j : Json) : Text := (j.pieces level).flatten

def renderItems (items : List Json) : Text := (itemPieces level items).flatten

def renderMembers (members : List (Text × Json)) : Text := (memberPieces level members).flatten

theorem renderAt_number (m e : Int) : renderAt level (number m e) = numberText m e := by
  simp [renderAt, pieces]

theorem renderAt_string (t : Text) : renderAt level (string t) = '"' :: (escape t ++ ['"']) := by
  simp [renderAt, pieces, stringPieces]

theorem renderAt_array_cons (item : Json) (rest : List Json) :
    renderAt level (array (item :: rest)) =
      '[' :: (newline (level + 1) ++ renderAt (level + 1) item ++ renderItems (level + 1) rest ++
        newline level ++ [']']) := by
  simp [renderAt, renderItems, pieces]

theorem renderItems_cons (item : Json) (rest : List Json) :
    renderItems level (item :: rest) =
      ',' :: (newline level ++ renderAt level item ++ renderItems level rest) := by
  simp [renderAt, renderItems, itemPieces]

def renderMember (key : Text) (value : Json) : Text :=
  '"' :: (escape key ++ '"' :: ':' :: ' ' :: renderAt level value)

theorem renderAt_object_cons (key : Text) (value : Json) (rest : List (Text × Json)) :
    renderAt level (object ((key, value) :: rest)) =
      '\x7b' :: (newline (level + 1) ++ renderMember (level + 1) key value ++
        renderMembers (level + 1) rest ++ newline level ++ ['\x7d']) := by
  simp [renderAt, renderMember, renderMembers, pieces, stringPieces]

theorem renderMembers_cons (key : Text) (value : Json) (rest : List (Text × Json)) :
    renderMembers level ((key, value) :: rest) =
      ',' :: (newline level ++ renderMember level key value ++ renderMembers level rest) := by
  simp [renderAt, renderMember, renderMembers, memberPieces, stringPieces]

end

/-- A value begins with a character of its own. -/
theorem exists_cons_renderAt (level : Nat) (j : Json) :
    ∃ c t, renderAt level j = c :: t ∧ isSpace c = false ∧ c ≠ ']' := by
  cases j with
  | null => exact ⟨'n', _, rfl, rfl, by decide⟩
  | bool b =>
    cases b with
    | false => exact ⟨'f', _, rfl, rfl, by decide⟩
    | true => exact ⟨'t', _, rfl, rfl, by decide⟩
  | number m e =>
    obtain ⟨c, t, first, begins⟩ := exists_cons_integer m
    refine ⟨c, t ++ exponentText e, ?_, ?_, ?_⟩
    · rw [renderAt_number, numberText_eq, first, List.cons_append]
    · simp only [isSpace, Bool.or_eq_false_iff, beq_eq_false_iff_ne]
      refine ⟨⟨⟨?_, ?_⟩, ?_⟩, ?_⟩
      all_goals
        rintro rfl
        revert begins
        decide
    · rintro rfl
      revert begins
      decide
  | string t => exact ⟨'"', _, renderAt_string level t, rfl, by decide⟩
  | array items =>
    cases items with
    | nil => exact ⟨'[', _, rfl, rfl, by decide⟩
    | cons item rest => exact ⟨'[', _, renderAt_array_cons level item rest, rfl, by decide⟩
  | object members =>
    cases members with
    | nil => exact ⟨'\x7b', _, rfl, rfl, by decide⟩
    | cons member rest => exact ⟨'\x7b', _, renderAt_object_cons level _ _ rest, rfl, by decide⟩

theorem skipSpace_renderAt (level : Nat) (j : Json) (t : Text) :
    skipSpace (renderAt level j ++ t) = renderAt level j ++ t := by
  obtain ⟨c, rest, first, solid, _⟩ := exists_cons_renderAt level j
  rw [first]
  exact skipSpace_cons solid _

theorem skipSpace_colon (t : Text) : skipSpace (':' :: t) = ':' :: t := rfl

theorem skipSpace_blank_renderAt (level : Nat) (j : Json) (t : Text) :
    skipSpace (' ' :: (renderAt level j ++ t)) = renderAt level j ++ t :=
  skipSpace_renderAt level j t

theorem renderMember_append (level : Nat) (key : Text) (value : Json) (t : Text) :
    renderMember level key value ++ t =
      '"' :: (escape key ++ '"' :: ':' :: ' ' :: (renderAt level value ++ t)) := by
  simp [renderMember]

theorem skipSpace_renderMember (level : Nat) (key : Text) (value : Json) (t : Text) :
    skipSpace (renderMember level key value ++ t) = renderMember level key value ++ t :=
  rfl

/-! ## Steps of the reader -/

section

variable {fuel level : Nat} {t rest after : Text} {item value : Json} {key : Text}

theorem readValue_bracket (filled : ∀ rest, skipSpace t ≠ ']' :: rest) :
    readValue (fuel + 1) ('[' :: t) = (readItems fuel (skipSpace t)).map (Prod.map array id) := by
  rw [readValue]
  split
  · next closed => exact absurd closed (filled _)
  · rfl

theorem readItems_last (read : readValue fuel (skipSpace t) = some (item, rest))
    (closed : skipSpace rest = ']' :: after) :
    readItems (fuel + 1) t = some ([item], after) := by
  simp [readItems, read, closed]

theorem readItems_next (read : readValue fuel (skipSpace t) = some (item, rest))
    (comma : skipSpace rest = ',' :: after) :
    readItems (fuel + 1) t = (readItems fuel after).map (Prod.map (item :: ·) id) := by
  simp only [readItems, read, comma, Option.bind_eq_bind, Option.bind_some]
  cases readItems fuel after <;> rfl

theorem readValue_brace (filled : ∀ rest, skipSpace t ≠ '\x7d' :: rest) :
    readValue (fuel + 1) ('\x7b' :: t) =
      (readMembers fuel (skipSpace t)).map (Prod.map object id) := by
  rw [readValue]
  split
  · next closed => exact absurd closed (filled _)
  · rfl

theorem readMembers_last (first : skipSpace t = renderMember level key value ++ rest)
    (read : readValue fuel (renderAt level value ++ rest) = some (value, rest))
    (closed : skipSpace rest = '\x7d' :: after) :
    readMembers (fuel + 1) t = some ([(key, value)], after) := by
  rw [renderMember_append] at first
  rw [← skipSpace_blank_renderAt] at read
  simp only [readMembers, first, readString_printed, skipSpace_colon, read, closed,
    Option.bind_eq_bind, Option.bind_some]
  rfl

theorem readMembers_next (first : skipSpace t = renderMember level key value ++ rest)
    (read : readValue fuel (renderAt level value ++ rest) = some (value, rest))
    (comma : skipSpace rest = ',' :: after) :
    readMembers (fuel + 1) t = (readMembers fuel after).map (Prod.map ((key, value) :: ·) id) := by
  rw [renderMember_append] at first
  rw [← skipSpace_blank_renderAt] at read
  simp only [readMembers, first, readString_printed, skipSpace_colon, read, comma,
    Option.bind_eq_bind, Option.bind_some]
  cases readMembers fuel after <;> rfl

theorem readValue_integer {n : Int} :
    readValue (fuel + 1) (integer n ++ t) = readNumber (integer n ++ t) := by
  obtain ⟨c, tail, first, begins⟩ := exists_cons_integer n
  rw [first, List.cons_append, readValue]
  all_goals
    intro rest same
    obtain ⟨rfl, _⟩ := List.cons.inj same
    revert begins
    decide

end

/-! ## Whole values -/

theorem endsNumber_cons {c : Char} (ends : c.isDigit = false ∧ c ≠ '.' ∧ c ≠ 'e' ∧ c ≠ 'E')
    (t : Text) : EndsNumber (c :: t) := by
  intro d first
  obtain rfl := Option.some.inj first
  exact ends

theorem endsNumber_newline (level : Nat) (t : Text) : EndsNumber (newline level ++ t) :=
  endsNumber_cons (by decide) _

theorem endsNumber_renderItems (level outer : Nat) (items : List Json) (t : Text) :
    EndsNumber (renderItems level items ++ (newline outer ++ t)) := by
  cases items with
  | nil => exact endsNumber_newline outer t
  | cons item rest =>
    rw [renderItems_cons]
    exact endsNumber_cons (by decide) _

theorem endsNumber_renderMembers (level outer : Nat) (members : List (Text × Json)) (t : Text) :
    EndsNumber (renderMembers level members ++ (newline outer ++ t)) := by
  cases members with
  | nil => exact endsNumber_newline outer t
  | cons member rest =>
    rw [renderMembers_cons]
    exact endsNumber_cons (by decide) _

/-- What is printed is read back, if the fuel is enough for its text. -/
structure ReadsBack (fuel : Nat) : Prop where
  value : ∀ {level : Nat} {j : Json} {after : Text}, EndsNumber after →
    2 * (renderAt level j).length ≤ fuel →
      readValue fuel (renderAt level j ++ after) = some (j, after)
  items : ∀ {level outer : Nat} {item : Json} {rest : List Json} {t after : Text},
    skipSpace t =
      renderAt level item ++ (renderItems level rest ++ (newline outer ++ ']' :: after)) →
    2 * ((renderAt level item).length + (renderItems level rest).length) < fuel →
      readItems fuel t = some (item :: rest, after)
  members : ∀ {level outer : Nat} {key : Text} {value : Json} {rest : List (Text × Json)}
      {t after : Text},
    skipSpace t = renderMember level key value ++ (renderMembers level rest ++
      (newline outer ++ '\x7d' :: after)) →
    2 * ((renderMember level key value).length + (renderMembers level rest).length) < fuel →
      readMembers fuel t = some ((key, value) :: rest, after)

namespace ReadsBack

theorem zero : ReadsBack 0 where
  value := by
    intro level j _ _ enough
    obtain ⟨c, t, first, _⟩ := exists_cons_renderAt level j
    simp [first] at enough
  items := fun _ enough => absurd enough (Nat.not_lt_zero _)
  members := fun _ enough => absurd enough (Nat.not_lt_zero _)

variable {fuel : Nat}

theorem value_succ (smaller : ReadsBack fuel) {level : Nat} {j : Json} {after : Text}
    (ends : EndsNumber after) (enough : 2 * (renderAt level j).length ≤ fuel + 1) :
    readValue (fuel + 1) (renderAt level j ++ after) = some (j, after) := by
  cases j with
  | null => rfl
  | bool b => cases b <;> rfl
  | number m e =>
    rw [renderAt_number, numberText_eq, List.append_assoc, readValue_integer, ← List.append_assoc,
      ← numberText_eq, readNumber_numberText m e ends]
  | string t =>
    rw [renderAt_string, List.cons_append, List.append_assoc, List.singleton_append, readValue,
      readString_printed]
    rfl
  | array items =>
    cases items with
    | nil => rfl
    | cons item rest =>
      rw [renderAt_array_cons] at enough ⊢
      simp only [List.length_cons, List.length_append] at enough
      simp only [List.cons_append, List.append_assoc, List.nil_append]
      rw [readValue_bracket, skipSpace_newline, skipSpace_renderAt,
        smaller.items (skipSpace_renderAt ..) (by omega)]
      · rfl
      · obtain ⟨c, tail, first, _, filled⟩ := exists_cons_renderAt (level + 1) item
        rw [skipSpace_newline, skipSpace_renderAt, first]
        exact fun _ closed => filled (List.cons.inj closed).1
  | object members =>
    cases members with
    | nil => rfl
    | cons member rest =>
      obtain ⟨key, value⟩ := member
      rw [renderAt_object_cons] at enough ⊢
      simp only [List.length_cons, List.length_append] at enough
      simp only [List.cons_append, List.append_assoc, List.nil_append]
      rw [readValue_brace, skipSpace_newline, skipSpace_renderMember,
        smaller.members (skipSpace_renderMember ..) (by omega)]
      · rfl
      · rw [skipSpace_newline]
        exact fun _ closed => by cases closed

theorem items_succ (smaller : ReadsBack fuel) {level outer : Nat} {item : Json} {rest : List Json}
    {t after : Text}
    (starts : skipSpace t =
      renderAt level item ++ (renderItems level rest ++ (newline outer ++ ']' :: after)))
    (enough : 2 * ((renderAt level item).length + (renderItems level rest).length) < fuel + 1) :
    readItems (fuel + 1) t = some (item :: rest, after) := by
  have read : readValue fuel (skipSpace t) =
      some (item, renderItems level rest ++ (newline outer ++ ']' :: after)) := by
    rw [starts]
    exact smaller.value (endsNumber_renderItems level outer rest _) (by omega)
  cases rest with
  | nil => exact readItems_last read (skipSpace_newline outer _)
  | cons next rest =>
    simp only [renderItems_cons, List.length_cons, List.length_append] at enough
    rw [renderItems_cons, List.cons_append] at read
    have following : skipSpace (newline level ++ renderAt level next ++ renderItems level rest ++
        (newline outer ++ ']' :: after)) =
          renderAt level next ++ (renderItems level rest ++ (newline outer ++ ']' :: after)) := by
      rw [List.append_assoc, List.append_assoc, skipSpace_newline, skipSpace_renderAt]
    rw [readItems_next read rfl, smaller.items following (by omega)]
    rfl

theorem members_succ (smaller : ReadsBack fuel) {level outer : Nat} {key : Text} {value : Json}
    {rest : List (Text × Json)} {t after : Text}
    (starts : skipSpace t = renderMember level key value ++ (renderMembers level rest ++
      (newline outer ++ '\x7d' :: after)))
    (enough :
      2 * ((renderMember level key value).length + (renderMembers level rest).length) < fuel + 1) :
    readMembers (fuel + 1) t = some ((key, value) :: rest, after) := by
  have shorter : (renderAt level value).length < (renderMember level key value).length := by
    simp only [renderMember, List.length_cons, List.length_append]
    omega
  have read : readValue fuel (renderAt level value ++ (renderMembers level rest ++
      (newline outer ++ '\x7d' :: after))) =
        some (value, renderMembers level rest ++ (newline outer ++ '\x7d' :: after)) :=
    smaller.value (endsNumber_renderMembers level outer rest _) (by omega)
  cases rest with
  | nil => exact readMembers_last starts read (skipSpace_newline outer _)
  | cons next rest =>
    obtain ⟨nextKey, next⟩ := next
    simp only [renderMembers_cons, List.length_cons, List.length_append] at enough
    rw [renderMembers_cons, List.cons_append] at read starts
    have following : skipSpace (newline level ++ renderMember level nextKey next ++
        renderMembers level rest ++ (newline outer ++ '\x7d' :: after)) =
          renderMember level nextKey next ++ (renderMembers level rest ++
            (newline outer ++ '\x7d' :: after)) := by
      rw [List.append_assoc, List.append_assoc, skipSpace_newline, skipSpace_renderMember]
    rw [readMembers_next starts read rfl, smaller.members following (by omega)]
    rfl

end ReadsBack

theorem readsBack (fuel : Nat) : ReadsBack fuel := by
  induction fuel with
  | zero => exact .zero
  | succ fuel smaller => exact ⟨smaller.value_succ, smaller.items_succ, smaller.members_succ⟩

theorem endsNumber_of_blank {t : Text} (blank : ∀ c ∈ t, isSpace c = true) : EndsNumber t := by
  intro c first
  have space := blank c (List.mem_of_mem_head? first)
  simp only [isSpace, Bool.or_eq_true, beq_iff_eq] at space
  rcases space with ((rfl | rfl) | rfl) | rfl <;> decide

/-- A printed value is read back, whichever white space follows. -/
theorem read_render_append (j : Json) {blank : Text} (spaces : ∀ c ∈ blank, isSpace c = true) :
    read (j.render ++ blank) = some j := by
  have enough : 2 * (renderAt 0 j).length ≤ 2 * (renderAt 0 j ++ blank).length + 1 := by
    rw [List.length_append]
    omega
  have value := (readsBack _).value (endsNumber_of_blank spaces) enough
  have nothing : skipSpace blank = [] := by
    rw [← List.append_nil blank]
    exact skipSpace_append spaces []
  change read (renderAt 0 j ++ blank) = some j
  rw [read, skipSpace_renderAt, value]
  simp [nothing]

end Chomsky.Json
