import Chomsky.Json.Printer
import Chomsky.Json.Reader

/-!
# Printed strings and numbers

Strings and numbers are read back as they were (`Json.readString_printed`,
`Json.readNumber_numberText`). A string may hold any characters. A number has no end of its own, so
what follows must not go on with it (`Json.EndsNumber`).
-/

namespace Chomsky.Json

/-! ## White space -/

theorem skipSpace_append {front : Text} (blank : ∀ c ∈ front, isSpace c = true) (t : Text) :
    skipSpace (front ++ t) = skipSpace t :=
  List.dropWhile_append_of_pos blank

theorem skipSpace_newline (level : Nat) (t : Text) :
    skipSpace (newline level ++ t) = skipSpace t := by
  refine skipSpace_append ?_ t
  intro c member
  rcases List.mem_cons.1 member with rfl | member
  · rfl
  · obtain rfl := List.eq_of_mem_replicate member
    rfl

theorem skipSpace_cons {c : Char} (solid : isSpace c = false) (t : Text) :
    skipSpace (c :: t) = c :: t := by
  rw [skipSpace, List.dropWhile_cons_of_neg (by simp [solid])]

/-! ## Strings -/

theorem hexValue_digitChar : ∀ n < 16, hexValue (Nat.digitChar n) = some n := by
  decide

theorem readEscape_control {c : Char} (control : c.toNat < 0x20) (rest : Text) :
    readEscape ('u' :: '0' :: '0' :: (controlDigits c ++ rest)) = some (c, rest) := by
  have high := hexValue_digitChar (c.toNat / 16) (by omega)
  have low := hexValue_digitChar (c.toNat % 16) (by omega)
  have zero : hexValue '0' = some 0 := rfl
  have unit : readUnit ('0' :: '0' :: (controlDigits c ++ rest)) = some (c.toNat, rest) := by
    simp [readUnit, controlDigits, zero, high, low, Nat.div_add_mod]
  have small : c.toNat < 0xD800 := by omega
  simp [readEscape, readCodePoint, unit, small, Char.ofNat_toNat]

theorem readString_backslash (code : Text) {c : Char} {rest : Text}
    (escaped : readEscape (code ++ rest) = some (c, rest)) (fuel : Nat) :
    readString (fuel + 1) ('\\' :: (code ++ rest)) =
      (readString fuel rest).map (Prod.map (c :: ·) id) := by
  simp only [readString, escaped, Option.bind_eq_bind, Option.bind_some]
  cases readString fuel rest <;> rfl

theorem readString_plain {c : Char} (noQuote : c ≠ '"') (noBackslash : c ≠ '\\')
    (noControl : ¬ c.toNat < 0x20) (fuel : Nat) (rest : Text) :
    readString (fuel + 1) (c :: rest) =
      (readString fuel rest).map (Prod.map (c :: ·) id) := by
  rw [readString]
  · rw [if_neg noControl]
    cases readString fuel rest <;> rfl
  · exact noQuote
  · exact noBackslash

theorem readString_escapeChar (c : Char) (fuel : Nat) (rest : Text) :
    readString (fuel + 1) (escapeChar c ++ rest) =
      (readString fuel rest).map (Prod.map (c :: ·) id) := by
  unfold escapeChar
  split
  · next quote => exact readString_backslash ['"'] (by rw [quote]; rfl) fuel
  split
  · next backslash => exact readString_backslash ['\\'] (by rw [backslash]; rfl) fuel
  split
  · next back => exact readString_backslash ['b'] (by rw [back]; rfl) fuel
  split
  · next feed => exact readString_backslash ['f'] (by rw [feed]; rfl) fuel
  split
  · next line => exact readString_backslash ['n'] (by rw [line]; rfl) fuel
  split
  · next carriage => exact readString_backslash ['r'] (by rw [carriage]; rfl) fuel
  split
  · next tab => exact readString_backslash ['t'] (by rw [tab]; rfl) fuel
  split
  · next control =>
    exact readString_backslash ('u' :: '0' :: '0' :: controlDigits c)
      (readEscape_control control rest) fuel
  · next noQuote noBackslash _ _ _ _ _ noControl =>
    exact readString_plain noQuote noBackslash noControl fuel rest

theorem escape_cons (c : Char) (t : Text) : escape (c :: t) = escapeChar c ++ escape t :=
  List.flatMap_cons

/-- Each character is read back in one step, however it is escaped. -/
theorem readString_escape {t : Text} {fuel : Nat} (enough : t.length < fuel) (rest : Text) :
    readString fuel (escape t ++ '"' :: rest) = some (t, rest) := by
  induction t generalizing fuel with
  | nil =>
    obtain ⟨fuel, rfl⟩ := Nat.exists_eq_succ_of_ne_zero (Nat.ne_of_gt enough)
    rfl
  | cons c t ih =>
    obtain ⟨fuel, rfl⟩ := Nat.exists_eq_succ_of_ne_zero (Nat.ne_zero_of_lt enough)
    have shorter : t.length < fuel := Nat.lt_of_succ_lt_succ enough
    rw [escape_cons, List.append_assoc, readString_escapeChar, ih shorter]
    rfl

theorem length_le_length_escape (t : Text) : t.length ≤ (escape t).length := by
  induction t with
  | nil => exact Nat.le_refl 0
  | cons c t ih =>
    have one : 0 < (escapeChar c).length := by
      unfold escapeChar
      repeat' split
      all_goals simp
    rw [escape_cons, List.length_append, List.length_cons]
    omega

/-- The length of the text is fuel enough. -/
theorem readString_printed (t rest : Text) :
    readString ((escape t ++ '"' :: rest).length + 1) (escape t ++ '"' :: rest) =
      some (t, rest) := by
  refine readString_escape ?_ rest
  have := length_le_length_escape t
  rw [List.length_append]
  omega

/-! ## Numbers -/

/-- A number in front of the text does not go on in it. -/
def EndsNumber (t : Text) : Prop :=
  ∀ c ∈ t.head?, c.isDigit = false ∧ c ≠ '.' ∧ c ≠ 'e' ∧ c ≠ 'E'

theorem digitsValue_ofNat (n : Nat) : digitsValue (Text.ofNat n) = n :=
  Nat.ofDigitChars_ten_toDigits

/-- Only zero is printed with a zero in front. -/
theorem eq_zero_of_head_ofNat {n : Nat} (zero : (Text.ofNat n).head? = some '0') : n = 0 := by
  induction n using Nat.strongRecOn with
  | ind n ih =>
    rw [Text.ofNat, Nat.toDigits_eq_if (by omega)] at zero
    split at zero
    · exact Nat.digitChar_eq_zero.1 (Option.some.inj zero)
    · next large =>
      obtain ⟨c, tail, digits, _⟩ := Text.exists_cons_ofNat (n / 10)
      rw [Text.ofNat] at digits
      rw [digits] at zero
      have := ih (n / 10) (by omega) (by rw [Text.ofNat, digits]; exact zero)
      omega

theorem readDigits_ofNat (n : Nat) {rest : Text} (ends : ∀ c ∈ rest.head?, c.isDigit = false) :
    readDigits (Text.ofNat n ++ rest) = some (Text.ofNat n, rest) := by
  have after : rest.takeWhile Char.isDigit = [] ∧ rest.dropWhile Char.isDigit = rest := by
    cases rest with
    | nil => exact ⟨rfl, rfl⟩
    | cons c rest => simp [ends c rfl]
  unfold readDigits
  rw [List.takeWhile_append_of_pos fun _ => Text.isDigit_of_mem_ofNat,
    List.dropWhile_append_of_pos fun _ => Text.isDigit_of_mem_ofNat, after.1, after.2, List.append_nil]
  split
  · next none => exact absurd none Nat.toDigits_ne_nil
  · rfl

theorem readWhole_ofNat (n : Nat) {rest : Text} (ends : ∀ c ∈ rest.head?, c.isDigit = false) :
    readWhole (Text.ofNat n ++ rest) = some (Text.ofNat n, rest) := by
  simp only [readWhole, readDigits_ofNat n ends, Option.bind_eq_bind, Option.bind_some]
  split
  · next d tail padded =>
    obtain rfl := eq_zero_of_head_ofNat (n := n) (by rw [padded]; rfl)
    cases padded
  · rfl

theorem readFraction_of_ends {rest : Text} (ends : ∀ c ∈ rest.head?, c ≠ '.') :
    readFraction rest = some ([], rest) := by
  unfold readFraction
  split
  · exact absurd rfl (ends '.' rfl)
  · rfl

theorem readExponent_of_ends {rest : Text} (ends : EndsNumber rest) :
    readExponent rest = some (0, rest) := by
  unfold readExponent
  dsimp only
  split
  · exact absurd rfl (ends 'e' rfl).2.2.1
  · exact absurd rfl (ends 'E' rfl).2.2.2
  · rfl

/-- Digits do not begin with a sign. -/
theorem ofNat_append_ne_cons {n : Nat} {c : Char} (sign : c.isDigit = false) (t rest : Text) :
    Text.ofNat n ++ t ≠ c :: rest := by
  obtain ⟨d, more, digits, digit⟩ := Text.exists_cons_ofNat n
  rw [digits]
  intro same
  obtain ⟨rfl, _⟩ := List.cons.inj same
  cases digit.symm.trans sign

theorem readExponent_integer (n : Int) {rest : Text} (ends : EndsNumber rest) :
    readExponent ('e' :: (integer n ++ rest)) = some (n, rest) := by
  have digits (m : Nat) := readDigits_ofNat m fun c first => (ends c first).1
  cases n with
  | ofNat n =>
    simp only [readExponent, integer]
    split
    · next minus => exact absurd minus (ofNat_append_ne_cons rfl _ _)
    · next plus => exact absurd plus (ofNat_append_ne_cons rfl _ _)
    · simp [digits, digitsValue_ofNat]
  | negSucc n =>
    simp [readExponent, integer, digits, digitsValue_ofNat, Int.negSucc_eq]

/-- What `numberText` puts behind the mantissa. -/
def exponentText (e : Int) : Text := if e = 0 then [] else 'e' :: integer e

theorem numberText_eq (m e : Int) : numberText m e = integer m ++ exponentText e := by
  unfold numberText exponentText
  split <;> simp

theorem readExponent_exponentText (e : Int) {rest : Text} (ends : EndsNumber rest) :
    readExponent (exponentText e ++ rest) = some (e, rest) := by
  unfold exponentText
  split
  · next zero => rw [zero, List.nil_append, readExponent_of_ends ends]
  · exact readExponent_integer e ends

theorem head_exponentText (e : Int) {rest : Text} (ends : EndsNumber rest) :
    ∀ c ∈ (exponentText e ++ rest).head?, c.isDigit = false ∧ c ≠ '.' := by
  intro c first
  unfold exponentText at first
  split at first
  · exact ⟨(ends c first).1, (ends c first).2.1⟩
  · obtain rfl := Option.some.inj first
    decide

theorem readNumber_numberText (m e : Int) {rest : Text} (ends : EndsNumber rest) :
    readNumber (numberText m e ++ rest) = some (number m e, rest) := by
  have head := head_exponentText e ends
  have whole (n : Nat) := readWhole_ofNat n fun c first => (head c first).1
  have fraction := readFraction_of_ends fun c first => (head c first).2
  have exponent := readExponent_exponentText e ends
  rw [numberText_eq, List.append_assoc]
  cases m with
  | ofNat n =>
    unfold readNumber
    dsimp only [integer]
    split
    · next minus => exact absurd minus (ofNat_append_ne_cons rfl _ _)
    · simp [whole, fraction, exponent, digitsValue_ofNat]
  | negSucc n =>
    simp [readNumber, integer, whole, fraction, exponent, digitsValue_ofNat, Int.negSucc_eq]

theorem exists_cons_integer (n : Int) :
    ∃ c t, integer n = c :: t ∧ (c = '-' ∨ c.isDigit = true) := by
  cases n with
  | ofNat n =>
    obtain ⟨c, t, digits, digit⟩ := Text.exists_cons_ofNat n
    exact ⟨c, t, digits, .inr digit⟩
  | negSucc n => exact ⟨'-', _, rfl, .inl rfl⟩

end Chomsky.Json
