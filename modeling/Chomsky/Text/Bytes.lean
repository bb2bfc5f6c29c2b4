import Chomsky.Text.Basic

/-!
# Bytes

Texts meet the outside as UTF-8. Main statements: `decode_encode` and `encode_of_decode`.
-/

namespace Chomsky

abbrev Bytes := List UInt8

namespace Text

/-- The UTF-8 form of a text. -/
def encode (t : Text) : Bytes := t.flatMap String.utf8EncodeChar

theorem encode_append (t u : Text) : encode (t ++ u) = encode t ++ encode u :=
  List.flatMap_append

/-- The text of UTF-8 bytes, or `none` when they are not well-formed. -/
def decode (bs : Bytes) : Option Text := (String.fromUTF8? ⟨bs.toArray⟩).map String.toList

theorem decode_encode (t : Text) : decode (encode t) = some t := by
  have h : (⟨(encode t).toArray⟩ : ByteArray) = (String.ofList t).toByteArray := by
    rw [String.toByteArray_ofList]
    exact ByteArray.ext (by simp [encode, List.utf8Encode])
  have hv : (⟨(encode t).toArray⟩ : ByteArray).IsValidUTF8 := h ▸ (String.ofList t).isValidUTF8
  unfold decode String.fromUTF8?
  rw [dif_pos hv, Option.map_some]
  congr 1
  rw [← String.ofList_inj, String.ofList_toList]
  exact String.toByteArray_inj.1 h

theorem encode_inj {t u : Text} : encode t = encode u ↔ t = u := by
  refine ⟨fun same => ?_, congrArg encode⟩
  have read : decode (encode u) = some t := same ▸ decode_encode t
  exact Option.some.inj (read.symm.trans (decode_encode u))

theorem eq_of_encodeChar_append {c d : Char} {bs cs : Bytes}
    (same : String.utf8EncodeChar c ++ bs = String.utf8EncodeChar d ++ cs) : c = d := by
  have read (c : Char) (bs : Bytes) :
      (String.utf8EncodeChar c ++ bs).toByteArray.utf8DecodeChar? 0 = some c := by
    rw [List.toByteArray_append]
    exact ByteArray.utf8DecodeChar?_utf8EncodeChar_append
  exact Option.some.inj ((read c bs).symm.trans (same ▸ read d cs))

/-- The bytes of one text stand in front of those of another only where its characters do. -/
theorem encode_prefix_iff {t u : Text} : encode t <+: encode u ↔ t <+: u := by
  constructor
  · intro front
    induction t generalizing u with
    | nil => exact List.nil_prefix
    | cons c t ih =>
      cases u with
      | nil =>
        have size : (encode (c :: t)).length ≤ 0 := front.length_le
        have pos := c.utf8Size_pos
        simp only [encode, List.flatMap_cons, List.length_append, String.length_utf8EncodeChar]
          at size
        omega
      | cons d u =>
        obtain ⟨back, whole⟩ := front
        simp only [encode, List.flatMap_cons, List.append_assoc] at whole
        obtain rfl := eq_of_encodeChar_append whole
        exact (List.prefix_cons_inj c).2 (ih ⟨back, List.append_cancel_left whole⟩)
  · rintro ⟨back, rfl⟩
    exact ⟨encode back, (encode_append t back).symm⟩

/-- Only its own bytes are read as a text. -/
theorem encode_of_decode {bs : Bytes} {t : Text} (read : decode bs = some t) : encode t = bs := by
  obtain ⟨s, valid, rfl⟩ := Option.map_eq_some_iff.1 read
  have bytes : s.toByteArray = ⟨bs.toArray⟩ := by
    unfold String.fromUTF8? at valid
    split at valid
    · obtain rfl := Option.some.inj valid
      rfl
    · cases valid
  have encoded : s.toByteArray = ⟨(encode s.toList).toArray⟩ := by
    conv => lhs; rw [← String.ofList_toList (s := s), String.toByteArray_ofList]
    exact ByteArray.ext (by simp [encode, List.utf8Encode])
  rw [encoded] at bytes
  simpa using bytes

end Text

end Chomsky
