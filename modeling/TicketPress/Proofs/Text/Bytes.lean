import TicketPress.Text.Lines

/-!
# The bytes of a text

Offsets count the bytes of the UTF-8 form, and a text is read by its
characters. Both go together because a beginning of the text is a beginning of
its bytes, and because an ASCII character is one byte that occurs in no other
character: all bytes of a wide character are 128 or more.
-/

namespace TicketPress.Text

/-- The bytes of the UTF-8 form of a text. -/
def bytes (text : List Char) : List UInt8 := text.flatMap String.utf8EncodeChar

@[simp] theorem bytes_nil : bytes [] = [] := rfl

@[simp] theorem bytes_cons (c : Char) (text : List Char) :
    bytes (c :: text) = String.utf8EncodeChar c ++ bytes text := rfl

@[simp] theorem bytes_append (a b : List Char) : bytes (a ++ b) = bytes a ++ bytes b :=
  List.flatMap_append

/-- The bytes of a text are those of the string. -/
theorem toList_toByteArray (line : String) : line.toByteArray.data.toList = bytes line.toList := by
  rw [← String.utf8Encode_toList, List.utf8Encode, List.toList_data_toByteArray, bytes]

theorem getElem?_bytes {line : String} {offset : Nat} (h : offset < line.toByteArray.size) :
    (bytes line.toList)[offset]? = some line.toByteArray[offset] := by
  rw [← toList_toByteArray, List.getElem?_eq_getElem h]
  rfl

@[simp] theorem length_bytes (text : List Char) : (bytes text).length = byteLength text := by
  induction text with
  | nil => rfl
  | cons c text ih => rw [bytes_cons, List.length_append, String.length_utf8EncodeChar, ih,
      byteLength_cons]

/-- The offsets of this library are those of the UTF-8 form of a string. -/
theorem byteLength_eq (text : List Char) :
    byteLength text = (String.ofList text).utf8ByteSize := by
  induction text with
  | nil => rfl
  | cons c text ih =>
      rw [byteLength_cons, ih, String.ofList_cons, String.utf8ByteSize_append,
        String.utf8ByteSize_singleton]

theorem byteLength_toList (line : String) : byteLength line.toList = line.utf8ByteSize := by
  rw [byteLength_eq, String.ofList_toList]

theorem byteLength_pos {text : List Char} (h : text ≠ []) : 0 < byteLength text := by
  cases text with
  | nil => exact absurd rfl h
  | cons c text =>
      have hc := c.utf8Size_pos
      rw [Text.byteLength_cons]
      omega

/-- Two beginnings of a text with the same number of bytes are the same. -/
theorem append_inj_of_byteLength {a b c d : List Char} (h : a ++ b = c ++ d)
    (hlength : byteLength a = byteLength c) : a = c ∧ b = d := by
  induction a generalizing c with
  | nil =>
      cases c with
      | nil => exact ⟨rfl, h⟩
      | cons x c => exact absurd hlength (Nat.ne_of_lt (byteLength_pos (by simp)))
  | cons x a ih =>
      cases c with
      | nil => exact absurd hlength.symm (Nat.ne_of_lt (byteLength_pos (by simp)))
      | cons y c =>
          obtain ⟨rfl, htail⟩ := List.cons.inj h
          obtain ⟨rfl, rfl⟩ := ih htail (Nat.add_left_cancel hlength)
          exact ⟨rfl, rfl⟩

/-- A beginning of a string ends on a boundary between characters. -/
theorem isValid_byteLength {script : String} {before after : List Char}
    (h : script.toList = before ++ after) :
    String.Pos.Raw.IsValid script ⟨byteLength before⟩ := by
  rw [String.Pos.Raw.isValid_iff_exists_append]
  refine ⟨String.ofList before, String.ofList after, ?_, ?_⟩
  · rw [← String.toList_inj, String.toList_append, String.toList_ofList, String.toList_ofList, h]
  · rw [byteLength_eq]
    rfl

/-- The bytes between the offsets of a part are the bytes of the part. -/
theorem extract_toByteArray {line : String} {before part after : List Char}
    (h : line.toList = before ++ part ++ after) :
    line.toByteArray.extract (byteLength before) (byteLength before + byteLength part) =
      (String.ofList part).toByteArray := by
  have hline : line = String.ofList before ++ String.ofList part ++ String.ofList after := by
    rw [← String.toList_inj, h]
    simp
  have hsize : ∀ text, (String.ofList text).toByteArray.size = byteLength text := by
    intro text
    rw [String.size_toByteArray, byteLength_eq]
  rw [hline, String.toByteArray_append, String.toByteArray_append, ByteArray.append_assoc,
    ByteArray.extract_append, hsize, Nat.sub_self, Nat.add_sub_cancel_left,
    ByteArray.extract_eq_empty_iff.mpr (by rw [hsize]; exact Nat.min_le_right _ _),
    ByteArray.empty_append, ByteArray.extract_append_eq_left (hsize part).symm]

/-! ## Wide characters -/

/-- An ASCII character is one byte. -/
theorem utf8EncodeChar_of_lt {c : Char} (h : c.toNat < 128) :
    String.utf8EncodeChar c = [UInt8.ofNat c.toNat] := by
  have hc : c.val.toNat ≤ 127 := by
    rw [Char.toNat_val]
    omega
  unfold String.utf8EncodeChar
  rw [if_pos hc]
  rfl

/-- Every byte of a wide character is 128 or more. -/
theorem le_of_mem_utf8EncodeChar {c : Char} (h : 128 ≤ c.toNat) {b : UInt8}
    (hb : b ∈ String.utf8EncodeChar c) : 128 ≤ b.toNat := by
  have hc : ¬ c.val.toNat ≤ 127 := by
    rw [Char.toNat_val]
    omega
  unfold String.utf8EncodeChar at hb
  simp only [hc, if_false] at hb
  split at hb
  · simp only [List.mem_cons, List.not_mem_nil, or_false] at hb
    rcases hb with rfl | rfl <;> (simp only [UInt8.toNat_ofNat']; omega)
  · split at hb
    · simp only [List.mem_cons, List.not_mem_nil, or_false] at hb
      rcases hb with rfl | rfl | rfl <;> (simp only [UInt8.toNat_ofNat']; omega)
    · simp only [List.mem_cons, List.not_mem_nil, or_false] at hb
      rcases hb with rfl | rfl | rfl | rfl <;> (simp only [UInt8.toNat_ofNat']; omega)

/-- A byte below 128 is a character of its own. -/
theorem toNat_eq_of_mem_utf8EncodeChar {c : Char} {b : UInt8}
    (hb : b ∈ String.utf8EncodeChar c) (h : b.toNat < 128) : b.toNat = c.toNat := by
  by_cases hc : c.toNat < 128
  · rw [utf8EncodeChar_of_lt hc, List.mem_singleton] at hb
    rw [hb, UInt8.toNat_ofNat']
    omega
  · have := le_of_mem_utf8EncodeChar (by omega) hb
    omega

/-- Of the bytes of a character all but the first one are 128 or more. -/
theorem exists_utf8EncodeChar (c : Char) : ∃ first more, String.utf8EncodeChar c = first :: more ∧
    ∀ b ∈ more, 128 ≤ b.toNat := by
  by_cases h : c.toNat < 128
  · exact ⟨_, [], utf8EncodeChar_of_lt h, by simp⟩
  · cases hbytes : String.utf8EncodeChar c with
    | nil => exact absurd hbytes String.utf8EncodeChar_ne_nil
    | cons first more =>
        refine ⟨first, more, rfl, fun b hb => ?_⟩
        exact le_of_mem_utf8EncodeChar (by omega) (hbytes ▸ List.mem_cons_of_mem first hb)

end TicketPress.Text
