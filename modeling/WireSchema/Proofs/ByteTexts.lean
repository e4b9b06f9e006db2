import WireSchema.Text.Uuid

/-!
# Byte strings are read back from their texts

The hexadecimal text of a byte string is read as that byte string, and the hyphenated text of a UUID
as that UUID. The text of a UUID has the digits of its bytes in five groups: cutting it at the
hyphens gives the groups back, because no digit is a hyphen.
-/

namespace WireSchema

/-! ### Hexadecimal digits -/

namespace Hex

/-- A digit is one byte of UTF-8, which has the value of the digit. -/
theorem digit_spec : ∀ n < 16,
    String.utf8EncodeChar (digit n) = [UInt8.ofNat (digit n).toNat] ∧
      byteValue? (UInt8.ofNat (digit n).toNat) = some n ∧
      (digit n).utf8Size = 1 ∧ digit n ≠ '-' := by
  decide

theorem byte_halves (b : UInt8) :
    b.toNat / 16 < 16 ∧ b.toNat % 16 < 16 ∧ 16 * (b.toNat / 16) + b.toNat % 16 = b.toNat := by
  have := b.toNat_lt
  omega

theorem decodeFrom_encodeChars (position : Nat) (bytes : List UInt8) :
    decodeFrom position (Text.utf8 (encodeChars bytes)) = .ok bytes := by
  induction bytes generalizing position with
  | nil => rfl
  | cons b bytes ih =>
      obtain ⟨high, low, whole⟩ := byte_halves b
      obtain ⟨highBytes, highValue, -⟩ := digit_spec _ high
      obtain ⟨lowBytes, lowValue, -⟩ := digit_spec _ low
      have rest := ih (position + 2)
      simp only [Text.utf8, encodeChars] at rest
      simp [Text.utf8, encodeChars, digitsOfByte, decodeFrom, highBytes, lowBytes, highValue,
        lowValue, rest, whole]

theorem length_encodeChars (bytes : List UInt8) :
    (encodeChars bytes).length = 2 * bytes.length := by
  induction bytes with
  | nil => rfl
  | cons b bytes ih =>
      simp only [encodeChars] at ih
      simp [encodeChars, digitsOfByte, ih]
      omega

/-- The characters of a hexadecimal text are one byte of UTF-8 each, and no hyphens. -/
theorem mem_encodeChars {bytes : List UInt8} {c : Char} (mem : c ∈ encodeChars bytes) :
    c.utf8Size = 1 ∧ c ≠ '-' := by
  obtain ⟨b, -, mem⟩ := List.mem_flatMap.1 mem
  obtain ⟨high, low, -⟩ := byte_halves b
  simp only [digitsOfByte, List.mem_cons, List.not_mem_nil, or_false] at mem
  rcases mem with rfl | rfl
  · exact (digit_spec _ high).2.2
  · exact (digit_spec _ low).2.2

theorem length_utf8_encodeChars (bytes : List UInt8) :
    (Text.utf8 (encodeChars bytes)).length = 2 * bytes.length := by
  induction bytes with
  | nil => rfl
  | cons b bytes ih =>
      obtain ⟨high, low, -⟩ := byte_halves b
      obtain ⟨highBytes, -⟩ := digit_spec _ high
      obtain ⟨lowBytes, -⟩ := digit_spec _ low
      simp only [Text.utf8, encodeChars] at ih
      simp [Text.utf8, encodeChars, digitsOfByte, highBytes, lowBytes, ih]
      omega

/-- The hexadecimal text of a byte string is read as that byte string. -/
theorem decode_encode (bytes : List UInt8) : decode (encode bytes) = .ok bytes := by
  simp [decode, encode, length_utf8_encodeChars, decodeFrom_encodeChars]

end Hex

/-! ### Groups of digits -/

namespace Text

theorem utf8Length_of_ascii {cs : List Char} (ascii : ∀ c ∈ cs, c.utf8Size = 1) :
    utf8Length cs = cs.length := by
  induction cs with
  | nil => rfl
  | cons c cs ih =>
      rw [List.forall_mem_cons] at ascii
      rw [utf8Length, ascii.1, ih ascii.2, List.length_cons]
      omega

end Text

namespace Uuid

/-- The groups of a hyphenated text. -/
theorem splitOn_hyphenate {digits : List Char} (free : '-' ∉ digits) :
    (hyphenate digits).splitOn '-' =
      [digits.take 8, (digits.drop 8).take 4, (digits.drop 12).take 4, (digits.drop 16).take 4,
        digits.drop 20] := by
  have part : ∀ n k, '-' ∉ (digits.drop n).take k :=
    fun n k mem => free (List.mem_of_mem_drop (List.mem_of_mem_take mem))
  have first : '-' ∉ digits.take 8 := part 0 8
  have last : '-' ∉ digits.drop 20 := fun mem => free (List.mem_of_mem_drop mem)
  simp only [hyphenate, List.append_assoc, List.cons_append]
  rw [List.splitOn_append_cons_self_of_not_mem first,
    List.splitOn_append_cons_self_of_not_mem (part 8 4),
    List.splitOn_append_cons_self_of_not_mem (part 12 4),
    List.splitOn_append_cons_self_of_not_mem (part 16 4), List.splitOn_eq_singleton last]

theorem flatten_groups (digits : List Char) :
    [digits.take 8, (digits.drop 8).take 4, (digits.drop 12).take 4, (digits.drop 16).take 4,
      digits.drop 20].flatten = digits := by
  have cut : ∀ n k, (digits.drop n).take k ++ digits.drop (n + k) = digits.drop n := by
    intro n k
    rw [← List.drop_drop]
    exact List.take_append_drop k (digits.drop n)
  simp only [List.flatten_cons, List.flatten_nil, List.append_nil]
  rw [cut 16 4, cut 12 4, cut 8 4, List.take_append_drop]

theorem mem_hyphenate {digits : List Char} {c : Char} (mem : c ∈ hyphenate digits) :
    c ∈ digits ∨ c = '-' := by
  simp only [hyphenate, List.mem_append, List.mem_cons] at mem
  grind [List.mem_of_mem_take, List.mem_of_mem_drop]

theorem length_hyphenate {digits : List Char} (length : digits.length = 32) :
    (hyphenate digits).length = 36 := by
  simp [hyphenate, length]

/-- The text of a UUID is read as that UUID. -/
theorem read_toText (u : Uuid) : read u.toText = .ok u := by
  have digits : (Hex.encodeChars u.bytes).length = 32 := by
    rw [Hex.length_encodeChars, u.length_eq]
  have free : '-' ∉ Hex.encodeChars u.bytes := fun mem => (Hex.mem_encodeChars mem).2 rfl
  have length : Text.utf8Length (hyphenate (Hex.encodeChars u.bytes)) = 36 := by
    rw [Text.utf8Length_of_ascii, length_hyphenate digits]
    intro c mem
    rcases mem_hyphenate mem with mem | rfl
    · exact (Hex.mem_encodeChars mem).1
    · rfl
  have whole : ofDigits? (Hex.encodeChars u.bytes) = some u := by
    simp [ofDigits?, Hex.decodeFrom_encodeChars, u.length_eq]
  have grouped : ofHyphenated? (hyphenate (Hex.encodeChars u.bytes)) = some u := by
    rw [ofHyphenated?, splitOn_hyphenate free, flatten_groups, whole]
    simp [digits]
  simp [read, toText, length, hyphenatedPart?, grouped]

end Uuid

end WireSchema
