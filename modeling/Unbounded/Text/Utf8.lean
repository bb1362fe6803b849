import Mathlib.Data.List.Basic

/-!
# The bytes of a text

A string is stored as UTF-8. A character below 128 is one byte, and every byte of any other
character is at least 128, so that what is known of the bytes of a text holds of its characters when
it speaks about ASCII only. Bytes are decoded to a text when they are valid UTF-8.
-/

namespace Unbounded.Text

/-- The UTF-8 bytes of a text. -/
def utf8 (text : String) : List UInt8 :=
  text.toUTF8.data.toList

/-- The bytes of a text are those of its characters. -/
theorem utf8_eq_flatMap (text : String) :
    utf8 text = text.toList.flatMap String.utf8EncodeChar := by
  have hbytes : text.toUTF8 = (text.toList.flatMap String.utf8EncodeChar).toByteArray :=
    String.utf8Encode_toList.symm
  rw [utf8, hbytes, List.data_toByteArray]

/-- Every byte of a character is a byte of the text. -/
theorem mem_utf8 {text : String} {char : Char} {byte : UInt8} (hchar : char ∈ text.toList)
    (hbyte : byte ∈ String.utf8EncodeChar char) : byte ∈ utf8 text := by
  rw [utf8_eq_flatMap]
  exact List.mem_flatMap.mpr ⟨char, hchar, hbyte⟩

/-- An ASCII character is its own byte. -/
theorem utf8EncodeChar_of_lt {char : Char} (h : char.toNat < 128) :
    String.utf8EncodeChar char = [UInt8.ofNat char.toNat] :=
  if_pos (Nat.le_of_lt_succ h)

/-- A character with an ASCII byte is ASCII. -/
theorem lt_of_mem_utf8EncodeChar {char : Char} {byte : UInt8}
    (h : byte ∈ String.utf8EncodeChar char) (hbyte : byte.toNat < 128) :
    char.toNat < 128 ∧ byte = UInt8.ofNat char.toNat := by
  simp only [String.utf8EncodeChar] at h
  split at h
  case isTrue hascii =>
    exact ⟨Nat.lt_succ_of_le hascii, List.mem_singleton.mp h⟩
  case isFalse =>
    -- every byte of a longer encoding has its high bit set
    exfalso
    split at h
    · simp only [List.mem_cons, List.not_mem_nil, or_false] at h
      rcases h with rfl | rfl <;> simp [UInt8.toNat_ofNat'] at hbyte <;> omega
    · split at h
      · simp only [List.mem_cons, List.not_mem_nil, or_false] at h
        rcases h with rfl | rfl | rfl <;> simp [UInt8.toNat_ofNat'] at hbyte <;> omega
      · simp only [List.mem_cons, List.not_mem_nil, or_false] at h
        rcases h with rfl | rfl | rfl | rfl <;> simp [UInt8.toNat_ofNat'] at hbyte <;> omega

/-! ## Decoding -/

/-- The text of some bytes, when they are valid UTF-8. -/
def decodeUtf8 (bytes : List UInt8) : Option String :=
  String.fromUTF8? ⟨bytes.toArray⟩

/-- The bytes of a text are decoded to the text. -/
theorem decodeUtf8_utf8 (text : String) : decodeUtf8 (utf8 text) = some text := by
  have hvalid : text.toUTF8.IsValidUTF8 := text.isValidUTF8
  have hbytes : (⟨(utf8 text).toArray⟩ : ByteArray) = text.toUTF8 := rfl
  rw [decodeUtf8, hbytes, String.fromUTF8?, dif_pos hvalid]
  rfl

/-- Bytes that are decoded are the bytes of the text. -/
theorem utf8_of_decodeUtf8 {bytes : List UInt8} {text : String}
    (h : decodeUtf8 bytes = some text) : utf8 text = bytes := by
  unfold decodeUtf8 String.fromUTF8? at h
  split at h
  · rw [Option.some.injEq] at h
    rw [← h]
    rfl
  · cases h

/-- Different texts have different bytes. -/
theorem utf8_injective : Function.Injective utf8 := by
  intro text other h
  have hdecoded := congrArg decodeUtf8 h
  rw [decodeUtf8_utf8, decodeUtf8_utf8] at hdecoded
  exact Option.some.inj hdecoded

/-- The bytes of two texts one after the other. -/
theorem utf8_append (text other : String) : utf8 (text ++ other) = utf8 text ++ utf8 other := by
  simp [utf8_eq_flatMap]

/-- Some bytes are the bytes of a text. -/
def IsText (bytes : List UInt8) : Prop :=
  ∃ text, utf8 text = bytes

/-- Bytes of a text are decoded. -/
theorem IsText.decode {bytes : List UInt8} (h : IsText bytes) :
    ∃ text, decodeUtf8 bytes = some text ∧ utf8 text = bytes := by
  obtain ⟨text, rfl⟩ := h
  exact ⟨text, decodeUtf8_utf8 text, rfl⟩

/-- Texts compose. -/
theorem IsText.append {bytes other : List UInt8} (h : IsText bytes) (hother : IsText other) :
    IsText (bytes ++ other) := by
  obtain ⟨text, rfl⟩ := h
  obtain ⟨more, rfl⟩ := hother
  exact ⟨text ++ more, utf8_append text more⟩

/-- The bytes of a character are a text. -/
theorem isText_utf8EncodeChar (char : Char) : IsText (String.utf8EncodeChar char) :=
  ⟨String.singleton char, by simp [utf8_eq_flatMap]⟩

/-- The text of ASCII bytes. -/
def ofAscii (bytes : List UInt8) : String :=
  String.ofList (bytes.map fun byte ↦ Char.ofNat byte.toNat)

/-- ASCII bytes are the bytes of their text. -/
theorem utf8_ofAscii {bytes : List UInt8} (h : ∀ byte ∈ bytes, byte.toNat < 128) :
    utf8 (ofAscii bytes) = bytes := by
  rw [utf8_eq_flatMap, ofAscii, String.toList_ofList]
  induction bytes with
  | nil => rfl
  | cons byte bytes ih =>
      have hbyte := h byte List.mem_cons_self
      have hvalid : byte.toNat.isValidChar := .inl (by omega)
      have hchar : (Char.ofNat byte.toNat).toNat = byte.toNat := by
        rw [Char.ofNat, dif_pos hvalid]
        rfl
      have hrest := ih fun other hmem ↦ h other (List.mem_cons_of_mem _ hmem)
      rw [List.map_cons, List.flatMap_cons, hrest,
        utf8EncodeChar_of_lt (by rw [hchar]; exact hbyte), hchar, UInt8.ofNat_toNat]
      rfl

/-- ASCII bytes are a text. -/
theorem isText_ascii {bytes : List UInt8} (h : ∀ byte ∈ bytes, byte.toNat < 128) : IsText bytes :=
  ⟨ofAscii bytes, utf8_ofAscii h⟩

/-- An ASCII byte is text. -/
theorem isText_byte {byte : UInt8} (h : byte.toNat < 128) : IsText [byte] :=
  isText_ascii (by simpa using h)

end Unbounded.Text
