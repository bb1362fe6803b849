import Unbounded.Json.Record

/-!
# The text of a value is text

A value whose strings and keys are UTF-8 is written as UTF-8, so that its text is a string. The
writer of `serde_json` keeps the bytes of every character above 127 and writes ASCII for the others.
-/

namespace Unbounded.Json

open Text (utf8_eq_flatMap utf8EncodeChar_of_lt lt_of_mem_utf8EncodeChar IsText isText_ascii
  isText_byte isText_utf8EncodeChar)

mutual

/-- The strings and the keys of a value are text. -/
def Value.Textual : Value → Prop
  | .string content => IsText content
  | .array elements => ElementsTextual elements
  | .object members => MembersTextual members
  | .null | .bool _ | .natural _ | .number _ => True

/-- The strings and the keys in some elements are text. -/
def ElementsTextual : List Value → Prop
  | [] => True
  | value :: elements => value.Textual ∧ ElementsTextual elements

/-- The strings and the keys in some members are text. -/
def MembersTextual : List (List UInt8 × Value) → Prop
  | [] => True
  | member :: members => MemberTextual member ∧ MembersTextual members

/-- The key of a member and the strings and keys in its value are text. -/
def MemberTextual : List UInt8 × Value → Prop
  | (key, value) => IsText key ∧ value.Textual

end

/-- A byte of a number is ASCII. -/
theorem lt_of_isNumberByte {byte : UInt8} (h : isNumberByte byte = true) : byte.toNat < 128 := by
  simp only [isNumberByte, isDigit, Bool.or_eq_true, Bool.and_eq_true, decide_eq_true_eq,
    beq_iff_eq] at h
  rcases h with ((((⟨-, hle⟩ | rfl) | rfl) | rfl) | rfl) | rfl
  · have hle : byte.toNat ≤ 57 := hle
    omega
  all_goals decide

/-- A run of number bytes is text. -/
theorem isText_number {lexeme : List UInt8} (h : lexeme.all isNumberByte = true) :
    IsText lexeme :=
  isText_ascii fun byte hmem ↦ lt_of_isNumberByte (List.all_eq_true.mp h byte hmem)

/-- The escape of an ASCII byte is ASCII. -/
theorem escapeByte_ascii {byte : UInt8} (h : byte.toNat < 128) :
    ∀ written ∈ escapeByte byte, written.toNat < 128 := by
  have hall : ∀ value : Fin 128, ∀ written ∈ escapeByte (UInt8.ofNat value),
      written.toNat < 128 := by decide +kernel
  have hbyte := hall ⟨byte.toNat, h⟩
  rwa [UInt8.ofNat_toNat] at hbyte

/-- A byte above 127 is written as it is. -/
theorem escapeByte_of_le {byte : UInt8} (h : 128 ≤ byte.toNat) : escapeByte byte = [byte] := by
  have hall : ∀ value : Fin 256, 128 ≤ value.val →
      escapeByte (UInt8.ofNat value) = [UInt8.ofNat value] := by decide +kernel
  have hbyte := hall ⟨byte.toNat, byte.toNat_lt⟩ h
  rwa [UInt8.ofNat_toNat] at hbyte

/-- The writer of `serde_json` writes the bytes of a character as text. -/
theorem isText_serdeQuote_char (char : Char) :
    IsText (serdeQuote (String.utf8EncodeChar char)) := by
  by_cases hascii : char.toNat < 128
  · rw [utf8EncodeChar_of_lt hascii, serdeQuote, List.flatMap_singleton]
    refine isText_ascii (escapeByte_ascii ?_)
    rw [UInt8.toNat_ofNat']
    omega
  · have hsame : serdeQuote (String.utf8EncodeChar char) = String.utf8EncodeChar char := by
      have hhigh : ∀ byte ∈ String.utf8EncodeChar char, escapeByte byte = [byte] := by
        intro byte hmem
        refine escapeByte_of_le (Nat.not_lt.mp fun hlow ↦ ?_)
        exact hascii (lt_of_mem_utf8EncodeChar hmem hlow).1
      unfold serdeQuote
      rw [List.flatMap_congr hhigh, List.flatMap_singleton']
    rw [hsame]
    exact isText_utf8EncodeChar char

/-- A writer of string contents that writes text as text. -/
def KeepsText (quote : List UInt8 → List UInt8) : Prop :=
  ∀ content, IsText content → IsText (quote content)

/-- The writer of `serde_json` writes text as text. -/
theorem keepsText_serdeQuote : KeepsText serdeQuote := by
  rintro content ⟨text, rfl⟩
  rw [utf8_eq_flatMap]
  induction text.toList with
  | nil => exact ⟨"", rfl⟩
  | cons char chars ih =>
      rw [List.flatMap_cons, serdeQuote, List.flatMap_append]
      exact (isText_serdeQuote_char char).append ih

variable {quote : List UInt8 → List UInt8}

/-- A quoted text is text. -/
theorem isText_literal (hquote : KeepsText quote) {content : List UInt8} (h : IsText content) :
    IsText (literal quote content) := by
  have hmark : IsText [34] := isText_byte (by decide)
  exact hmark.append ((hquote content h).append hmark)

mutual

/-- A value is written as text. -/
theorem Value.isText_print (hquote : KeepsText quote) (value : Value) (h : value.Textual) :
    IsText (value.print quote) := by
  match value with
  | .null => exact isText_ascii (by simp [Value.print])
  | .bool true => exact isText_ascii (by simp [Value.print])
  | .bool false => exact isText_ascii (by simp [Value.print])
  | .natural value =>
      obtain ⟨_, _, _, _, hall⟩ := decimal_spec value
      exact isText_number hall
  | .number lexeme => exact isText_number (Bool.and_eq_true_iff.mp lexeme.number).1
  | .string content => exact isText_literal hquote h
  | .array elements =>
      have hopen : IsText [91] := isText_byte (by decide)
      exact hopen.append (isText_printElements hquote elements h)
  | .object members =>
      have hopen : IsText [123] := isText_byte (by decide)
      exact hopen.append (isText_printMembers hquote members h)

/-- The elements of an array are written as text. -/
theorem isText_printElements (hquote : KeepsText quote) (elements : List Value)
    (h : ElementsTextual elements) :
    IsText (printElements quote elements) := by
  match elements with
  | [] => exact isText_ascii (by simp [printElements])
  | [value] => exact (value.isText_print hquote h.1).append (isText_byte (by decide))
  | value :: other :: others =>
      have hcomma : IsText [44] := isText_byte (by decide)
      exact (value.isText_print hquote h.1).append
        (hcomma.append (isText_printElements hquote (other :: others) h.2))

/-- The members of an object are written as text. -/
theorem isText_printMembers (hquote : KeepsText quote) (members : List (List UInt8 × Value))
    (h : MembersTextual members) :
    IsText (printMembers quote members) := by
  match members with
  | [] => exact isText_ascii (by simp [printMembers])
  | [member] => exact (isText_printMember hquote member h.1).append (isText_byte (by decide))
  | member :: other :: others =>
      have hcomma : IsText [44] := isText_byte (by decide)
      exact (isText_printMember hquote member h.1).append
        (hcomma.append (isText_printMembers hquote (other :: others) h.2))

/-- A member of an object is written as text. -/
theorem isText_printMember (hquote : KeepsText quote) (member : List UInt8 × Value)
    (h : MemberTextual member) :
    IsText (printMember quote member) := by
  match member with
  | (key, value) =>
      have hcolon : IsText [58] := isText_byte (by decide)
      exact (isText_literal hquote h.1).append (hcolon.append (value.isText_print hquote h.2))

end

end Unbounded.Json
