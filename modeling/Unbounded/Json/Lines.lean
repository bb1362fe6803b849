import Unbounded.Json.Value
import Mathlib.Data.List.TakeWhile

/-!
# JSON values on lines

A stream of JSON values with one value on each line. A writer that escapes the newlines of strings
never writes a newline, so that a line ends where its value does, and a value is read back with
white space after it.
-/

namespace Unbounded.Json

/-- A writer of string contents that keeps them on one line. -/
def OneLine (quote : List UInt8 → List UInt8) : Prop :=
  ∀ content, 10 ∉ quote content

/-- The escape of a code unit stays on its line. -/
theorem newline_notMem_unicodeEscape (unit : Nat) : 10 ∉ unicodeEscape unit := by
  have hdigit : ∀ value : Fin 16, hexDigit value ≠ 10 := by decide
  have hmod : ∀ value : Nat, 10 ≠ hexDigit (value % 16) :=
    fun value ↦ (hdigit ⟨value % 16, Nat.mod_lt _ (by decide)⟩).symm
  simp only [unicodeEscape, List.mem_cons, List.not_mem_nil, or_false, not_or]
  exact ⟨by decide, by decide, hmod _, hmod _, hmod _, hmod _⟩

/-- The escape of a byte stays on its line. -/
theorem newline_notMem_escapeByte (byte : UInt8) : 10 ∉ escapeByte byte := by
  unfold escapeByte
  split
  case isTrue h => rcases h with rfl | rfl <;> decide
  split
  · decide
  split
  · decide
  split
  · decide
  case isFalse hnewline =>
    split
    · decide
    split
    · decide
    split
    · exact newline_notMem_unicodeEscape _
    · simpa using Ne.symm hnewline

/-- The writer of `serde_json` keeps strings on one line. -/
theorem oneLine_serdeQuote : OneLine serdeQuote := by
  intro content hmem
  obtain ⟨byte, _, hbyte⟩ := List.mem_flatMap.mp hmem
  exact newline_notMem_escapeByte byte hbyte

/-- A byte as Go writes it stays on its line. -/
theorem newline_notMem_goByte (shortControls : Bool) (byte : UInt8) :
    10 ∉ goByte shortControls byte := by
  unfold goByte
  split
  · exact newline_notMem_unicodeEscape _
  · split
    · exact newline_notMem_unicodeEscape _
    · exact newline_notMem_escapeByte byte

/-- The writer of Go keeps strings on one line. -/
theorem oneLine_goQuote (shortControls : Bool) : OneLine (goQuote shortControls) := by
  have hbyte := newline_notMem_goByte shortControls
  intro content
  induction content using goQuote.induct with
  | case1 => exact List.not_mem_nil
  | case2 a => exact hbyte a
  | case3 a b => simp [goQuote, hbyte]
  | case4 a b c rest h ih =>
      rw [goQuote, if_pos h]
      simp [newline_notMem_unicodeEscape, ih]
  | case5 a b c rest hno h ih =>
      rw [goQuote, if_neg hno, if_pos h]
      simp [newline_notMem_unicodeEscape, ih]
  | case6 a b c rest hno hnot ih =>
      rw [goQuote, if_neg hno, if_neg hnot]
      simp [hbyte, ih]

variable {quote : List UInt8 → List UInt8}

/-- A number stays on its line. -/
theorem newline_notMem_number {lexeme : List UInt8} (h : lexeme.all isNumberByte = true) :
    10 ∉ lexeme := by
  intro hmem
  exact absurd (List.all_eq_true.mp h 10 hmem) (by decide)

/-- A quoted string stays on its line. -/
theorem newline_notMem_literal (h : OneLine quote) (content : List UInt8) :
    10 ∉ literal quote content := by
  simp [literal, h content]

mutual

/-- A value is written on one line. -/
theorem Value.newline_notMem_print (h : OneLine quote) (value : Value) :
    10 ∉ value.print quote := by
  match value with
  | .null | .bool true | .bool false => simp [Value.print]
  | .natural value =>
      obtain ⟨_, _, _, _, hall⟩ := decimal_spec value
      exact newline_notMem_number hall
  | .number lexeme => exact newline_notMem_number (Bool.and_eq_true_iff.mp lexeme.number).1
  | .string content => exact newline_notMem_literal h content
  | .array elements => simpa [Value.print] using newline_notMem_printElements h elements
  | .object members => simpa [Value.print] using newline_notMem_printMembers h members

/-- The elements of an array are written on one line. -/
theorem newline_notMem_printElements (h : OneLine quote) (elements : List Value) :
    10 ∉ printElements quote elements := by
  match elements with
  | [] => simp [printElements]
  | [value] => simp [printElements, value.newline_notMem_print h]
  | value :: other :: others =>
      have hrest := newline_notMem_printElements h (other :: others)
      simp [printElements, value.newline_notMem_print h, hrest]

/-- The members of an object are written on one line. -/
theorem newline_notMem_printMembers (h : OneLine quote) (members : List (List UInt8 × Value)) :
    10 ∉ printMembers quote members := by
  match members with
  | [] => simp [printMembers]
  | [member] => simp [printMembers, newline_notMem_printMember h member]
  | member :: other :: others =>
      have hrest := newline_notMem_printMembers h (other :: others)
      simp [printMembers, newline_notMem_printMember h member, hrest]

/-- A member of an object is written on one line. -/
theorem newline_notMem_printMember (h : OneLine quote) (member : List UInt8 × Value) :
    10 ∉ printMember quote member := by
  match member with
  | (key, value) =>
      simp [printMember, newline_notMem_literal h key, value.newline_notMem_print h]

end

/-- A value is read back with white space after it. -/
theorem parse_print_append (hquote : Inverted quote) (value : Value) {blanks : List UInt8}
    (hblanks : ∀ byte ∈ blanks, isSpace byte = true) :
    parse (value.print quote ++ blanks) = some value := by
  have hends : Ends blanks := by
    intro byte hbyte
    have hspace := hblanks byte (List.mem_of_mem_head? hbyte)
    simp only [isSpace, Bool.or_eq_true, beq_iff_eq, or_assoc] at hspace
    rcases hspace with rfl | rfl | rfl | rfl <;> decide
  have hread := (readsBack hquote ((value.print quote ++ blanks).length + 1)).value value blanks
    (by rw [List.length_append]; omega) hends
  have hskip : skipSpace blanks = [] := by
    rw [skipSpace, List.dropWhile_eq_nil_iff]
    exact hblanks
  rw [parse, hread, Option.bind_some]
  simp only [hskip, List.isEmpty_nil, if_true]

end Unbounded.Json
