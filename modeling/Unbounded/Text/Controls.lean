import Mathlib.Data.List.Basic

/-!
# Control characters in texts

`hasControl` finds the ASCII control characters that a terminal or a log would act on. A written
number has none (`hasControl_digits`), and a text that is quoted for debugging has none, whatever
the text was (`hasControl_debugQuote`).
-/

namespace Unbounded.Text

/-- `char::is_ascii_control`. -/
def isControl (char : Char) : Bool :=
  char.toNat < 32 || char.toNat == 127

/-- The text has an ASCII control character. -/
def hasControl (text : String) : Bool :=
  text.toList.any isControl

/-- A text that is put together has the control characters of its parts. -/
theorem hasControl_append (text other : String) :
    hasControl (text ++ other) = (hasControl text || hasControl other) := by
  rw [hasControl, String.toList_append, List.any_append]
  rfl

/-- A text that is put together from parts without control characters has none. -/
theorem hasControl_append_eq_false {text other : String} (h : hasControl text = false)
    (hother : hasControl other = false) : hasControl (text ++ other) = false := by
  rw [hasControl_append, h, hother]
  rfl

/-- A text that is joined from parts without control characters has none. -/
theorem hasControl_intercalate {separator : String} {parts : List String}
    (hseparator : hasControl separator = false) (h : ∀ part ∈ parts, hasControl part = false) :
    hasControl (separator.intercalate parts) = false := by
  induction parts with
  | nil => rfl
  | cons part rest ih =>
      have hpart := h part List.mem_cons_self
      have hrest := ih fun other hother ↦ h other (List.mem_cons_of_mem _ hother)
      cases rest with
      | nil =>
          rw [String.intercalate_singleton]
          exact hpart
      | cons =>
          rw [String.intercalate_cons_cons]
          exact hasControl_append_eq_false (hasControl_append_eq_false hpart hseparator) hrest

/-- A digit is no control character. -/
theorem digitChar_printable {digit : Nat} (h : digit < 16) :
    isControl digit.digitChar = false := by
  revert digit
  decide

/-- The digits of a number are no control characters. -/
theorem toDigits_printable {base : Nat} (hlow : 1 < base) (hhigh : base ≤ 16) (number : Nat) :
    (Nat.toDigits base number).any isControl = false := by
  induction number using Nat.strongRecOn with
  | ind number ih =>
      rw [Nat.toDigits_eq_if hlow]
      split
      case isTrue hlt => simpa using digitChar_printable (Nat.lt_of_lt_of_le hlt hhigh)
      case isFalse hle =>
        have hquotient : number / base < number := Nat.div_lt_self (by omega) hlow
        have hdigit : number % base < base := Nat.mod_lt _ (by omega)
        rw [List.any_append, ih _ hquotient]
        simpa using digitChar_printable (Nat.lt_of_lt_of_le hdigit hhigh)

/-- A written number has no control characters. -/
theorem hasControl_digits {base : Nat} (hlow : 1 < base) (hhigh : base ≤ 16) (number : Nat) :
    hasControl (String.ofList (Nat.toDigits base number)) = false := by
  rw [hasControl, String.toList_ofList]
  exact toDigits_printable hlow hhigh number

/-- A number that is written in decimal has no control characters. -/
theorem hasControl_repr (number : Nat) : hasControl number.repr = false := by
  rw [Nat.repr_eq_ofList_toDigits]
  exact hasControl_digits (by decide) (by decide) number

/-- A quotation mark. -/
def quotationMark : Char := Char.ofNat 34

/-- A backslash. -/
def backslash : Char := Char.ofNat 92

/-- How `Debug` writes a character of a text. -/
def escapeDebug (char : Char) : List Char :=
  match char.toNat with
  | 0 => [backslash, '0']
  | 9 => [backslash, 't']
  | 10 => [backslash, 'n']
  | 13 => [backslash, 'r']
  | 34 => [backslash, quotationMark]
  | 92 => [backslash, backslash]
  | code =>
      if isControl char then
        [backslash, 'u', Char.ofNat 123] ++ Nat.toDigits 16 code ++ [Char.ofNat 125]
      else [char]

/-- `Debug` of a text. -/
def debugQuote (text : String) : String :=
  String.ofList (quotationMark :: text.toList.flatMap escapeDebug ++ [quotationMark])

/-- No character is written with a control character. -/
theorem escapeDebug_printable (char : Char) : (escapeDebug char).any isControl = false := by
  unfold escapeDebug
  split
  case h_7 code _ _ _ _ _ _ =>
    split
    case isTrue hcontrol =>
      rw [List.any_append, List.any_append, toDigits_printable (by decide) (by decide)]
      rfl
    case isFalse hcontrol => simp [hcontrol]
  all_goals rfl

/-- A quoted text has no control character. -/
theorem hasControl_debugQuote (text : String) : hasControl (debugQuote text) = false := by
  have hbody : (text.toList.flatMap escapeDebug).any isControl = false := by
    rw [List.any_flatMap, List.any_eq_false]
    intro char _
    simp [escapeDebug_printable]
  rw [hasControl, debugQuote, String.toList_ofList, List.any_append, List.any_cons, hbody]
  rfl

end Unbounded.Text
