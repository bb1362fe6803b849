import Mathlib.Data.List.Basic

/-!
# JSON string literals

The contents of a string literal, as bytes. `unescape` reads a literal up to its closing quote:
plain bytes stand for themselves, and escapes for the bytes of what they name. An escape of a code
unit outside the surrogates is one character, and two escapes of a surrogate pair are one character
together; a lone surrogate is kept in the generalised encoding, which is no valid UTF-8, so that a
reader of texts refuses it while a reader that skips the literal does not.

A writer may escape more than it has to. `Reads literal content` says that a piece of a literal is
read as some content whatever follows it. Pieces compose, and every writer whose pieces read as
what they were written for is inverted by the reader.
-/

namespace Unbounded.Json

/-! ## Hexadecimal digits -/

/-- The lower-case digit of a value below 16. -/
def hexDigit (value : Nat) : UInt8 :=
  if value < 10 then UInt8.ofNat (48 + value) else UInt8.ofNat (87 + value)

/-- The value of a digit of either case. -/
def hexValue (digit : UInt8) : Option Nat :=
  if 48 ≤ digit ∧ digit ≤ 57 then some (digit.toNat - 48)
  else if 97 ≤ digit ∧ digit ≤ 102 then some (digit.toNat - 87)
  else if 65 ≤ digit ∧ digit ≤ 70 then some (digit.toNat - 55)
  else none

/-- The code unit of four digits. -/
def hexUnit (a b c d : UInt8) : Option Nat := do
  let a ← hexValue a
  let b ← hexValue b
  let c ← hexValue c
  let d ← hexValue d
  some (((a * 16 + b) * 16 + c) * 16 + d)

/-- The escape of a code unit. -/
def unicodeEscape (unit : Nat) : List UInt8 :=
  [92, 117, hexDigit (unit / 4096 % 16), hexDigit (unit / 256 % 16), hexDigit (unit / 16 % 16),
    hexDigit (unit % 16)]

/-- A hexadecimal digit has its value. -/
theorem hexValue_hexDigit {value : Nat} (h : value < 16) :
    hexValue (hexDigit value) = some value := by
  have hall : ∀ value : Fin 16, hexValue (hexDigit value) = some value.val := by decide
  exact hall ⟨value, h⟩

/-- The digits of a code unit have its value. -/
theorem hexUnit_digits {unit : Nat} (h : unit < 65536) :
    hexUnit (hexDigit (unit / 4096 % 16)) (hexDigit (unit / 256 % 16))
      (hexDigit (unit / 16 % 16)) (hexDigit (unit % 16)) = some unit := by
  simp only [hexUnit, hexValue_hexDigit (Nat.mod_lt _ (by omega)), Option.bind_eq_bind,
    Option.bind_some, Option.some.injEq]
  omega

/-! ## Reading a literal -/

/-- The bytes of a code point, and of a lone surrogate in the generalised encoding. -/
def codeBytes (code : Nat) : List UInt8 :=
  if code < 0x80 then [UInt8.ofNat code]
  else if code < 0x800 then [UInt8.ofNat (0xC0 + code / 64), UInt8.ofNat (0x80 + code % 64)]
  else if code < 0x10000 then
    [UInt8.ofNat (0xE0 + code / 4096), UInt8.ofNat (0x80 + code / 64 % 64),
      UInt8.ofNat (0x80 + code % 64)]
  else
    [UInt8.ofNat (0xF0 + code / 262144), UInt8.ofNat (0x80 + code / 4096 % 64),
      UInt8.ofNat (0x80 + code / 64 % 64), UInt8.ofNat (0x80 + code % 64)]

/-- The first unit of a surrogate pair. -/
def isHigh (unit : Nat) : Bool :=
  0xD800 ≤ unit && unit < 0xDC00

/-- The second unit of a surrogate pair. -/
def isLow (unit : Nat) : Bool :=
  0xDC00 ≤ unit && unit < 0xE000

/-- The character of a surrogate pair. -/
def joinSurrogates (high low : Nat) : Nat :=
  0x10000 + (high - 0xD800) * 1024 + (low - 0xDC00)

/-- The byte of a two-byte escape. -/
def shortEscape (letter : UInt8) : Option UInt8 :=
  if letter = 34 ∨ letter = 92 ∨ letter = 47 then some letter
  else if letter = 98 then some 8
  else if letter = 102 then some 12
  else if letter = 110 then some 10
  else if letter = 114 then some 13
  else if letter = 116 then some 9
  else none

/-- Put bytes in front of what is read. -/
def prepend (bytes : List UInt8) (read : List UInt8 × List UInt8) : List UInt8 × List UInt8 :=
  (bytes ++ read.1, read.2)

/-- The bytes of a first surrogate that has found no second one. -/
def lone : Option Nat → List UInt8
  | some high => codeBytes high
  | none => []

/-- Read a literal after its opening quote: its content, and what follows its closing quote. The
first argument is a first surrogate that waits for the second one. -/
def unescape : Option Nat → List UInt8 → Option (List UInt8 × List UInt8)
  | _, [] => none
  | high, byte :: rest =>
      if byte = 34 then some (lone high, rest)
      else if byte = 92 then
        match rest with
        | [] => none
        | letter :: rest =>
            if letter = 117 then
              match rest with
              | a :: b :: c :: d :: rest =>
                  match hexUnit a b c d with
                  | none => none
                  | some unit =>
                      if isHigh unit then (unescape (some unit) rest).map (prepend (lone high))
                      else match high with
                        | some first =>
                            if isLow unit then
                              (unescape none rest).map
                                (prepend (codeBytes (joinSurrogates first unit)))
                            else (unescape none rest).map
                              (prepend (codeBytes first ++ codeBytes unit))
                        | none => (unescape none rest).map (prepend (codeBytes unit))
              | _ => none
            else match shortEscape letter with
              | none => none
              | some byte => (unescape none rest).map (prepend (lone high ++ [byte]))
      else if byte < 32 then none
      else (unescape none rest).map (prepend (lone high ++ [byte]))

/-- A piece of a literal is read as some content, whatever follows it. -/
def Reads (literal content : List UInt8) : Prop :=
  ∀ rest, unescape none (literal ++ rest) = (unescape none rest).map (prepend content)

/-- An empty piece of a literal has no content. -/
theorem Reads.nil : Reads [] [] := by
  intro rest
  cases hrest : unescape none rest with
  | none => simp [hrest]
  | some read => simp [hrest, prepend]

/-- Two pieces of a literal are read one after the other. -/
theorem Reads.append {first second firstContent secondContent : List UInt8}
    (hfirst : Reads first firstContent) (hsecond : Reads second secondContent) :
    Reads (first ++ second) (firstContent ++ secondContent) := by
  intro rest
  rw [List.append_assoc, hfirst, hsecond, Option.map_map]
  congr 1
  funext read
  simp [prepend]

/-- A byte that needs no escape stands for itself. -/
theorem Reads.plain {byte : UInt8} (hquote : byte ≠ 34) (hescape : byte ≠ 92)
    (hcontrol : ¬ byte < 32) : Reads [byte] [byte] := by
  intro rest
  rw [List.singleton_append, unescape.eq_def]
  simp [hquote, hescape, hcontrol, lone]

/-- A two-byte escape stands for its byte. -/
theorem Reads.short {letter byte : UInt8} (h : shortEscape letter = some byte) :
    Reads [92, letter] [byte] := by
  have hletter : letter ≠ 117 := by
    rintro rfl
    simp [shortEscape] at h
  intro rest
  rw [List.cons_append, unescape.eq_def]
  simp [hletter, h, lone]

/-- The escape of a code unit outside the surrogates stands for the bytes of the character. -/
theorem Reads.unicode (unit : Nat) (hunit : unit < 65536) (hhigh : isHigh unit = false) :
    Reads (unicodeEscape unit) (codeBytes unit) := by
  intro rest
  rw [unicodeEscape, List.cons_append, unescape.eq_def]
  simp [hexUnit_digits hunit, hhigh]

/-- A literal is read up to its closing quote. -/
theorem Reads.unescape {literal content : List UInt8} (h : Reads literal content)
    (rest : List UInt8) : unescape none (literal ++ 34 :: rest) = some (content, rest) := by
  rw [h, Json.unescape.eq_def]
  simp [prepend, lone]

/-! ## Writers -/

/-- A writer of string contents that the reader inverts. -/
def Inverted (quote : List UInt8 → List UInt8) : Prop :=
  ∀ content, Reads (quote content) content

/-- The escape of a byte below 128 that is not written as it is: the two-byte escapes for the quote,
the backslash and the common controls, and the escape of the code unit for the other controls. -/
def escapeByte (byte : UInt8) : List UInt8 :=
  if byte = 34 ∨ byte = 92 then [92, byte]
  else if byte = 8 then [92, 98]
  else if byte = 9 then [92, 116]
  else if byte = 10 then [92, 110]
  else if byte = 12 then [92, 102]
  else if byte = 13 then [92, 114]
  else if byte < 32 then unicodeEscape byte.toNat
  else [byte]

/-- The string writer of `serde_json`, which escapes what it must. -/
def serdeQuote (content : List UInt8) : List UInt8 :=
  content.flatMap escapeByte

/-- The bytes that Go's `encoding/json` escapes beside those: the characters of HTML, and, before
its version 1.22, the backspace and the form feed as code units. -/
def goByte (shortControls : Bool) (byte : UInt8) : List UInt8 :=
  if byte = 60 ∨ byte = 62 ∨ byte = 38 then unicodeEscape byte.toNat
  else if !shortControls && (byte = 8 || byte = 12) then unicodeEscape byte.toNat
  else escapeByte byte

/-- The string writer of Go's `encoding/json`, which also escapes the separators U+2028 and U+2029.
In valid UTF-8 their bytes occur nowhere else. -/
def goQuote (shortControls : Bool) : List UInt8 → List UInt8
  | [] => []
  | [a] => goByte shortControls a
  | [a, b] => goByte shortControls a ++ goByte shortControls b
  | a :: b :: c :: rest =>
      if a = 0xE2 ∧ b = 0x80 ∧ c = 0xA8 then unicodeEscape 0x2028 ++ goQuote shortControls rest
      else if a = 0xE2 ∧ b = 0x80 ∧ c = 0xA9 then
        unicodeEscape 0x2029 ++ goQuote shortControls rest
      else goByte shortControls a ++ goQuote shortControls (b :: c :: rest)

/-- The escape of the code unit of an ASCII byte is read as the byte. -/
theorem reads_unicodeEscape {byte : UInt8} (h : byte.toNat < 128) :
    Reads (unicodeEscape byte.toNat) [byte] := by
  have hbytes : codeBytes byte.toNat = [byte] := by simp [codeBytes, h]
  have hhigh : isHigh byte.toNat = false := by
    simp only [isHigh, Bool.and_eq_false_iff, decide_eq_false_iff_not]
    omega
  rw [← hbytes]
  exact Reads.unicode _ (by omega) hhigh

/-- The escape of a byte is read as the byte. -/
theorem reads_escapeByte (byte : UInt8) : Reads (escapeByte byte) [byte] := by
  unfold escapeByte
  split
  case isTrue h =>
    refine Reads.short ?_
    rcases h with rfl | rfl <;> rfl
  case isFalse hspecial =>
    split
    case isTrue h => exact h ▸ Reads.short rfl
    split
    case isTrue h => exact h ▸ Reads.short rfl
    split
    case isTrue h => exact h ▸ Reads.short rfl
    split
    case isTrue h => exact h ▸ Reads.short rfl
    split
    case isTrue h => exact h ▸ Reads.short rfl
    split
    case isTrue hcontrol =>
      refine reads_unicodeEscape ?_
      have hlt : byte.toNat < 32 := hcontrol
      omega
    case isFalse hcontrol =>
      exact Reads.plain (fun h ↦ hspecial (.inl h)) (fun h ↦ hspecial (.inr h)) hcontrol

/-- The writer of `serde_json` is inverted by the reader. -/
theorem inverted_serdeQuote : Inverted serdeQuote := by
  intro content
  induction content with
  | nil => exact Reads.nil
  | cons byte content ih => exact (reads_escapeByte byte).append ih

/-- A byte as Go writes it is read as the byte. -/
theorem reads_goByte (shortControls : Bool) (byte : UInt8) :
    Reads (goByte shortControls byte) [byte] := by
  unfold goByte
  split
  case isTrue h =>
    refine reads_unicodeEscape ?_
    rcases h with rfl | rfl | rfl <;> decide
  case isFalse =>
    split
    case isTrue h =>
      refine reads_unicodeEscape ?_
      simp only [Bool.and_eq_true, Bool.or_eq_true, decide_eq_true_eq] at h
      rcases h.2 with rfl | rfl <;> decide
    case isFalse => exact reads_escapeByte byte

/-- The writer of Go is inverted by the reader. -/
theorem inverted_goQuote (shortControls : Bool) : Inverted (goQuote shortControls) := by
  intro content
  induction content using goQuote.induct with
  | case1 => exact Reads.nil
  | case2 a => exact reads_goByte shortControls a
  | case3 a b => exact (reads_goByte shortControls a).append (reads_goByte shortControls b)
  | case4 a b c rest h ih =>
      rw [goQuote, if_pos h]
      obtain ⟨rfl, rfl, rfl⟩ := h
      exact (Reads.unicode 0x2028 (by decide) rfl).append ih
  | case5 a b c rest hno h ih =>
      rw [goQuote, if_neg hno, if_pos h]
      obtain ⟨rfl, rfl, rfl⟩ := h
      exact (Reads.unicode 0x2029 (by decide) rfl).append ih
  | case6 a b c rest hno hnone ih =>
      rw [goQuote, if_neg hno, if_neg hnone]
      exact (reads_goByte shortControls a).append ih

end Unbounded.Json
