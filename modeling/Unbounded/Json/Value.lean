import Unbounded.Json.Strings
import Mathlib.Data.Nat.Digits.Lemmas

/-!
# JSON values and their texts

The values of JSON, a reader of texts and a compact writer. The contents of strings are bytes, so
that whether they are text is a question for whoever asks for text. A number written as plain
decimal digits is kept as a natural number, and every other number as the lexeme it was written as.
The reader allows white space wherever JSON does and nothing after the value. The writer is
parametrised by how it quotes strings, and for every writer of strings that the reader inverts, the
reader inverts the writer of values (`parse_print`).
-/

namespace Unbounded.Json

/-! ## Numbers -/

/-- A decimal digit. -/
def isDigit (byte : UInt8) : Bool :=
  48 ≤ byte && byte ≤ 57

/-- A byte that can occur in a number: a digit, a sign, the point or an exponent mark. -/
def isNumberByte (byte : UInt8) : Bool :=
  isDigit byte || byte == 43 || byte == 45 || byte == 46 || byte == 69 || byte == 101

/-- A number starts with a digit or a minus sign. -/
def startsNumber (byte : UInt8) : Bool :=
  isDigit byte || byte == 45

/-- The value of some decimal digits. -/
def digitsValue (digits : List UInt8) : Nat :=
  digits.foldl (fun value digit ↦ value * 10 + (digit.toNat - 48)) 0

/-- Decimal digits without a leading zero, other than zero itself. -/
def isWhole (digits : List UInt8) : Bool :=
  !digits.isEmpty && digits.all isDigit && (digits.length == 1 || digits.head? != some 48)

/-- The natural number that a lexeme writes in plain decimal form. -/
def naturalOf (lexeme : List UInt8) : Option Nat :=
  if isWhole lexeme then some (digitsValue lexeme) else none

/-- What follows the digits of a number: an exponent, or nothing. -/
def isExponent : List UInt8 → Bool
  | [] => true
  | mark :: rest =>
      (mark == 69 || mark == 101) &&
        match rest with
        | [] => false
        | sign :: digits =>
            if sign == 43 || sign == 45 then !digits.isEmpty && digits.all isDigit
            else (sign :: digits).all isDigit

/-- What follows the whole part of a number: a fraction and an exponent, each of which may be
missing. -/
def isTail : List UInt8 → Bool
  | [] => true
  | byte :: rest =>
      if byte == 46 then
        !(rest.takeWhile isDigit).isEmpty && isExponent (rest.dropWhile isDigit)
      else isExponent (byte :: rest)

/-- The grammar of numbers. -/
def isNumber (lexeme : List UInt8) : Bool :=
  let unsigned := if lexeme.head? = some 45 then lexeme.tail else lexeme
  isWhole (unsigned.takeWhile isDigit) && isTail (unsigned.dropWhile isDigit)

/-- A number that is not a natural number in plain decimal form. -/
structure Lexeme where
  bytes : List UInt8
  starts : (bytes.head?.any startsNumber) = true
  number : (bytes.all isNumberByte && isNumber bytes) = true
  other : naturalOf bytes = none

/-! ## Values -/

/-- The values of JSON. -/
inductive Value where
  | null
  | bool (value : Bool)
  | natural (value : Nat)
  | number (lexeme : Lexeme)
  | string (content : List UInt8)
  | array (elements : List Value)
  | object (members : List (List UInt8 × Value))

/-- White space. -/
def isSpace (byte : UInt8) : Bool :=
  byte == 32 || byte == 9 || byte == 10 || byte == 13

/-- Skip white space. -/
def skipSpace (input : List UInt8) : List UInt8 :=
  input.dropWhile isSpace

/-- Skip white space and one given byte. -/
def expect (byte : UInt8) (input : List UInt8) : Option (List UInt8) :=
  match skipSpace input with
  | [] => none
  | first :: rest => if first = byte then some rest else none

/-- Skip the rest of a keyword. -/
def keyword (value : Value) : List UInt8 → List UInt8 → Option (Value × List UInt8)
  | [], input => some (value, input)
  | _ :: _, [] => none
  | byte :: word, first :: input => if first = byte then keyword value word input else none

/-- The number that a lexeme writes. -/
def numberOf (lexeme : List UInt8) : Option Value :=
  match h : naturalOf lexeme with
  | some value => some (.natural value)
  | none =>
      if hvalid : (lexeme.head?.any startsNumber) = true ∧
          (lexeme.all isNumberByte && isNumber lexeme) = true then
        some (.number ⟨lexeme, hvalid.1, hvalid.2, h⟩)
      else none

/-- Read a number: the longest run of bytes that can occur in one. -/
def parseNumber (input : List UInt8) : Option (Value × List UInt8) :=
  (numberOf (input.takeWhile isNumberByte)).map (·, input.dropWhile isNumberByte)

mutual

/-- Read a value, with fuel for its nesting. -/
def parseValue : Nat → List UInt8 → Option (Value × List UInt8)
  | 0, _ => none
  | fuel + 1, input =>
      match skipSpace input with
      | [] => none
      | byte :: rest =>
          if byte = 34 then (unescape none rest).map fun (content, rest) ↦ (.string content, rest)
          else if byte = 91 then
            match expect 93 rest with
            | some rest => some (.array [], rest)
            | none =>
                (parseElements fuel rest).map fun (elements, rest) ↦ (.array elements, rest)
          else if byte = 123 then
            match expect 125 rest with
            | some rest => some (.object [], rest)
            | none => (parseMembers fuel rest).map fun (members, rest) ↦ (.object members, rest)
          else if byte = 110 then keyword .null [117, 108, 108] rest
          else if byte = 116 then keyword (.bool true) [114, 117, 101] rest
          else if byte = 102 then keyword (.bool false) [97, 108, 115, 101] rest
          else if startsNumber byte then parseNumber (byte :: rest)
          else none

/-- Read the elements of an array up to its closing bracket. -/
def parseElements : Nat → List UInt8 → Option (List Value × List UInt8)
  | 0, _ => none
  | fuel + 1, input =>
      (parseValue fuel input).bind fun (value, rest) ↦
        match expect 44 rest with
        | some rest =>
            (parseElements fuel rest).map fun (elements, rest) ↦ (value :: elements, rest)
        | none => (expect 93 rest).map fun rest ↦ ([value], rest)

/-- Read the members of an object up to its closing brace. -/
def parseMembers : Nat → List UInt8 → Option (List (List UInt8 × Value) × List UInt8)
  | 0, _ => none
  | fuel + 1, input =>
      (expect 34 input).bind fun rest ↦
        (unescape none rest).bind fun (key, rest) ↦
          (expect 58 rest).bind fun rest ↦
            (parseValue fuel rest).bind fun (value, rest) ↦
              match expect 44 rest with
              | some rest =>
                  (parseMembers fuel rest).map fun (members, rest) ↦
                    ((key, value) :: members, rest)
              | none => (expect 125 rest).map fun rest ↦ ([(key, value)], rest)

end

/-- Read a text: one value with nothing but white space around it. -/
def parse (text : List UInt8) : Option Value :=
  (parseValue (text.length + 1) text).bind fun (value, rest) ↦
    if (skipSpace rest).isEmpty then some value else none

/-! ## Writing -/

/-- The decimal digits of a number. -/
def decimal (value : Nat) : List UInt8 :=
  if value = 0 then [48] else (Nat.digits 10 value).reverse.map fun digit ↦ UInt8.ofNat (48 + digit)

/-- A quoted string. -/
def literal (quote : List UInt8 → List UInt8) (content : List UInt8) : List UInt8 :=
  34 :: (quote content ++ [34])

mutual

/-- Write a value without white space. -/
def Value.print (quote : List UInt8 → List UInt8) : Value → List UInt8
  | .null => [110, 117, 108, 108]
  | .bool true => [116, 114, 117, 101]
  | .bool false => [102, 97, 108, 115, 101]
  | .natural value => decimal value
  | .number lexeme => lexeme.bytes
  | .string content => literal quote content
  | .array elements => 91 :: printElements quote elements
  | .object members => 123 :: printMembers quote members

/-- Write the elements of an array and its closing bracket. -/
def printElements (quote : List UInt8 → List UInt8) : List Value → List UInt8
  | [] => [93]
  | [value] => value.print quote ++ [93]
  | value :: elements => value.print quote ++ 44 :: printElements quote elements

/-- Write the members of an object and its closing brace. -/
def printMembers (quote : List UInt8 → List UInt8) : List (List UInt8 × Value) → List UInt8
  | [] => [125]
  | [member] => printMember quote member ++ [125]
  | member :: members => printMember quote member ++ 44 :: printMembers quote members

/-- Write a member of an object. -/
def printMember (quote : List UInt8 → List UInt8) : List UInt8 × Value → List UInt8
  | (key, value) => literal quote key ++ 58 :: value.print quote

end

/-! ## Reading what was written -/

/-- No number goes on here. -/
def Ends (rest : List UInt8) : Prop :=
  ∀ byte ∈ rest.head?, isNumberByte byte = false

/-- A byte that is not the expected one is refused. -/
theorem expect_other {byte first : UInt8} (hspace : isSpace first = false) (hne : first ≠ byte)
    (rest : List UInt8) : expect byte (first :: rest) = none := by
  simp [expect, skipSpace, hspace, hne]

/-- A run of number bytes is taken whole. -/
theorem takeWhile_number {lexeme rest : List UInt8} (h : lexeme.all isNumberByte = true)
    (hends : Ends rest) :
    (lexeme ++ rest).takeWhile isNumberByte = lexeme ∧
      (lexeme ++ rest).dropWhile isNumberByte = rest := by
  rw [List.all_eq_true] at h
  rw [List.takeWhile_append_of_pos h, List.dropWhile_append_of_pos h]
  cases rest with
  | nil => simp
  | cons byte rest =>
      have hbyte := hends byte rfl
      simp [hbyte]

/-- A digit below ten is written as a digit byte with its value. -/
theorem digitByte {digit : Nat} (h : digit < 10) :
    isDigit (UInt8.ofNat (48 + digit)) = true ∧ (UInt8.ofNat (48 + digit)).toNat - 48 = digit ∧
      (UInt8.ofNat (48 + digit) = 48 → digit = 0) := by
  have hall : ∀ digit : Fin 10, isDigit (UInt8.ofNat (48 + digit)) = true ∧
      (UInt8.ofNat (48 + digit)).toNat - 48 = digit.val ∧
      (UInt8.ofNat (48 + digit) = 48 → digit.val = 0) := by decide
  exact hall ⟨digit, h⟩

/-- The digits of a number have its value. -/
theorem digitsValue_map {digits : List Nat} (h : ∀ digit ∈ digits, digit < 10) :
    digitsValue (digits.reverse.map fun digit ↦ UInt8.ofNat (48 + digit)) =
      Nat.ofDigits 10 digits := by
  unfold digitsValue
  rw [List.foldl_map, List.foldl_reverse]
  induction digits with
  | nil => rfl
  | cons digit digits ih =>
      have hdigit := (digitByte (h digit List.mem_cons_self)).2.1
      rw [List.foldr_cons, ih fun other hmem ↦ h other (List.mem_cons_of_mem _ hmem), hdigit,
        Nat.ofDigits_cons]
      omega

/-- A number is read as it was written. -/
theorem naturalOf_decimal (value : Nat) : naturalOf (decimal value) = some value := by
  unfold decimal
  split
  case isTrue hzero =>
    subst hzero
    decide
  case isFalse hpos =>
    have hdigits : ∀ digit ∈ Nat.digits 10 value, digit < 10 := fun digit hmem ↦
      Nat.digits_lt_base (by omega) hmem
    have hne : Nat.digits 10 value ≠ [] := Nat.digits_ne_nil_iff_ne_zero.mpr hpos
    have hwhole : isWhole ((Nat.digits 10 value).reverse.map fun digit ↦
        UInt8.ofNat (48 + digit)) = true := by
      simp only [isWhole, Bool.and_eq_true, Bool.or_eq_true]
      refine ⟨⟨by simpa using hne, ?_⟩, .inr ?_⟩
      · simp only [List.all_map, List.all_eq_true, List.mem_reverse]
        exact fun digit hmem ↦ (digitByte (hdigits digit hmem)).1
      · -- the leading digit of a positive number is not zero
        have hlast := Nat.getLast_digit_ne_zero 10 hpos
        rw [List.head?_map, List.head?_reverse, List.getLast?_eq_getLast_of_ne_nil hne]
        simp only [Option.map_some, bne_iff_ne, ne_eq, Option.some.injEq]
        exact fun heq ↦ hlast ((digitByte (hdigits _ (List.getLast_mem hne))).2.2 heq)
    rw [naturalOf, if_pos hwhole, digitsValue_map hdigits, Nat.ofDigits_digits]

/-- A whole number is made of digits, and starts with one. -/
theorem isWhole_digits {digits : List UInt8} (h : isWhole digits = true) :
    ∃ first rest, digits = first :: rest ∧ isDigit first = true ∧
      digits.all isNumberByte = true := by
  cases digits with
  | nil => simp [isWhole] at h
  | cons first rest =>
      simp only [isWhole, Bool.and_eq_true, List.all_eq_true] at h
      refine ⟨first, rest, rfl, h.1.2 first List.mem_cons_self, ?_⟩
      rw [List.all_eq_true]
      intro byte hmem
      simp [isNumberByte, h.1.2 byte hmem]

/-- What a number is written as is a run of number bytes that starts like a number. -/
theorem decimal_spec (value : Nat) :
    ∃ first rest, decimal value = first :: rest ∧ isDigit first = true ∧
      (decimal value).all isNumberByte = true := by
  have hnatural := naturalOf_decimal value
  unfold naturalOf at hnatural
  split at hnatural
  case isTrue hwhole => exact isWhole_digits hwhole
  case isFalse => simp at hnatural

/-- A lexeme is read back as it stands. -/
theorem numberOf_lexeme (lexeme : Lexeme) : numberOf lexeme.bytes = some (.number lexeme) := by
  unfold numberOf
  split
  case h_1 value hvalue => simp [lexeme.other] at hvalue
  case h_2 => rw [dif_pos ⟨lexeme.starts, lexeme.number⟩]

/-- A number in plain form is read back as the natural number it is. -/
theorem numberOf_decimal (value : Nat) : numberOf (decimal value) = some (.natural value) := by
  unfold numberOf
  split
  case h_1 read hread =>
    rw [naturalOf_decimal, Option.some.injEq] at hread
    rw [hread]
  case h_2 hread => simp [naturalOf_decimal] at hread

/-- A run of number bytes is read as the number it writes. -/
theorem parseNumber_append {lexeme rest : List UInt8} {value : Value}
    (hall : lexeme.all isNumberByte = true) (hvalue : numberOf lexeme = some value)
    (hends : Ends rest) : parseNumber (lexeme ++ rest) = some (value, rest) := by
  obtain ⟨htake, hdrop⟩ := takeWhile_number hall hends
  rw [parseNumber, htake, hdrop, hvalue]
  rfl

/-- A byte that starts a number starts nothing else. -/
theorem startsNumber_cases (byte : UInt8) (h : startsNumber byte = true) :
    isSpace byte = false ∧ byte ≠ 34 ∧ byte ≠ 91 ∧ byte ≠ 93 ∧ byte ≠ 123 ∧ byte ≠ 110 ∧
      byte ≠ 116 ∧ byte ≠ 102 := by
  refine ⟨?_, ?_, ?_, ?_, ?_, ?_, ?_, ?_⟩
  · by_contra hspace
    simp only [isSpace, Bool.not_eq_false, Bool.or_eq_true, beq_iff_eq] at hspace
    rcases hspace with ((rfl | rfl) | rfl) | rfl <;> simp [startsNumber, isDigit] at h
  all_goals
    rintro rfl
    simp [startsNumber, isDigit] at h

/-- A number is read by `parseNumber`. -/
theorem parseValue_number {fuel : Nat} {byte : UInt8} (h : startsNumber byte = true)
    (rest : List UInt8) : parseValue (fuel + 1) (byte :: rest) = parseNumber (byte :: rest) := by
  obtain ⟨hspace, h₁, h₂, -, h₃, h₄, h₅, h₆⟩ := startsNumber_cases _ h
  simp [parseValue, skipSpace, hspace, h₁, h₂, h₃, h₄, h₅, h₆, h]

/-- The text of a value starts with a byte that is no white space and closes no array. -/
theorem Value.print_head (quote : List UInt8 → List UInt8) (value : Value) :
    ∃ first rest, value.print quote = first :: rest ∧ isSpace first = false ∧ first ≠ 93 := by
  cases value with
  | bool value => cases value <;> exact ⟨_, _, rfl, by decide, by decide⟩
  | natural value =>
      obtain ⟨first, rest, heq, hdigit, _⟩ := decimal_spec value
      have hcases := startsNumber_cases first (by simp [startsNumber, hdigit])
      exact ⟨first, rest, heq, hcases.1, hcases.2.2.2.1⟩
  | number lexeme =>
      obtain ⟨bytes, hstarts, hnumber, hother⟩ := lexeme
      cases bytes with
      | nil => simp at hstarts
      | cons first rest =>
          have hcases := startsNumber_cases first (by simpa using hstarts)
          exact ⟨first, rest, rfl, hcases.1, hcases.2.2.2.1⟩
  | null | string | array | object => exact ⟨_, _, rfl, by decide, by decide⟩

/-- The text of an array starts with its first element. -/
theorem printElements_cons (quote : List UInt8 → List UInt8) (element : Value)
    (elements : List Value) :
    printElements quote (element :: elements) = element.print quote ++
      match elements with
      | [] => [93]
      | other :: others => 44 :: printElements quote (other :: others) := by
  cases elements with
  | nil => rfl
  | cons other others => rfl

/-- The text of an object starts with its first key. -/
theorem printMembers_cons (quote : List UInt8 → List UInt8) (key : List UInt8) (value : Value)
    (members : List (List UInt8 × Value)) :
    printMembers quote ((key, value) :: members) =
      34 :: (quote key ++ 34 :: 58 :: (value.print quote ++
        match members with
        | [] => [125]
        | other :: others => 44 :: printMembers quote (other :: others))) := by
  cases members with
  | nil => simp [printMembers, printMember, literal]
  | cons other others => simp [printMembers, printMember, literal]

/-- With some fuel, every text that is no longer than it is read back, whatever follows it. -/
structure ReadsBack (quote : List UInt8 → List UInt8) (fuel : Nat) : Prop where
  value : ∀ value rest, (Value.print quote value).length ≤ fuel → Ends rest →
    parseValue fuel (value.print quote ++ rest) = some (value, rest)
  elements : ∀ element elements rest,
    (printElements quote (element :: elements)).length ≤ fuel →
    parseElements fuel (printElements quote (element :: elements) ++ rest) =
      some (element :: elements, rest)
  members : ∀ key value members rest,
    (printMembers quote ((key, value) :: members)).length ≤ fuel →
    parseMembers fuel (printMembers quote ((key, value) :: members) ++ rest) =
      some ((key, value) :: members, rest)

section Inverse

variable {quote : List UInt8 → List UInt8} {fuel : Nat}

/-- Without fuel there is nothing to read back, as no text is empty. -/
theorem ReadsBack.zero : ReadsBack quote 0 where
  value := by
    intro value rest hfuel
    obtain ⟨first, tail, heq, _⟩ := value.print_head quote
    simp [heq] at hfuel
  elements := by
    intro element elements rest hfuel
    obtain ⟨first, tail, heq, _⟩ := element.print_head quote
    rw [printElements_cons, heq] at hfuel
    simp at hfuel
  members := by
    intro key value members rest hfuel
    rw [printMembers_cons] at hfuel
    simp at hfuel

/-- A value is read back when its parts are. -/
theorem ReadsBack.parseValue (h : ReadsBack quote fuel) (hquote : Inverted quote) (value : Value)
    (rest : List UInt8) (hfuel : (value.print quote).length ≤ fuel + 1) (hends : Ends rest) :
    parseValue (fuel + 1) (value.print quote ++ rest) = some (value, rest) := by
  match value with
  | .null => rfl
  | .bool true => rfl
  | .bool false => rfl
  | .natural value =>
      obtain ⟨byte, digits, hdigits, hdigit, hall⟩ := decimal_spec value
      have hnumber := parseNumber_append hall (numberOf_decimal value) hends
      rw [hdigits] at hnumber
      rw [Value.print, hdigits]
      exact (parseValue_number (by simp [startsNumber, hdigit]) _).trans hnumber
  | .number lexeme =>
      have hall := (Bool.and_eq_true_iff.mp lexeme.number).1
      have hnumber := parseNumber_append hall (numberOf_lexeme lexeme) hends
      obtain ⟨bytes, hstarts, hvalid, hother⟩ := lexeme
      cases bytes with
      | nil => simp at hstarts
      | cons byte bytes => exact (parseValue_number (by simpa using hstarts) _).trans hnumber
  | .string content =>
      simp [Value.print, literal, Json.parseValue, skipSpace, isSpace,
        (hquote content).unescape rest]
  | .array [] => simp [Value.print, printElements, Json.parseValue, skipSpace, isSpace, expect]
  | .array (element :: elements) =>
      rw [Value.print, List.length_cons] at hfuel
      have hread := h.elements element elements rest (by omega)
      have hopen : expect 93 (printElements quote (element :: elements) ++ rest) = none := by
        obtain ⟨byte, body, hbody, hbyte, hne⟩ := element.print_head quote
        rw [printElements_cons, hbody]
        exact expect_other hbyte hne _
      simp [Value.print, Json.parseValue, skipSpace, isSpace, hopen, hread]
  | .object [] => simp [Value.print, printMembers, Json.parseValue, skipSpace, isSpace, expect]
  | .object ((key, member) :: members) =>
      rw [Value.print, List.length_cons] at hfuel
      have hread := h.members key member members rest (by omega)
      have hopen : expect 125 (printMembers quote ((key, member) :: members) ++ rest) = none := by
        rw [printMembers_cons]
        exact expect_other (by decide) (by decide) _
      simp [Value.print, Json.parseValue, skipSpace, isSpace, hopen, hread]

/-- The elements of an array are read back when each of them is. -/
theorem ReadsBack.parseElements (h : ReadsBack quote fuel) (element : Value)
    (elements : List Value) (rest : List UInt8)
    (hfuel : (printElements quote (element :: elements)).length ≤ fuel + 1) :
    parseElements (fuel + 1) (printElements quote (element :: elements) ++ rest) =
      some (element :: elements, rest) := by
  rw [printElements_cons] at hfuel ⊢
  cases elements with
  | nil =>
      simp only [List.length_append, List.length_singleton] at hfuel
      have hvalue := h.value element (93 :: rest) (by omega) (by simp [Ends]; decide)
      simp [Json.parseElements, hvalue, expect, skipSpace, isSpace]
  | cons other others =>
      simp only [List.length_append, List.length_cons] at hfuel
      have hvalue := h.value element (44 :: (printElements quote (other :: others) ++ rest))
        (by omega) (by simp [Ends]; decide)
      have hread := h.elements other others rest (by omega)
      simp [Json.parseElements, hvalue, expect, skipSpace, isSpace, hread]

/-- The members of an object are read back when each of their values is. -/
theorem ReadsBack.parseMembers (h : ReadsBack quote fuel) (hquote : Inverted quote)
    (key : List UInt8) (value : Value) (members : List (List UInt8 × Value)) (rest : List UInt8)
    (hfuel : (printMembers quote ((key, value) :: members)).length ≤ fuel + 1) :
    parseMembers (fuel + 1) (printMembers quote ((key, value) :: members) ++ rest) =
      some ((key, value) :: members, rest) := by
  rw [printMembers_cons] at hfuel ⊢
  cases members with
  | nil =>
      simp only [List.length_append, List.length_cons, List.length_nil] at hfuel
      have hvalue := h.value value (125 :: rest) (by omega) (by simp [Ends]; decide)
      simp [Json.parseMembers, hvalue, expect, skipSpace, isSpace, (hquote key).unescape]
  | cons other others =>
      simp only [List.length_append, List.length_cons] at hfuel
      have hvalue := h.value value (44 :: (printMembers quote (other :: others) ++ rest))
        (by omega) (by simp [Ends]; decide)
      have hread := h.members other.1 other.2 others rest (by simp; omega)
      simp [Json.parseMembers, hvalue, expect, skipSpace, isSpace, (hquote key).unescape, hread]

/-- Every text is read back with fuel for its length. -/
theorem readsBack (hquote : Inverted quote) (fuel : Nat) : ReadsBack quote fuel := by
  induction fuel with
  | zero => exact .zero
  | succ fuel ih =>
      exact ⟨ih.parseValue hquote, ih.parseElements, ih.parseMembers hquote⟩

/-- Every value is read back from its text. -/
theorem parse_print (hquote : Inverted quote) (value : Value) :
    parse (value.print quote) = some value := by
  have hread := (readsBack hquote ((value.print quote).length + 1)).value value []
    (Nat.le_succ _) (by simp [Ends])
  rw [List.append_nil] at hread
  simp [parse, hread, skipSpace]

end Inverse

end Unbounded.Json
