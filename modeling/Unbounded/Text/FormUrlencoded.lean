import Unbounded.Json.Strings
import Unbounded.Text.Utf8
import Mathlib.Data.List.Basic

/-!
# Form encoding

The encoding `application/x-www-form-urlencoded` of a list of named fields. A byte of a component
stands for itself when it is a letter, a digit or one of four marks, a blank is a plus sign, and
every other byte is escaped, so that the separators of the form never occur in a component. A form
is read by splitting it at the separators and decoding the components, and every form is read as it
was written (`decodeForm_encodeForm`).
-/

namespace Unbounded.Text

open Json (hexValue)

/-! ## Components -/

/-- The bytes that stand for themselves. -/
def isUnreserved (byte : UInt8) : Bool :=
  (48 ≤ byte && byte ≤ 57) || (65 ≤ byte && byte ≤ 90) || (97 ≤ byte && byte ≤ 122) ||
    byte == 42 || byte == 45 || byte == 46 || byte == 95

/-- The upper-case digit of a value below 16. -/
def upperHexDigit (value : Nat) : UInt8 :=
  if value < 10 then UInt8.ofNat (48 + value) else UInt8.ofNat (55 + value)

/-- The encoding of a byte of a component. -/
def encodeFormByte (byte : UInt8) : List UInt8 :=
  if byte == 32 then [43]
  else if isUnreserved byte then [byte]
  else [37, upperHexDigit (byte.toNat / 16), upperHexDigit (byte.toNat % 16)]

/-- The encoding of a component. -/
def encodeComponent (component : List UInt8) : List UInt8 :=
  component.flatMap encodeFormByte

/-- Read a component. An escape without two digits is refused. -/
def decodeComponent : List UInt8 → Option (List UInt8)
  | [] => some []
  | byte :: rest =>
      if byte = 37 then
        match rest with
        | high :: low :: rest => do
            let high ← hexValue high
            let low ← hexValue low
            let decoded ← decodeComponent rest
            some (UInt8.ofNat (high * 16 + low) :: decoded)
        | _ => none
      else (decodeComponent rest).map ((if byte = 43 then 32 else byte) :: ·)

/-- A digit has its value. -/
theorem hexValue_upperHexDigit {value : Nat} (h : value < 16) :
    hexValue (upperHexDigit value) = some value := by
  have hall : ∀ value : Fin 16, hexValue (upperHexDigit value) = some value.val := by decide
  exact hall ⟨value, h⟩

/-- A byte other than an escape is read on its own. -/
theorem decodeComponent_cons {byte : UInt8} (h : byte ≠ 37) (rest : List UInt8) :
    decodeComponent (byte :: rest) =
      (decodeComponent rest).map ((if byte = 43 then 32 else byte) :: ·) := by
  rw [decodeComponent.eq_def]
  simp only [if_neg h]

/-- A byte of a component is read back. -/
theorem decodeComponent_encodeFormByte (byte : UInt8) (rest : List UInt8) :
    decodeComponent (encodeFormByte byte ++ rest) = (decodeComponent rest).map (byte :: ·) := by
  have hlt : byte.toNat < 256 := byte.toNat_lt
  rw [encodeFormByte]
  split
  case isTrue hblank =>
    obtain rfl : byte = 32 := by simpa using hblank
    exact decodeComponent_cons (by decide) rest
  case isFalse =>
    split
    case isTrue hplain =>
      -- neither the escape nor the plus sign stands for itself
      have hescape : byte ≠ 37 := by rintro rfl; exact absurd hplain (by decide)
      have hplus : byte ≠ 43 := by rintro rfl; exact absurd hplain (by decide)
      rw [List.singleton_append, decodeComponent_cons hescape, if_neg hplus]
    case isFalse =>
      have hsum : byte.toNat / 16 * 16 + byte.toNat % 16 = byte.toNat := by omega
      simp only [List.cons_append, List.nil_append, decodeComponent, if_true,
        hexValue_upperHexDigit (show byte.toNat / 16 < 16 by omega),
        hexValue_upperHexDigit (show byte.toNat % 16 < 16 by omega), hsum, UInt8.ofNat_toNat,
        Option.bind_eq_bind, Option.bind_some]
      cases decodeComponent rest <;> rfl

/-- A component is read back. -/
theorem decodeComponent_encodeComponent (component : List UInt8) :
    decodeComponent (encodeComponent component) = some component := by
  induction component with
  | nil => rfl
  | cons byte component ih =>
      rw [encodeComponent, List.flatMap_cons, decodeComponent_encodeFormByte]
      rw [encodeComponent] at ih
      rw [ih, Option.map_some]

/-- The bytes of an encoded byte are no separators of a form. -/
theorem separators_notMem_encodeFormByte (byte : UInt8) :
    38 ∉ encodeFormByte byte ∧ 61 ∉ encodeFormByte byte := by
  have hdigit : ∀ value : Fin 16, upperHexDigit value ≠ 38 ∧ upperHexDigit value ≠ 61 := by decide
  have hlt : byte.toNat < 256 := byte.toNat_lt
  have hhigh := hdigit ⟨byte.toNat / 16, by omega⟩
  have hlow := hdigit ⟨byte.toNat % 16, by omega⟩
  rw [encodeFormByte]
  split
  · decide
  · split
    case isTrue hplain =>
      constructor <;>
      · intro hmem
        obtain rfl := List.mem_singleton.mp hmem
        exact absurd hplain (by decide)
    case isFalse =>
      simp only [List.mem_cons, List.not_mem_nil, or_false, not_or]
      exact ⟨⟨by decide, hhigh.1.symm, hlow.1.symm⟩, ⟨by decide, hhigh.2.symm, hlow.2.symm⟩⟩

/-- The separators of a form do not occur in a component. -/
theorem separators_notMem_encodeComponent (component : List UInt8) :
    38 ∉ encodeComponent component ∧ 61 ∉ encodeComponent component := by
  constructor <;>
  · intro hmem
    obtain ⟨byte, _, hbyte⟩ := List.mem_flatMap.mp hmem
    have hsep := separators_notMem_encodeFormByte byte
    first | exact hsep.1 hbyte | exact hsep.2 hbyte

/-! ## Forms -/

/-- A field of a form: its name and its value. -/
abbrev FormField := List UInt8 × List UInt8

/-- The encoding of a field. -/
def encodeField (field : FormField) : List UInt8 :=
  encodeComponent field.1 ++ 61 :: encodeComponent field.2

/-- The encoding of a form. -/
def encodeForm (fields : List FormField) : List UInt8 :=
  [38].intercalate (fields.map encodeField)

/-- Read a field: the name ends at the first equals sign. -/
def decodeField (piece : List UInt8) : Option FormField := do
  let name ← decodeComponent (piece.takeWhile (· != 61))
  let value ← decodeComponent ((piece.dropWhile (· != 61)).drop 1)
  some (name, value)

/-- Read a form. An empty piece is no field. -/
def decodeForm (body : List UInt8) : Option (List FormField) :=
  ((body.splitOn 38).filter fun piece ↦ !piece.isEmpty).mapM decodeField

/-- A field is read back. -/
theorem decodeField_encodeField (field : FormField) :
    decodeField (encodeField field) = some field := by
  have hname : ∀ byte ∈ encodeComponent field.1, (byte != 61) = true := by
    intro byte hbyte
    have hne : byte ≠ 61 := fun heq ↦
      (separators_notMem_encodeComponent field.1).2 (heq ▸ hbyte)
    simpa using hne
  rw [decodeField, encodeField, List.takeWhile_append_of_pos hname,
    List.dropWhile_append_of_pos hname]
  simp [decodeComponent_encodeComponent]

/-- An encoded field has no separator of fields in it and is not empty. -/
theorem encodeField_piece (field : FormField) :
    38 ∉ encodeField field ∧ (encodeField field).isEmpty = false := by
  constructor
  · simp [encodeField, separators_notMem_encodeComponent]
  · simp [encodeField]

/-- Every form is read as it was written. -/
theorem decodeForm_encodeForm (fields : List FormField) :
    decodeForm (encodeForm fields) = some fields := by
  have hread : (fields.map encodeField).mapM decodeField = some fields := by
    induction fields with
    | nil => rfl
    | cons field fields ih =>
        rw [List.map_cons, List.mapM_cons, decodeField_encodeField, ih]
        rfl
  cases fields with
  | nil => rfl
  | cons field fields =>
      have hpieces : ∀ piece ∈ (field :: fields).map encodeField,
          38 ∉ piece ∧ piece.isEmpty = false := by
        intro piece hpiece
        obtain ⟨written, _, rfl⟩ := List.mem_map.mp hpiece
        exact encodeField_piece written
      have hfilter : ((field :: fields).map encodeField).filter (fun piece ↦ !piece.isEmpty) =
          (field :: fields).map encodeField :=
        List.filter_eq_self.mpr fun piece hpiece ↦ by simp [(hpieces piece hpiece).2]
      rw [decodeForm, encodeForm,
        List.splitOn_intercalate 38 (fun piece hpiece ↦ (hpieces piece hpiece).1) (by simp),
        hfilter, hread]

end Unbounded.Text
