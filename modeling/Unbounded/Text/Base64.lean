import Mathlib.Data.List.Basic

/-!
# Standard base64

Base64 with the standard alphabet and canonical padding. Three bytes become four
symbols; a last group of one or two bytes is padded. The decoder is strict: the text is a sequence
of whole groups, padding stands in the last group only, and the bits that a padded group leaves over
are zero. What was encoded is decoded (`decode_encode`), and it is ASCII (`encode_ascii`).
-/

namespace Unbounded.Text.Base64

/-- The padding symbol `=`. -/
def pad : UInt8 := 61

/-- The symbol of a value below 64. -/
def symbol (value : Nat) : UInt8 :=
  if value < 26 then UInt8.ofNat (65 + value)
  else if value < 52 then UInt8.ofNat (71 + value)
  else if value < 62 then UInt8.ofNat (value - 4)
  else if value = 62 then 43
  else 47

/-- The value of a symbol. -/
def value (symbol : UInt8) : Option Nat :=
  if 65 ≤ symbol ∧ symbol ≤ 90 then some (symbol.toNat - 65)
  else if 97 ≤ symbol ∧ symbol ≤ 122 then some (symbol.toNat - 71)
  else if 48 ≤ symbol ∧ symbol ≤ 57 then some (symbol.toNat + 4)
  else if symbol = 43 then some 62
  else if symbol = 47 then some 63
  else none

/-- Encode bytes. -/
def encode : List UInt8 → List UInt8
  | [] => []
  | [a] => [symbol (a.toNat / 4), symbol (a.toNat % 4 * 16), pad, pad]
  | [a, b] =>
      [symbol (a.toNat / 4), symbol (a.toNat % 4 * 16 + b.toNat / 16),
        symbol (b.toNat % 16 * 4), pad]
  | a :: b :: c :: rest =>
      symbol (a.toNat / 4) :: symbol (a.toNat % 4 * 16 + b.toNat / 16) ::
        symbol (b.toNat % 16 * 4 + c.toNat / 64) :: symbol (c.toNat % 64) :: encode rest

/-- Decode one group of four symbols. Padding is allowed in the last group. -/
def decodeGroup (last : Bool) (a b c d : UInt8) : Option (List UInt8) := do
  let x ← value a
  let y ← value b
  let first := UInt8.ofNat (x * 4 + y / 16)
  if last && c == pad && d == pad then
    if y % 16 = 0 then some [first] else none
  else
    let z ← value c
    let second := UInt8.ofNat (y % 16 * 16 + z / 4)
    if last && d == pad then
      if z % 4 = 0 then some [first, second] else none
    else
      let w ← value d
      some [first, second, UInt8.ofNat (z % 4 * 64 + w)]

/-- Decode a text. -/
def decode : List UInt8 → Option (List UInt8)
  | [] => some []
  | a :: b :: c :: d :: rest => do
      let group ← decodeGroup rest.isEmpty a b c d
      let decoded ← decode rest
      some (group ++ decoded)
  | _ => none

/-- A symbol has its value, and padding is no symbol. -/
theorem value_symbol {n : Nat} (h : n < 64) :
    value (symbol n) = some n ∧ (symbol n == pad) = false := by
  have hall : ∀ n : Fin 64, value (symbol n) = some n.val ∧ (symbol n == pad) = false := by decide
  exact hall ⟨n, h⟩

/-- A byte is put together from its parts. -/
theorem ofNat_eq_of_toNat {n : Nat} (byte : UInt8) (h : n = byte.toNat) : UInt8.ofNat n = byte := by
  rw [h, UInt8.ofNat_toNat]

section Groups

variable {a b c d : UInt8} {x y z w : Nat} (ha : value a = some x) (hb : value b = some y)

include ha hb

/-- Four symbols are three bytes. -/
theorem decodeGroup_full (last : Bool) (hc : value c = some z ∧ (c == pad) = false)
    (hd : value d = some w ∧ (d == pad) = false) :
    decodeGroup last a b c d = some [UInt8.ofNat (x * 4 + y / 16),
      UInt8.ofNat (y % 16 * 16 + z / 4), UInt8.ofNat (z % 4 * 64 + w)] := by
  simp [decodeGroup, ha, hb, hc, hd]

/-- Three symbols and a padding are two bytes. -/
theorem decodeGroup_two (hc : value c = some z ∧ (c == pad) = false) (hz : z % 4 = 0) :
    decodeGroup true a b c pad = some [UInt8.ofNat (x * 4 + y / 16),
      UInt8.ofNat (y % 16 * 16 + z / 4)] := by
  simp [decodeGroup, ha, hb, hc, hz]

/-- Two symbols and two paddings are one byte. -/
theorem decodeGroup_one (hy : y % 16 = 0) :
    decodeGroup true a b pad pad = some [UInt8.ofNat (x * 4 + y / 16)] := by
  simp [decodeGroup, ha, hb, hy]

end Groups

/-- What was encoded is decoded. -/
theorem decode_encode (bytes : List UInt8) : decode (encode bytes) = some bytes := by
  induction bytes using encode.induct with
  | case1 => rfl
  | case2 a =>
      have ha := a.toNat_lt
      have hgroup := decodeGroup_one (value_symbol (n := a.toNat / 4) (by omega)).1
        (value_symbol (n := a.toNat % 4 * 16) (by omega)).1 (by omega)
      rw [ofNat_eq_of_toNat a (by omega)] at hgroup
      simp [encode, decode, hgroup]
  | case3 a b =>
      have ha := a.toNat_lt
      have hb := b.toNat_lt
      have hgroup := decodeGroup_two (value_symbol (n := a.toNat / 4) (by omega)).1
        (value_symbol (n := a.toNat % 4 * 16 + b.toNat / 16) (by omega)).1
        (value_symbol (n := b.toNat % 16 * 4) (by omega)) (by omega)
      rw [ofNat_eq_of_toNat a (by omega), ofNat_eq_of_toNat b (by omega)]
        at hgroup
      simp [encode, decode, hgroup]
  | case4 a b c rest ih =>
      have ha := a.toNat_lt
      have hb := b.toNat_lt
      have hc := c.toNat_lt
      have hgroup := decodeGroup_full (value_symbol (n := a.toNat / 4) (by omega)).1
        (value_symbol (n := a.toNat % 4 * 16 + b.toNat / 16) (by omega)).1
        (encode rest).isEmpty
        (value_symbol (n := b.toNat % 16 * 4 + c.toNat / 64) (by omega))
        (value_symbol (n := c.toNat % 64) (by omega))
      rw [ofNat_eq_of_toNat a (by omega), ofNat_eq_of_toNat b (by omega),
        ofNat_eq_of_toNat c (by omega)] at hgroup
      simp [encode, decode, hgroup, ih]

/-- An encoded text is ASCII. -/
theorem encode_ascii (bytes : List UInt8) : ∀ byte ∈ encode bytes, byte.toNat < 128 := by
  have hsymbol : ∀ value, (symbol value).toNat < 128 := by
    intro value
    unfold symbol
    split
    · rw [UInt8.toNat_ofNat']
      omega
    split
    · rw [UInt8.toNat_ofNat']
      omega
    split
    · rw [UInt8.toNat_ofNat']
      omega
    split <;> decide
  have hpad : pad.toNat < 128 := by decide
  induction bytes using encode.induct with
  | case1 => simp [encode]
  | case2 a => simp [encode, hsymbol, hpad]
  | case3 a b => simp [encode, hsymbol, hpad]
  | case4 a b c rest ih =>
      simp only [encode, List.forall_mem_cons, hsymbol, true_and]
      exact ih

end Unbounded.Text.Base64
