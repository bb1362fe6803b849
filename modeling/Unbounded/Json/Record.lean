import Unbounded.Json.Value
import Unbounded.Text.Utf8

/-!
# Records as JSON values

How a derived reader takes a record apart. A record is an object, in which every known field stands
at most once, unknown fields are skipped and every key is text, or an array with the fields in
order. `Value.fields` returns what stands in each known field, and `fields_record` says that it
finds what the writer of a record put there. The readers of the field types follow.
-/

namespace Unbounded.Json

open Text (utf8 decodeUtf8 decodeUtf8_utf8 utf8_injective)

/-- The value of a known field, when the field does not stand twice. -/
def lookup (members : List (List UInt8 × Value)) (name : String) : Option (Option Value) :=
  match members.filter fun member ↦ member.1 == utf8 name with
  | [] => some none
  | [member] => some (some member.2)
  | _ => none

/-- What stands in the known fields of a record. -/
def Value.fields (names : List String) : Value → Option (List (Option Value))
  | .object members =>
      if members.all fun member ↦ (decodeUtf8 member.1).isSome then
        names.mapM (lookup members)
      else none
  | .array elements =>
      if elements.length ≤ names.length then
        some (elements.map some ++ List.replicate (names.length - elements.length) none)
      else none
  | _ => none

/-- Read a text. -/
def Value.text : Value → Option String
  | .string content => decodeUtf8 content
  | _ => none

/-- Read a natural number below a bound. -/
def Value.natBelow (bound : Nat) : Value → Option Nat
  | .natural value => if value < bound then some value else none
  | _ => none

/-- Read a truth value. -/
def Value.boolean : Value → Option Bool
  | .bool value => some value
  | _ => none

/-- Read the elements of an array. -/
def Value.list {α : Type} (read : Value → Option α) : Value → Option (List α)
  | .array elements => elements.mapM read
  | _ => none

/-- Read a field that may be missing or `null`. -/
def optionalField {α : Type} (read : Value → Option α) : Option Value → Option (Option α)
  | none => some none
  | some .null => some none
  | some value => (read value).map some

/-- Write a text. -/
def Value.ofText (text : String) : Value :=
  .string (utf8 text)

/-- Write a record. -/
def Value.record (fields : List (String × Value)) : Value :=
  .object (fields.map fun field ↦ (utf8 field.1, field.2))

/-- A text is read back. -/
theorem Value.text_ofText (text : String) : (Value.ofText text).text = some text :=
  decodeUtf8_utf8 text

/-- A field that was not written is not found. -/
theorem filter_key_eq_nil {fields : List (String × Value)} {name : String}
    (h : name ∉ fields.map Prod.fst) :
    (fields.map fun field ↦ (utf8 field.1, field.2)).filter
      (fun member ↦ member.1 == utf8 name) = [] := by
  rw [List.filter_eq_nil_iff]
  intro member hmem
  obtain ⟨field, hfield, rfl⟩ := List.mem_map.mp hmem
  simp only [beq_iff_eq]
  exact fun heq ↦ h (List.mem_map.mpr ⟨field, hfield, utf8_injective heq⟩)

/-- A field that was written once is found. -/
theorem lookup_record {fields : List (String × Value)} (hnodup : (fields.map Prod.fst).Nodup)
    (name : String) :
    lookup (fields.map fun field ↦ (utf8 field.1, field.2)) name =
      some (fields.lookup name) := by
  induction fields with
  | nil => rfl
  | cons field fields ih =>
      obtain ⟨key, value⟩ := field
      rw [List.map_cons, List.nodup_cons] at hnodup
      by_cases hname : name = key
      · subst hname
        unfold lookup
        rw [List.map_cons, List.filter_cons_of_pos (by simp), filter_key_eq_nil hnodup.1]
        simp
      · have hkey : (utf8 key == utf8 name) = false := by
          rw [beq_eq_false_iff_ne]
          exact fun heq ↦ hname (utf8_injective heq).symm
        have hskip : lookup ((key, value) :: fields |>.map fun field ↦
            (utf8 field.1, field.2)) name =
            lookup (fields.map fun field ↦ (utf8 field.1, field.2)) name := by
          unfold lookup
          rw [List.map_cons, List.filter_cons_of_neg (by simp [hkey])]
        rw [hskip, ih hnodup.2, List.lookup_cons, beq_eq_false_iff_ne.mpr hname]

/-- The fields of a record are found where they were written. -/
theorem fields_record (fields : List (String × Value)) (hnodup : (fields.map Prod.fst).Nodup)
    (names : List String) :
    (Value.record fields).fields names = some (names.map fun name ↦ fields.lookup name) := by
  have hkeys : ((fields.map fun field ↦ (utf8 field.1, field.2)).all fun member ↦
      (decodeUtf8 member.1).isSome) = true := by
    simp [decodeUtf8_utf8]
  rw [Value.record, Value.fields, if_pos hkeys]
  induction names with
  | nil => rfl
  | cons name names ih =>
      rw [List.mapM_cons, lookup_record hnodup, ih]
      rfl

/-- The elements of an array are read back when each of them is. -/
theorem list_map {α β : Type} {read : Value → Option β} {write : α → Value} {view : α → β}
    (h : ∀ element, read (write element) = some (view element)) (elements : List α) :
    (Value.array (elements.map write)).list read = some (elements.map view) := by
  show (elements.map write).mapM read = _
  induction elements with
  | nil => rfl
  | cons element elements ih =>
      rw [List.map_cons, List.mapM_cons, h, ih]
      rfl

end Unbounded.Json
