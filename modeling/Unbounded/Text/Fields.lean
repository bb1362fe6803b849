import Mathlib.Data.List.DropRight

/-!
# Fields of a separated list

A list of fields in one sequence: the fields are joined with a separator and some padding, and are
read by splitting at the separator and trimming blanks at both ends. Fields without separators and
blanks are read as they were joined (`fields_intercalate`).
-/

namespace Unbounded.Text

universe u

variable {α : Type u}

/-- Remove blanks at both ends. -/
def trim (blank : α → Bool) (field : List α) : List α :=
  (field.dropWhile blank).rdropWhile blank

/-- The fields between separators, trimmed. -/
def fields [BEq α] (separator : α) (blank : α → Bool) (text : List α) : List (List α) :=
  (text.splitOn separator).map (trim blank)

variable {blank : α → Bool} {padding field : List α} {separator : α}

/-- Trimming removes the padding before a field and leaves a field without blanks alone. -/
theorem trim_append (hpadding : ∀ entry ∈ padding, blank entry = true)
    (hfield : ∀ entry ∈ field, blank entry = false) : trim blank (padding ++ field) = field := by
  have hleft : (padding ++ field).dropWhile blank = field := by
    rw [List.dropWhile_append_of_pos hpadding]
    cases field with
    | nil => rfl
    | cons entry rest => exact List.dropWhile_cons_of_neg (by simp [hfield])
  rw [trim, hleft, List.rdropWhile_eq_self_iff]
  intro hne
  simp [hfield _ (List.getLast_mem hne)]

/-- Padding after the separators belongs to the fields. -/
theorem intercalate_cons_padding (separator : α) (padding first : List α)
    (rest : List (List α)) :
    (separator :: padding).intercalate (first :: rest) =
      [separator].intercalate (first :: rest.map (padding ++ ·)) := by
  induction rest generalizing first with
  | nil => rfl
  | cons second rest ih =>
      rw [List.intercalate_cons_cons, ih second, List.map_cons, List.intercalate_cons_cons]
      cases rest with
      | nil => simp
      | cons third rest => simp [List.intercalate_cons_cons]

/-- Fields that have no separators and no blanks are read as they were joined. -/
theorem fields_intercalate [BEq α] [LawfulBEq α] {joined : List (List α)} (blank : α → Bool)
    (padding : List α) (hjoined : joined ≠ [])
    (hpadding : ∀ entry ∈ padding, blank entry = true) (hseparator : separator ∉ padding)
    (hfields : ∀ field ∈ joined, separator ∉ field ∧ ∀ entry ∈ field, blank entry = false) :
    fields separator blank ((separator :: padding).intercalate joined) = joined := by
  obtain ⟨first, rest, rfl⟩ := List.exists_cons_of_ne_nil hjoined
  have hsplit : ∀ field ∈ first :: rest.map (padding ++ ·), separator ∉ field := by
    intro field hfield
    rcases List.mem_cons.mp hfield with rfl | hrest
    · exact (hfields _ List.mem_cons_self).1
    · obtain ⟨inner, hinner, rfl⟩ := List.mem_map.mp hrest
      simp [hseparator, (hfields inner (List.mem_cons_of_mem _ hinner)).1]
  rw [fields, intercalate_cons_padding, List.splitOn_intercalate separator hsplit (by simp),
    List.map_cons, List.map_map]
  congr 1
  · show trim blank ([] ++ first) = first
    exact trim_append (by simp) (hfields first List.mem_cons_self).2
  · conv_rhs => rw [← List.map_id rest]
    refine List.map_congr_left fun field hfield ↦ ?_
    exact trim_append hpadding (hfields field (List.mem_cons_of_mem _ hfield)).2

end Unbounded.Text
