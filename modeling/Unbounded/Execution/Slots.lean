import Mathlib.Data.List.Basic
import Mathlib.Algebra.BigOperators.Group.Finset.Piecewise
import Mathlib.Algebra.Order.Group.Nat
import Mathlib.Algebra.Ring.Nat

/-!
# Processes in slots

A system with a growing number of processes keeps them in a list, where a process is named by its
position, is never removed, and moves by being replaced in its slot. These are the lemmas on
replacing one slot and on starting a process in a new one.
-/

namespace Unbounded.Execution

universe u v

variable {α : Type u} {slots : List α} {index other : Nat} {old new found : α}

/-- What the slots hold after one of them was replaced. -/
theorem getElem?_set_slot (h : slots[index]? = some old) (new : α) (other : Nat) :
    (slots.set index new)[other]? = if index = other then some new else slots[other]? := by
  obtain ⟨hlt, _⟩ := List.getElem?_eq_some_iff.mp h
  rw [List.getElem?_set, if_pos hlt]

/-- The slot that was replaced holds the new process. -/
theorem getElem?_set_slot_self (h : slots[index]? = some old) (new : α) :
    (slots.set index new)[index]? = some new := by
  rw [getElem?_set_slot h, if_pos rfl]

/-- A slot after a replacement holds the new process or what it held before. -/
theorem getElem?_set_cases (h : (slots.set index new)[other]? = some found) :
    (index = other ∧ found = new) ∨ (index ≠ other ∧ slots[other]? = some found) := by
  rw [List.getElem?_set] at h
  split at h
  case isTrue heq =>
    split at h
    · exact .inl ⟨heq, (Option.some.inj h).symm⟩
    · simp at h
  case isFalse hne => exact .inr ⟨hne, h⟩

/-- A slot after a process was started holds the new process or what it held before. -/
theorem getElem?_append_cases (h : (slots ++ [new])[other]? = some found) :
    (other = slots.length ∧ found = new) ∨ (other < slots.length ∧ slots[other]? = some found) := by
  rcases Nat.lt_trichotomy other slots.length with hlt | heq | hgt
  · rw [List.getElem?_append_left hlt] at h
    exact .inr ⟨hlt, h⟩
  · subst heq
    simp only [List.getElem?_concat_length, Option.some.injEq] at h
    exact .inl ⟨rfl, h.symm⟩
  · rw [List.getElem?_eq_none (by simp; omega)] at h
    simp at h

/-- A process that was there is still there after another was started. -/
theorem getElem?_append_of_some (h : slots[index]? = some old) (new : α) :
    (slots ++ [new])[index]? = some old := by
  obtain ⟨hlt, _⟩ := List.getElem?_eq_some_iff.mp h
  rw [List.getElem?_append_left hlt, h]

/-- Replacing a slot moves a count by what the old and the new process contribute to it. -/
theorem countP_set_slot (h : slots[index]? = some old) (new : α) (test : α → Bool) :
    (slots.set index new).countP test + (test old).toNat =
      slots.countP test + (test new).toNat := by
  obtain ⟨hlt, rfl⟩ := List.getElem?_eq_some_iff.mp h
  have hpos : test slots[index] = true → 0 < slots.countP test := fun htest ↦
    List.countP_pos_iff.mpr ⟨_, List.getElem_mem hlt, htest⟩
  rw [List.countP_set hlt]
  cases hold : test slots[index] with
  | true =>
      have := hpos hold
      cases test new <;> simp <;> omega
  | false => cases test new <;> simp

/-- Replacing a slot moves a sum by what the old and the new process contribute to it. -/
theorem sum_map_set_slot (h : slots[index]? = some old) (new : α) (weight : α → Nat) :
    ((slots.set index new).map weight).sum + weight old = (slots.map weight).sum + weight new := by
  induction slots generalizing index with
  | nil => simp at h
  | cons first rest ih =>
      cases index with
      | zero =>
          simp only [List.getElem?_cons_zero, Option.some.injEq] at h
          subst h
          simp only [List.set_cons_zero, List.map_cons, List.sum_cons]
          omega
      | succ index =>
          have hrest := ih h
          simp only [List.set_cons_succ, List.map_cons, List.sum_cons]
          omega

/-- A projection of the processes does not see a replacement that keeps it. -/
theorem map_set_slot {β : Type v} {project : α → β} (h : slots[index]? = some old)
    (hproject : project new = project old) :
    (slots.set index new).map project = slots.map project := by
  refine List.ext_getElem? fun other ↦ ?_
  rw [List.getElem?_map, List.getElem?_map, getElem?_set_slot h]
  split
  case isTrue heq =>
    subst heq
    rw [h, Option.map_some, Option.map_some, hproject]
  case isFalse => rfl

/-- A process that passes a test is counted. -/
theorem countP_slot_pos {test : α → Bool} (h : slots[index]? = some old) (htest : test old = true) :
    0 < slots.countP test :=
  List.countP_pos_iff.mpr ⟨_, List.mem_of_getElem? h, htest⟩

/-- One slot of a range gets what is added to it alone. -/
theorem sum_range_slot {size slot : Nat} (h : slot < size) (amount : Nat) :
    ((List.range size).map fun other ↦ if slot = other then amount else 0).sum = amount := by
  have hsum := Finset.sum_ite_eq (Finset.range size) slot fun _ ↦ amount
  rw [if_pos (Finset.mem_range.mpr h)] at hsum
  exact hsum

/-- What is tagged with slots is counted slot by slot. -/
theorem countP_eq_sum_slots {entries : List α} {tag : α → Nat} {size : Nat}
    (h : ∀ entry ∈ entries, tag entry < size) (test : α → Bool) :
    entries.countP test =
      ((List.range size).map fun slot ↦
        (entries.filter fun entry ↦ tag entry = slot).countP test).sum := by
  induction entries with
  | nil => simp
  | cons entry entries ih =>
      have hslot : ∀ slot, ((entry :: entries).filter fun entry ↦ tag entry = slot).countP test =
          (if tag entry = slot then (test entry).toNat else 0) +
            (entries.filter fun entry ↦ tag entry = slot).countP test := by
        intro slot
        rw [List.filter_cons]
        by_cases htag : tag entry = slot
        · cases htest : test entry <;> simp [htag, htest, Nat.add_comm]
        · simp [htag]
      simp only [hslot, List.sum_map_add]
      rw [sum_range_slot (h entry List.mem_cons_self),
        ← ih fun other hother ↦ h other (List.mem_cons_of_mem _ hother), List.countP_cons]
      cases test entry <;> simp [Nat.add_comm]

end Unbounded.Execution
