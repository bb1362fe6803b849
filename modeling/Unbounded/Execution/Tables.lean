import Mathlib.Data.List.AList
import Mathlib.Data.Set.Card

/-!
# Finite tables and the counts of their entries

A `Table` is Mathlib's `AList` with values of one type: a list of entries with distinct keys. The
lemmas below say what a lookup finds after each operation, follow a count of entries through it,
and identify the size of a table with the number of its keys.
-/

namespace Unbounded.Execution

/-- A finite map from keys to values. -/
abbrev Table (Key Value : Type) := AList fun _ : Key ↦ Value

namespace Table

variable {Key Value : Type} [DecidableEq Key]

/-- The value of a key. -/
def get (table : Table Key Value) (key : Key) : Option Value :=
  AList.lookup key table

/-- Give a key a value, replacing the value it had. -/
def insert (table : Table Key Value) (key : Key) (value : Value) : Table Key Value :=
  AList.insert key value table

/-- Remove a key. -/
def erase (table : Table Key Value) (key : Key) : Table Key Value :=
  AList.erase key table

/-- Change the value of a key, if it has one. -/
def modify (table : Table Key Value) (key : Key) (change : Value → Value) : Table Key Value :=
  match table.get key with
  | some value => table.insert key (change value)
  | none => table

omit [DecidableEq Key] in
/-- Change every value. -/
def mapValues (table : Table Key Value) (change : Key → Value → Value) : Table Key Value where
  entries := table.entries.map fun entry ↦ ⟨entry.1, change entry.1 entry.2⟩
  nodupKeys := by
    have hkeys := table.nodupKeys
    simp only [List.NodupKeys, List.keys, List.map_map, Function.comp_def] at hkeys ⊢
    exact hkeys

omit [DecidableEq Key] in
/-- The number of entries that pass a test. -/
def count (table : Table Key Value) (test : Key → Value → Bool) : Nat :=
  table.entries.countP fun entry ↦ test entry.1 entry.2

omit [DecidableEq Key] in
/-- The number of entries. -/
def size (table : Table Key Value) : Nat :=
  table.entries.length

/-! ## Lookups -/

@[simp] theorem get_empty (key : Key) : get (∅ : Table Key Value) key = none := rfl

theorem get_insert (table : Table Key Value) (key other : Key) (value : Value) :
    (table.insert key value).get other = if other = key then some value else table.get other := by
  by_cases h : other = key
  · subst h
    simp [get, insert]
  · simp [get, insert, h, AList.lookup_insert_ne h]

@[simp] theorem get_insert_same (table : Table Key Value) (key : Key) (value : Value) :
    (table.insert key value).get key = some value := by
  simp [get_insert]

theorem get_erase (table : Table Key Value) (key other : Key) :
    (table.erase key).get other = if other = key then none else table.get other := by
  by_cases h : other = key
  · subst h
    simp [get, erase]
  · simp [get, erase, h, AList.lookup_erase_ne h]

theorem get_modify (table : Table Key Value) (key other : Key) (change : Value → Value) :
    (table.modify key change).get other =
      if other = key then (table.get key).map change else table.get other := by
  unfold modify
  cases hget : table.get key with
  | none =>
      by_cases h : other = key
      · simp [h, hget]
      · simp [h]
  | some value =>
      by_cases h : other = key <;> simp [h, get_insert]

@[simp] theorem get_modify_same (table : Table Key Value) (key : Key) (change : Value → Value) :
    (table.modify key change).get key = (table.get key).map change := by
  simp [get_modify]

@[simp] theorem get_mapValues (table : Table Key Value) (change : Key → Value → Value)
    (key : Key) : (table.mapValues change).get key = (table.get key).map (change key) :=
  List.dlookup_map₂ key

/-! ## Counts -/

/-- Removing a present key takes exactly its entry out of the table. -/
theorem entries_perm_erase {table : Table Key Value} {key : Key} {value : Value}
    (h : table.get key = some value) :
    table.entries.Perm (⟨key, value⟩ :: (table.erase key).entries) := by
  have hmem : key ∈ table.entries.keys := by
    apply AList.mem_keys.mp
    rw [← AList.lookup_isSome]
    exact Option.isSome_iff_exists.mpr ⟨value, h⟩
  obtain ⟨found, front, back, hfront, hentries, herase⟩ := List.exists_of_kerase hmem
  have hfound : found = value := by
    have hlookup : table.entries.dlookup key = some value := h
    rw [hentries, List.dlookup_append] at hlookup
    simpa [List.dlookup_eq_none.mpr hfront] using hlookup
  subst hfound
  show table.entries.Perm (⟨key, found⟩ :: List.kerase key table.entries)
  rw [herase, hentries]
  exact List.perm_middle

/-- A count splits at a present key. -/
theorem count_erase {table : Table Key Value} {key : Key} {value : Value}
    (h : table.get key = some value) (test : Key → Value → Bool) :
    table.count test = (table.erase key).count test + (test key value).toNat := by
  simp only [count, (entries_perm_erase h).countP_eq, List.countP_cons]
  cases test key value <;> rfl

/-- A count after a new key is inserted. -/
theorem count_insert {table : Table Key Value} {key : Key} (value : Value)
    (h : table.get key = none) (test : Key → Value → Bool) :
    (table.insert key value).count test = table.count test + (test key value).toNat := by
  have hentries : (table.insert key value).entries = ⟨key, value⟩ :: table.entries :=
    AList.entries_insert_of_notMem (AList.lookup_eq_none.mp h)
  simp only [count, hentries, List.countP_cons]
  cases test key value <;> rfl

/-- A count after the value of a present key is changed. -/
theorem count_modify {table : Table Key Value} {key : Key} {value : Value}
    (h : table.get key = some value) (change : Value → Value) (test : Key → Value → Bool) :
    (table.modify key change).count test + (test key value).toNat =
      table.count test + (test key (change value)).toNat := by
  have hentries : (table.modify key change).entries =
      ⟨key, change value⟩ :: (table.erase key).entries := by
    rw [modify, h]
    exact AList.entries_insert
  have hcount : (table.modify key change).count test =
      (table.erase key).count test + (test key (change value)).toNat := by
    simp only [count, hentries, List.countP_cons]
    cases test key (change value) <;> rfl
  rw [hcount, count_erase h test]
  omega

/-- A count is unchanged when the changed value passes the test exactly if the old one did. -/
theorem count_modify_congr {table : Table Key Value} {key : Key} {change : Value → Value}
    {test : Key → Value → Bool} (h : ∀ value, test key (change value) = test key value) :
    (table.modify key change).count test = table.count test := by
  cases hget : table.get key with
  | none => simp [modify, hget]
  | some value =>
      have hcount := count_modify hget change test
      rw [h value] at hcount
      omega

omit [DecidableEq Key] in
/-- A count is unchanged when no value's test is. -/
theorem count_mapValues_congr {table : Table Key Value} {change : Key → Value → Value}
    {test : Key → Value → Bool} (h : ∀ key value, test key (change key value) = test key value) :
    (table.mapValues change).count test = table.count test := by
  unfold count mapValues
  rw [List.countP_map]
  exact List.countP_congr fun entry _ ↦ by simp [h]

omit [DecidableEq Key] in
@[simp] theorem count_empty (test : Key → Value → Bool) :
    count (∅ : Table Key Value) test = 0 := rfl

/-- A new key makes a table one entry larger. -/
theorem size_insert {table : Table Key Value} {key : Key} (value : Value)
    (h : table.get key = none) : (table.insert key value).size = table.size + 1 := by
  have hcount := count_insert value h fun _ _ ↦ true
  simpa [count, size] using hcount

/-- Removing a key makes a table one entry smaller. -/
theorem size_erase {table : Table Key Value} {key : Key} {value : Value}
    (h : table.get key = some value) : (table.erase key).size + 1 = table.size := by
  have hcount := count_erase h fun _ _ ↦ true
  simpa [count, size] using hcount.symm

/-- The size of a table is the number of its keys. -/
theorem size_eq_ncard (table : Table Key Value) :
    table.size = {key | (table.get key).isSome}.ncard := by
  have hset : {key | (table.get key).isSome} = (table.keys.toFinset : Set Key) := by
    ext key
    simp [get, AList.lookup_isSome, AList.mem_keys]
  rw [hset, Set.ncard_coe_finset, List.toFinset_card_of_nodup table.keys_nodup]
  simp [size, AList.keys, List.keys]

/-- A table is empty when no key has a value. -/
theorem size_eq_zero_iff {table : Table Key Value} :
    table.size = 0 ↔ ∀ key, table.get key = none := by
  constructor
  · intro h key
    have hempty : table = ∅ := AList.ext (List.length_eq_zero_iff.mp h)
    rw [hempty, get_empty]
  · intro h
    have hset : {key | (table.get key).isSome} = ∅ := by
      ext key
      simp [h key]
    rw [size_eq_ncard, hset, Set.ncard_empty]

end Table

end Unbounded.Execution
