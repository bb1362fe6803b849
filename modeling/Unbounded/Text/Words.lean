import Mathlib.Data.List.Basic

/-!
# Words and numbers of a line

A line of a log is read by its words, which are what stands between blanks. Words that were put
together with blanks are read back (`words_blank`, `words_of_notMem`), and so are numbers that were
written in decimal (`readNumber_repr`).
-/

namespace Unbounded.Text

/-- What stands between the blanks of a text. -/
def words (text : String) : List String :=
  (text.toList.splitOn ' ').map String.ofList

/-- A blank ends a word. -/
theorem words_blank (text rest : String) :
    words (text ++ " " ++ rest) = words text ++ words rest := by
  have hblank : (" " : String).toList = [' '] := rfl
  simp only [words, String.toList_append, hblank, List.append_assoc, List.singleton_append,
    List.splitOn]
  rw [List.splitOnP_append_cons _ _ (by simp), List.map_append]

/-- A text without blanks is a word. -/
theorem words_of_notMem {text : String} (h : ' ' ∉ text.toList) : words text = [text] := by
  have hsplit := List.splitOn_intercalate ' ' (fun field hfield ↦ by
    rw [List.mem_singleton.mp hfield]
    exact h) (List.cons_ne_nil text.toList [])
  rw [List.intercalate_singleton] at hsplit
  simp [words, hsplit]

/-- What is written before a blank is read on its own. -/
theorem words_before {written head : String} (h : written = head ++ " ") (rest : String) :
    words (written ++ rest) = words head ++ words rest := by
  rw [h, words_blank]

/-- A word ends where something with a blank follows. -/
theorem words_word {word written tail : String} (hword : ' ' ∉ word.toList)
    (h : written = " " ++ tail) : words (word ++ written) = word :: words tail := by
  rw [h, ← String.append_assoc, words_blank, words_of_notMem hword, List.singleton_append]

/-- A word in the middle of a text ends at the blank after it. -/
theorem words_word_append {word written tail : String} (hword : ' ' ∉ word.toList)
    (h : written = " " ++ tail) (rest : String) :
    words (word ++ (written ++ rest)) = word :: words (tail ++ rest) := by
  rw [h, String.append_assoc]
  exact words_word hword rfl

/-- A decimal number. -/
def readNumber (text : String) : Option Nat :=
  if text.toList ≠ [] ∧ text.toList.all Char.isDigit then
    some (Nat.ofDigitChars 10 text.toList 0)
  else none

/-- The characters of a written number are digits. -/
theorem isDigit_of_mem_repr {number : Nat} {char : Char} (h : char ∈ number.repr.toList) :
    char.isDigit = true := by
  rw [Nat.repr_eq_ofList_toDigits, String.toList_ofList] at h
  exact Nat.isDigit_of_mem_toDigits (by decide) (by decide) h

/-- A written number has no blanks. -/
theorem blank_notMem_repr (number : Nat) : ' ' ∉ number.repr.toList := fun h ↦
  absurd (isDigit_of_mem_repr h) (by decide)

/-- A number is read as it was written. -/
theorem readNumber_repr (number : Nat) : readNumber number.repr = some number := by
  have hdigits : number.repr.toList.all Char.isDigit = true :=
    List.all_eq_true.mpr fun char hchar ↦ isDigit_of_mem_repr hchar
  have hne : number.repr.toList ≠ [] := by
    rw [Nat.repr_eq_ofList_toDigits, String.toList_ofList]
    exact Nat.toDigits_ne_nil
  rw [readNumber, if_pos ⟨hne, hdigits⟩, Nat.repr_eq_ofList_toDigits, String.toList_ofList,
    Nat.ofDigitChars_toDigits (by decide) (by decide)]

/-- A decimal number before a mark. -/
def readBefore (mark : Char) (text : String) : Option Nat :=
  if text.toList.getLast? = some mark then readNumber (String.ofList text.toList.dropLast)
  else none

/-- A decimal number after a mark. -/
def readAfter (mark : Char) (text : String) : Option Nat :=
  if text.toList.head? = some mark then readNumber (String.ofList text.toList.tail) else none

/-- A number before a mark is read as it was written. -/
theorem readBefore_repr (number : Nat) {mark : Char} {written : String}
    (hmark : written.toList = [mark]) : readBefore mark (number.repr ++ written) = some number := by
  rw [readBefore, String.toList_append, hmark, List.getLast?_concat, if_pos rfl,
    List.dropLast_concat, String.ofList_toList, readNumber_repr]

/-- A number after a mark is read as it was written. -/
theorem readAfter_repr (number : Nat) {mark : Char} {written : String}
    (hmark : written.toList = [mark]) : readAfter mark (written ++ number.repr) = some number := by
  rw [readAfter, String.toList_append, hmark, List.singleton_append, List.head?_cons, if_pos rfl,
    List.tail_cons, String.ofList_toList, readNumber_repr]

end Unbounded.Text
