import Mathlib.Algebra.GroupWithZero.Nat
import Mathlib.Data.List.Basic
import Mathlib.Data.Nat.Notation

/-!
# Text by byte offsets

A text is a list of characters; an offset into it counts the bytes of UTF-8. Slices at an offset
that lies between two characters are what stands before and after it (`fromByte_append`,
`uptoByte_append`). The line and the column of a place, in characters, are functions of what
stands before it (`lineOf`, `columnOf`).
-/

namespace SourceText

/-- How many bytes a text takes. -/
def bytes (text : List Char) : ℕ := (text.map Char.utf8Size).sum

/-- The text from an offset on. -/
def fromByte : List Char → ℕ → List Char
  | [], _ => []
  | c :: rest, offset => if offset = 0 then c :: rest else fromByte rest (offset - c.utf8Size)

/-- The text up to an offset. -/
def uptoByte : List Char → ℕ → List Char
  | [], _ => []
  | c :: rest, offset => if offset = 0 then [] else c :: uptoByte rest (offset - c.utf8Size)

variable {before after text : List Char}

@[simp]
theorem bytes_nil : bytes [] = 0 := rfl

@[simp]
theorem bytes_cons (c : Char) (rest : List Char) :
    bytes (c :: rest) = c.utf8Size + bytes rest := by simp [bytes]

@[simp]
theorem bytes_append (before after : List Char) :
    bytes (before ++ after) = bytes before + bytes after := by simp [bytes]

theorem bytes_ne_zero (c : Char) (rest : List Char) : bytes (c :: rest) ≠ 0 := by
  have hc := c.utf8Size_pos
  rw [bytes_cons]
  omega

theorem bytes_eq_zero_iff : bytes text = 0 ↔ text = [] := by
  cases text with
  | nil => simp
  | cons c rest => exact iff_of_false (bytes_ne_zero c rest) (List.cons_ne_nil c rest)

theorem bytes_replicate {c : Char} (h : c.utf8Size = 1) (n : ℕ) :
    bytes (List.replicate n c) = n := by
  simp [bytes, h]

@[simp]
theorem fromByte_zero (text : List Char) : fromByte text 0 = text := by
  cases text <;> simp [fromByte]

@[simp]
theorem fromByte_append (before after : List Char) :
    fromByte (before ++ after) (bytes before) = after := by
  induction before with
  | nil => exact fromByte_zero after
  | cons c rest ih =>
    rw [List.cons_append, fromByte, if_neg (bytes_ne_zero c rest), bytes_cons,
      Nat.add_sub_cancel_left, ih]

@[simp]
theorem uptoByte_append (before after : List Char) :
    uptoByte (before ++ after) (bytes before) = before := by
  induction before with
  | nil => cases after <;> simp [uptoByte]
  | cons c rest ih =>
    rw [List.cons_append, uptoByte, if_neg (bytes_ne_zero c rest), bytes_cons,
      Nat.add_sub_cancel_left, ih]

/-! ### Lines and columns -/

/-- The line of what comes after a text, counted from one. -/
def lineOf (before : List Char) : ℕ := 1 + before.count '\n'

/-- The characters since the last line feed. -/
def sinceLine (before : List Char) : List Char := (before.reverse.takeWhile (· ≠ '\n')).reverse

/-- The column of what comes after a text, in characters and counted from one. -/
def columnOf (before : List Char) : ℕ := 1 + (sinceLine before).length

/-- Nothing comes before on the same line. -/
def AtLineStart (before : List Char) : Prop := before = [] ∨ before.getLast? = some '\n'

theorem lineOf_append (before after : List Char) :
    lineOf (before ++ after) = lineOf before + after.count '\n' := by
  rw [lineOf, lineOf, List.count_append, Nat.add_assoc]

/-- Within a line that starts where `before` ends, the column counts the characters of the line. -/
theorem columnOf_append (hstart : AtLineStart before) (hline : '\n' ∉ after) :
    columnOf (before ++ after) = 1 + after.length := by
  have htake : ((before ++ after).reverse.takeWhile (· ≠ '\n')) = after.reverse := by
    rw [List.reverse_append, List.takeWhile_append_of_pos fun c hc => by
      simpa using fun h : c = '\n' => hline (h ▸ List.mem_reverse.mp hc)]
    rcases hstart with rfl | hlast
    · simp
    · obtain ⟨rest, rfl⟩ := List.getLast?_eq_some_iff.mp hlast
      simp
  rw [columnOf, sinceLine, htake, List.reverse_reverse]

/-- A text goes from a line's start on by what came since the last line feed. -/
theorem exists_lineStart (text : List Char) :
    ∃ head, text = head ++ sinceLine text ∧ AtLineStart head ∧ '\n' ∉ sinceLine text := by
  have hspl := List.takeWhile_append_dropWhile (p := (· ≠ '\n')) (l := text.reverse)
  refine ⟨(text.reverse.dropWhile (· ≠ '\n')).reverse, ?_, ?_, ?_⟩
  · rw [sinceLine, ← List.reverse_append, hspl, List.reverse_reverse]
  · rcases hdrop : text.reverse.dropWhile (· ≠ '\n') with _ | ⟨ch, rest⟩
    · exact .inl rfl
    · have hch := List.head?_dropWhile_not (· ≠ '\n') text.reverse
      rw [hdrop] at hch
      exact .inr (by simpa using hch)
  · intro hmem
    have := List.all_takeWhile (p := (· ≠ '\n')) (l := text.reverse)
    simpa using List.all_eq_true.mp this _ (List.mem_reverse.mp hmem)

/-- What comes up to the first line feed, and the rest. -/
theorem exists_lineEnd (text : List Char) : ∃ line tail, text = line ++ tail ∧ '\n' ∉ line ∧
    text.takeWhile (· ≠ '\n') = line ∧ (tail = [] ∨ ∃ rest, tail = '\n' :: rest) := by
  induction text with
  | nil => exact ⟨[], [], by simp⟩
  | cons ch text ih =>
    obtain rfl | hch := eq_or_ne ch '\n'
    · exact ⟨[], '\n' :: text, by simp⟩
    · obtain ⟨line, tail, rfl, hline, htake, htail⟩ := ih
      refine ⟨ch :: line, tail, rfl, ?_, ?_, htail⟩
      · simpa using ⟨hch.symm, hline⟩
      · rw [List.takeWhile_cons_of_pos (by simpa using hch), htake]

end SourceText
