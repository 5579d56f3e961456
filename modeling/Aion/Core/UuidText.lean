import Aion.Core.Event
import Mathlib.Data.Nat.Digits.Defs

/-!
# A UUID from its text

The hyphenated text of a UUID (`Uuid.display`) is read back digit by digit (`Uuid.ofText`). With
that, a text is a canonical one just when it is the text of what is read from it.
-/

namespace Aion

/-- The value of a hexadecimal digit. -/
def hexDigit (c : Char) : ℕ := if c.isDigit then c.toNat - 48 else c.toNat - 87

/-- The number some hexadecimal digits stand for. -/
def hexValue (digits : List Char) : ℕ := digits.foldl (fun value c => 16 * value + hexDigit c) 0

theorem hexDigit_digitChar :
    ∀ d < 16, hexDigit (Nat.digitChar d) = d ∧ Nat.digitChar d ≠ '-' := by decide

theorem hexValue_concat (digits : List Char) (c : Char) :
    hexValue (digits ++ [c]) = 16 * hexValue digits + hexDigit c := by
  rw [hexValue, List.foldl_append]
  rfl

theorem hexValue_toDigits (n : ℕ) : hexValue (Nat.toDigits 16 n) = n := by
  induction n using Nat.strongRecOn with
  | ind n ih =>
    rw [Nat.toDigits_eq_if (by decide)]
    split
    · simp [hexValue, hexDigit_digitChar n ‹_›]
    · rw [hexValue_concat, ih (n / 16) (by omega), (hexDigit_digitChar (n % 16) (by omega)).1]
      omega

theorem ne_hyphen_of_mem_toDigits {n : ℕ} {c : Char} (h : c ∈ Nat.toDigits 16 n) : c ≠ '-' := by
  induction n using Nat.strongRecOn with
  | ind n ih =>
    rw [Nat.toDigits_eq_if (by decide)] at h
    split at h
    · obtain rfl := List.mem_singleton.mp h
      exact (hexDigit_digitChar n ‹_›).2
    · rcases List.mem_append.mp h with h | h
      · exact ih (n / 16) (by omega) h
      · obtain rfl := List.mem_singleton.mp h
        exact (hexDigit_digitChar (n % 16) (by omega)).2

theorem hexValue_replicate_zero (count : ℕ) (digits : List Char) :
    hexValue (List.replicate count '0' ++ digits) = hexValue digits := by
  induction count with
  | zero => rfl
  | succ count ih => exact ih

/-- The digits of a UUID, from its text. -/
theorem filter_display (u : Uuid) :
    u.display.toList.filter (· ≠ '-') =
      List.replicate (32 - (Nat.toDigits 16 u.toNat).length) '0' ++ Nat.toDigits 16 u.toNat := by
  have hdigits : (Nat.toDigits 16 u.toNat).length ≤ 32 :=
    (Nat.length_toDigits_le_iff (by decide) (by decide)).mpr u.isLt
  unfold Uuid.display
  dsimp only
  generalize hpadded : List.replicate (32 - (Nat.toDigits 16 u.toNat).length) '0' ++
    Nat.toDigits 16 u.toNat = padded
  have hlen : padded.length = 32 := by
    rw [← hpadded, List.length_append, List.length_replicate]
    omega
  have hplain : ∀ c ∈ padded, c ≠ '-' := by
    intro c hc
    rw [← hpadded] at hc
    rcases List.mem_append.mp hc with hc | hc
    · rw [List.eq_of_mem_replicate hc]
      decide
    · exact ne_hyphen_of_mem_toDigits hc
  have hpart : ∀ start count, ((padded.drop start).take count).filter (· ≠ '-') =
    (padded.drop start).take count :=
    fun start count => List.filter_eq_self.mpr fun c hc => by
      simpa using hplain c (List.mem_of_mem_drop (List.mem_of_mem_take hc))
  have hlist : (String.intercalate "-" [String.ofList ((padded.drop 0).take 8),
      String.ofList ((padded.drop 8).take 4),
      String.ofList ((padded.drop 12).take 4), String.ofList ((padded.drop 16).take 4),
      String.ofList ((padded.drop 20).take 12)]).toList =
      (padded.drop 0).take 8 ++ '-' :: ((padded.drop 8).take 4 ++ '-' :: ((padded.drop 12).take 4 ++
        '-' :: ((padded.drop 16).take 4 ++ '-' :: (padded.drop 20).take 12))) := by
    simp
  rw [hlist]
  simp only [List.filter_append, List.filter_cons, hpart]
  have hspl : ∀ start count, (padded.drop start).take count ++ padded.drop (start + count) =
    padded.drop start :=
    fun start count => by rw [← List.drop_drop, List.take_append_drop]
  have hend : (padded.drop 20).take 12 = padded.drop 20 := by
    rw [List.take_of_length_le]
    rw [List.length_drop]
    omega
  simp [hend, hspl 16 4, hspl 12 4, hspl 8 4]

/-- A UUID from its text. -/
def Uuid.ofText (text : String) : Uuid := BitVec.ofNat 128 (hexValue (text.toList.filter (· ≠ '-')))

theorem Uuid.ofText_display (u : Uuid) : Uuid.ofText u.display = u := by
  rw [Uuid.ofText, filter_display, hexValue_replicate_zero, hexValue_toDigits]
  exact BitVec.ofNat_toNat 128 u

/-- `Uuid::parse_str` of a hyphenated lowercase text. -/
def Uuid.parseHyphenated (text : String) : Option Uuid :=
  if (Uuid.ofText text).display = text then some (Uuid.ofText text) else none

theorem Uuid.parseHyphenated_display (u : Uuid) : Uuid.parseHyphenated u.display = some u := by
  rw [Uuid.parseHyphenated, Uuid.ofText_display, if_pos rfl]

end Aion
