import Mathlib.Data.List.Lex
import Mathlib.Data.Nat.Find
import Mathlib.Data.String.Basic
import Mathlib.Tactic.Ring

/-!
# Instants as RFC 3339 text

An instant is an integer number of nanoseconds since 1970-01-01T00:00:00Z. Its text has
the date in the proleptic Gregorian calendar, the time of day and nine digits of a
second: `YYYY-MM-DDThh:mm:ss.nnnnnnnnnZ`. A year outside 0 to 9999 is written with its
sign and as many digits as it takes.

Within the years 0 to 9999 every text has the same layout, so texts compare as the
instants do (`toText_le_iff`), and no other instant has one of these texts
(`eq_of_toText_eq`). The proof goes through the fields: texts of one layout
compare as their fields (`text_lt_text`), and the fields as the instants (`fields_lt`).
-/

namespace Rfc3339

/-! ### Texts of fixed width -/

/-- The last `width` decimal digits of `n`. -/
def digits : ℕ → ℕ → List Char
  | 0, _ => []
  | width + 1, n => digits width (n / 10) ++ [Nat.digitChar (n % 10)]

@[simp]
theorem length_digits (width n : ℕ) : (digits width n).length = width := by
  induction width generalizing n with
  | zero => rfl
  | succ width ih => simp [digits, ih]

/-- Lists that begin with parts of one length compare by these first. -/
theorem append_lt_append {α : Type*} [LT α] {as bs cs ds : List α} (hlen : as.length = bs.length)
    (h : as < bs ∨ as = bs ∧ cs < ds) : as ++ cs < bs ++ ds := by
  induction as generalizing bs with
  | nil =>
    obtain rfl : bs = [] := List.length_eq_zero_iff.mp hlen.symm
    simpa using h
  | cons a as ih =>
    cases bs with
    | nil => simp at hlen
    | cons b bs =>
      rw [List.cons_append, List.cons_append, List.cons_lt_cons_iff]
      rcases h with h | ⟨h, hrest⟩
      · rcases List.cons_lt_cons_iff.mp h with hab | ⟨hab, hlt⟩
        · exact .inl hab
        · exact .inr ⟨hab, ih (by simpa using hlen) (.inl hlt)⟩
      · obtain ⟨hab, heq⟩ := List.cons.inj h
        exact .inr ⟨hab, ih (by simpa using hlen) (.inr ⟨heq, hrest⟩)⟩

theorem digitChar_lt {a b : ℕ} (hab : a < b) (hb : b < 10) : Nat.digitChar a < Nat.digitChar b := by
  have hall : ∀ b < 10, ∀ a < b, Nat.digitChar a < Nat.digitChar b := by decide
  exact hall b hb a hab

/-- Numbers of one width compare as their digits. -/
theorem digits_lt_digits {width a b : ℕ} (hab : a < b) (hb : b < 10 ^ width) :
    digits width a < digits width b := by
  induction width generalizing a b with
  | zero => omega
  | succ width ih =>
    rw [digits, digits]
    refine append_lt_append (by simp) ?_
    rcases Nat.lt_or_ge (a / 10) (b / 10) with hlt | hge
    · have hb' : b / 10 < 10 ^ width := Nat.div_lt_of_lt_mul (by rwa [pow_succ, mul_comm] at hb)
      exact .inl (ih hlt hb')
    · have heq : a / 10 = b / 10 := by omega
      refine .inr ⟨by rw [heq], ?_⟩
      exact List.cons_lt_cons_iff.mpr (.inl (digitChar_lt (by omega) (by omega)))

/-- The fields of a layout, each with its width and the character after it. -/
def text : List (ℕ × Char) → List ℕ → List Char
  | (width, separator) :: layout, field :: fields =>
    digits width field ++ separator :: text layout fields
  | _, _ => []

/-- Every field has its width's number of digits at most. -/
def Fits (layout : List (ℕ × Char)) (fields : List ℕ) : Prop :=
  List.Forall₂ (fun column field => field < 10 ^ column.1) layout fields

/-- Texts of one layout compare as their fields. -/
theorem text_lt_text {layout : List (ℕ × Char)} {fs gs : List ℕ} (hf : Fits layout fs)
    (hg : Fits layout gs) (h : fs < gs) : text layout fs < text layout gs := by
  induction hf generalizing gs with
  | nil =>
    cases hg
    exact absurd h (lt_irrefl _)
  | @cons column f layout fs hfield hf ih =>
    cases hg with
    | @cons _ g _ gs hfield' hg =>
      rw [text, text]
      refine append_lt_append (by simp) ?_
      rcases List.cons_lt_cons_iff.mp h with hlt | ⟨rfl, hrest⟩
      · exact .inl (digits_lt_digits hlt hfield')
      · exact .inr ⟨rfl, List.cons_lt_cons_iff.mpr (.inr ⟨rfl, ih hg hrest⟩)⟩

/-! ### The calendar -/

/-- Days before a year of an era of 400 years, whose year 0 is a leap year. -/
def daysBeforeYear (year : ℕ) : ℕ :=
  365 * year + (year + 3) / 4 - (year + 99) / 100 + (year + 399) / 400

/-- The year is a leap year. -/
def isLeap (year : ℕ) : Bool := year % 4 == 0 && (year % 100 != 0 || year % 400 == 0)

/-- The lengths of the months. -/
def monthLengths (leap : Bool) : List ℕ :=
  [31, if leap then 29 else 28, 31, 30, 31, 30, 31, 31, 30, 31, 30, 31]

/-- Days before a month, counted from 0, of a year. -/
def daysBeforeMonth (leap : Bool) (month : ℕ) : ℕ := ((monthLengths leap).take month).sum

/-- The last of the parts `0, …, last` that starts at or before `n`, and how far into it
`n` is. -/
def split (start : ℕ → ℕ) (last n : ℕ) : ℕ × ℕ :=
  let part := Nat.findGreatest (fun part => start part ≤ n) last
  (part, n - start part)

variable {start : ℕ → ℕ} {last n : ℕ} {t s : ℤ}

/-- The part has begun. -/
theorem start_split_le (hzero : start 0 = 0) : start (split start last n).1 ≤ n := by
  have hfst : start 0 ≤ n := by
    rw [hzero]
    exact Nat.zero_le n
  exact Nat.findGreatest_spec (P := fun part => start part ≤ n) (Nat.zero_le last) hfst

/-- A later point is in a later part, or further into the same. -/
theorem split_lt {m : ℕ} (hzero : start 0 = 0) (h : m < n) :
    (split start last m).1 < (split start last n).1 ∨
      (split start last m).1 = (split start last n).1 ∧
        (split start last m).2 < (split start last n).2 := by
  have hle : (split start last m).1 ≤ (split start last n).1 :=
    Nat.findGreatest_mono_left (fun part hpart => le_trans hpart h.le) last
  rcases hle.lt_or_eq with hlt | heq
  · exact .inl hlt
  · refine .inr ⟨heq, ?_⟩
    have hstart : start (split start last m).1 ≤ m := start_split_le hzero
    change m - start (split start last m).1 < n - start (split start last n).1
    rw [← heq]
    omega

theorem split_fst_le (start : ℕ → ℕ) (last n : ℕ) : (split start last n).1 ≤ last :=
  Nat.findGreatest_le last

/-- The next part has not begun. -/
theorem lt_start_succ (hn : n < start (last + 1)) : n < start ((split start last n).1 + 1) := by
  rcases (split_fst_le start last n).lt_or_eq with hlt | heq
  · exact not_le.mp (Nat.findGreatest_is_greatest (P := fun part => start part ≤ n) (Nat.lt_succ_self _) hlt)
  · rw [heq]
    exact hn

/-- The year of its era that a day, counted from 0000-01-01, falls in, and the day of
that year. -/
def yearAndDay (day : ℤ) : ℕ × ℕ := split daysBeforeYear 399 (day % 146097).toNat

/-- The month, counted from 0, of a day of a year, and the day of that month. -/
def monthAndDay (yearAndDay : ℕ × ℕ) : ℕ × ℕ :=
  split (daysBeforeMonth (isLeap yearAndDay.1)) 11 yearAndDay.2

/-- The date of a day, counted from 0000-01-01: the year, and the month and the day of
the month counted from 0. -/
def civil (day : ℤ) : ℤ × ℕ × ℕ :=
  (400 * (day / 146097) + (yearAndDay day).1, monthAndDay (yearAndDay day))

/-- Day 0 of the Unix epoch, counted from 0000-01-01. -/
def epochDay : ℤ := 719528

/-- The day of an instant, counted from 0000-01-01, and the nanosecond of the day. -/
def dayAndNanos (instant : ℤ) : ℤ × ℕ :=
  (instant / 86400000000000 + epochDay, (instant % 86400000000000).toNat)

/-- Year, month and day. -/
def dateFields (date : ℤ × ℕ × ℕ) : List ℕ := [date.1.toNat, date.2.1 + 1, date.2.2 + 1]

/-- Hour, minute, second and nanosecond. -/
def timeFields (nanos : ℕ) : List ℕ :=
  [nanos / 3600000000000, nanos / 60000000000 % 60, nanos / 1000000000 % 60, nanos % 1000000000]

/-- The fields of an instant. -/
def fields (instant : ℤ) : List ℕ :=
  dateFields (civil (dayAndNanos instant).1) ++ timeFields (dayAndNanos instant).2

/-- The columns of the text. -/
def layout : List (ℕ × Char) :=
  [(4, '-'), (2, '-'), (2, 'T'), (2, ':'), (2, ':'), (2, '.'), (9, 'Z')]

/-- The year of an instant. -/
def year (instant : ℤ) : ℤ := (civil (dayAndNanos instant).1).1

/-- The instant lies in the years 0 to 9999. -/
def FourDigitYear (instant : ℤ) : Prop := 0 ≤ year instant ∧ year instant ≤ 9999

instance (instant : ℤ) : Decidable (FourDigitYear instant) := inferInstanceAs (Decidable (_ ∧ _))

/-- A year outside 0 to 9999: its sign and at least four digits. -/
def signedYear (year : ℤ) : List Char :=
  let shown := Nat.toDigits 10 year.natAbs
  (if year < 0 then '-' else '+') :: (List.replicate (4 - shown.length) '0' ++ shown)

/-! ### The order of the texts -/

@[simp]
theorem daysBeforeYear_zero : daysBeforeYear 0 = 0 := rfl

@[simp]
theorem daysBeforeMonth_zero (leap : Bool) : daysBeforeMonth leap 0 = 0 := rfl

/-- A year has 366 days at most. -/
theorem daysBeforeYear_succ_le (year : ℕ) :
    daysBeforeYear (year + 1) ≤ daysBeforeYear year + 366 := by
  unfold daysBeforeYear
  omega

/-- A month has 31 days at most, the last one taken to the end of the year. -/
theorem daysBeforeMonth_succ_le (leap : Bool) {month : ℕ} (h : month ≤ 11) :
    daysBeforeMonth leap (month + 1) ≤ daysBeforeMonth leap month + 31 := by
  have hall : ∀ leap, ∀ month < 12, daysBeforeMonth leap (month + 1) ≤ daysBeforeMonth leap month + 31 := by
    decide
  exact hall leap month (by omega)

/-- A later day has a later date. -/
theorem civil_lt {a b : ℤ} (h : a < b) :
    (civil a).1 < (civil b).1 ∨ (civil a).1 = (civil b).1 ∧
      ((civil a).2.1 < (civil b).2.1 ∨ (civil a).2.1 = (civil b).2.1 ∧
          (civil a).2.2 < (civil b).2.2) := by
  have hyear₁ : (yearAndDay a).1 ≤ 399 := split_fst_le _ _ _
  have hyear₂ : (yearAndDay b).1 ≤ 399 := split_fst_le _ _ _
  change 400 * (a / 146097) + ((yearAndDay a).1 : ℤ) < 400 * (b / 146097) + ((yearAndDay b).1 : ℤ) ∨
    400 * (a / 146097) + ((yearAndDay a).1 : ℤ) = 400 * (b / 146097) + ((yearAndDay b).1 : ℤ) ∧ _
  rcases lt_or_ge (a / 146097) (b / 146097) with hera | hera
  · exact .inl (by omega)
  · -- Within one era the days compare as the days of the era do.
    have heq : a / 146097 = b / 146097 := by omega
    have hday : (a % 146097).toNat < (b % 146097).toNat := by omega
    have hspl : (yearAndDay a).1 < (yearAndDay b).1 ∨
        (yearAndDay a).1 = (yearAndDay b).1 ∧ (yearAndDay a).2 < (yearAndDay b).2 :=
      split_lt daysBeforeYear_zero hday
    rcases hspl with hyear | ⟨hyear, hrest⟩
    · exact .inl (by omega)
    · refine .inr ⟨by omega, ?_⟩
      change (monthAndDay (yearAndDay a)).1 < (monthAndDay (yearAndDay b)).1 ∨
        (monthAndDay (yearAndDay a)).1 = (monthAndDay (yearAndDay b)).1 ∧
          (monthAndDay (yearAndDay a)).2 < (monthAndDay (yearAndDay b)).2
      rw [monthAndDay, monthAndDay, hyear]
      exact split_lt (daysBeforeMonth_zero _) hrest

/-- The day of a year is one of 366. -/
theorem yearAndDay_snd_lt (day : ℤ) : (yearAndDay day).2 < 366 := by
  have hera : (day % 146097).toNat < daysBeforeYear (399 + 1) := by
    have hdays : daysBeforeYear (399 + 1) = 146097 := rfl
    omega
  have hstart : daysBeforeYear (yearAndDay day).1 ≤ (day % 146097).toNat :=
    start_split_le daysBeforeYear_zero
  have hnext : (day % 146097).toNat < daysBeforeYear ((yearAndDay day).1 + 1) := lt_start_succ hera
  have hlen := daysBeforeYear_succ_le (yearAndDay day).1
  change (day % 146097).toNat - daysBeforeYear (yearAndDay day).1 < 366
  omega

/-- The day of a month is one of 32: the last month is not cut off where the year ends. -/
theorem monthAndDay_snd_lt (day : ℤ) : (monthAndDay (yearAndDay day)).2 < 32 := by
  have hday := yearAndDay_snd_lt day
  generalize yearAndDay day = split at hday ⊢
  obtain ⟨year, dayOfYear⟩ := split
  have hstart : daysBeforeMonth (isLeap year) (monthAndDay (year, dayOfYear)).1 ≤ dayOfYear :=
    start_split_le (daysBeforeMonth_zero _)
  have hlast : ∀ leap, 334 ≤ daysBeforeMonth leap 11 := by decide
  change dayOfYear - daysBeforeMonth (isLeap year) (monthAndDay (year, dayOfYear)).1 < 32
  have hmonth : (monthAndDay (year, dayOfYear)).1 ≤ 11 := split_fst_le _ _ _
  rcases hmonth.lt_or_eq with hlt | heq
  · have hnext : ¬ daysBeforeMonth (isLeap year) ((monthAndDay (year, dayOfYear)).1 + 1) ≤
      dayOfYear :=
      Nat.findGreatest_is_greatest (P := fun month => daysBeforeMonth (isLeap year) month ≤ dayOfYear)
        (Nat.lt_succ_self _) hlt
    have hlen := daysBeforeMonth_succ_le (isLeap year) hmonth
    omega
  · have hbef := hlast (isLeap year)
    rw [heq] at hstart ⊢
    omega

/-- In the years 0 to 9999 every field has its column's width. -/
theorem fits_fields {instant : ℤ} (h : FourDigitYear instant) : Fits layout (fields instant) := by
  obtain ⟨hpos, hle⟩ := h
  have hmonth : (monthAndDay (yearAndDay (dayAndNanos instant).1)).1 ≤ 11 := split_fst_le _ _ _
  have hday := monthAndDay_snd_lt (dayAndNanos instant).1
  have hnanos : (dayAndNanos instant).2 < 86400000000000 := by
    change (instant % 86400000000000).toNat < _
    omega
  refine .cons ?_ (.cons ?_ (.cons ?_ (.cons ?_ (.cons ?_ (.cons ?_ (.cons ?_ .nil))))))
  · change (year instant).toNat < 10 ^ 4
    omega
  · change (monthAndDay (yearAndDay (dayAndNanos instant).1)).1 + 1 < 10 ^ 2
    omega
  · change (monthAndDay (yearAndDay (dayAndNanos instant).1)).2 + 1 < 10 ^ 2
    omega
  · change (dayAndNanos instant).2 / 3600000000000 < 10 ^ 2
    omega
  · change (dayAndNanos instant).2 / 60000000000 % 60 < 10 ^ 2
    omega
  · change (dayAndNanos instant).2 / 1000000000 % 60 < 10 ^ 2
    omega
  · change (dayAndNanos instant).2 % 1000000000 < 10 ^ 9
    omega

theorem dateFields_lt {a b : ℤ} (hpos : 0 ≤ (civil a).1) (h : a < b) :
    dateFields (civil a) < dateFields (civil b) := by
  simp only [dateFields, List.cons_lt_cons_iff]
  rcases civil_lt h with hyear | ⟨hyear, hmonth | ⟨hmonth, hday⟩⟩
  · exact .inl (by omega)
  · exact .inr ⟨by rw [hyear], .inl (by omega)⟩
  · exact .inr ⟨by rw [hyear], .inr ⟨by rw [hmonth], .inl (by omega)⟩⟩

theorem timeFields_lt {m : ℕ} (h : m < n) : timeFields m < timeFields n := by
  simp only [timeFields, List.cons_lt_cons_iff]
  omega

/-- A later instant has later fields. -/
theorem fields_lt (hs : FourDigitYear s) (h : s < t) : fields s < fields t := by
  have hpos : 0 ≤ (civil (dayAndNanos s).1).1 := hs.1
  rw [fields, fields]
  refine append_lt_append (by simp [dateFields]) ?_
  rcases lt_or_ge (dayAndNanos s).1 (dayAndNanos t).1 with hday | hday
  · exact .inl (dateFields_lt hpos hday)
  · simp only [dayAndNanos] at hday ⊢
    have hsame : s / 86400000000000 = t / 86400000000000 := by omega
    rw [hsame]
    exact .inr ⟨rfl, timeFields_lt (by omega)⟩

/-- The text of an instant. -/
def toText (instant : ℤ) : String :=
  if FourDigitYear instant then String.ofList (text layout (fields instant))
  else String.ofList (signedYear (year instant) ++ '-' :: text layout.tail (fields instant).tail)

theorem toText_lt (hs : FourDigitYear s) (ht : FourDigitYear t) (h : s < t) :
    toText s < toText t := by
  rw [toText, toText, if_pos hs, if_pos ht, String.lt_iff_toList_lt, String.toList_ofList,
    String.toList_ofList]
  exact text_lt_text (fits_fields hs) (fits_fields ht) (fields_lt hs h)

/-- **Texts compare as instants**: in the years 0 to 9999. -/
theorem toText_le_iff (hs : FourDigitYear s) (ht : FourDigitYear t) :
    toText s ≤ toText t ↔ s ≤ t := by
  constructor
  · intro h
    by_contra hlt
    exact absurd (toText_lt ht hs (not_le.mp hlt)) (not_lt.mpr h)
  · intro h
    rcases h.lt_or_eq with hlt | rfl
    · exact (toText_lt hs ht hlt).le
    · exact le_refl _

theorem toText_lt_iff (hs : FourDigitYear s) (ht : FourDigitYear t) :
    toText s < toText t ↔ s < t := by
  rw [← not_le, ← not_le, toText_le_iff ht hs]

example : toText 1700000000123456789 = "2023-11-14T22:13:20.123456789Z" := by decide +kernel

theorem lt_digitChar (hn : n < 10) : '-' < Nat.digitChar n ∧ '+' < Nat.digitChar n := by
  decide +revert

/-- The text of a year of four digits begins with a digit. -/
theorem head_toText (ht : FourDigitYear t) :
    ∃ n < 10, ∃ rest, (toText t).toList = Nat.digitChar n :: rest := by
  rw [toText, if_pos ht, String.toList_ofList]
  exact ⟨_, Nat.mod_lt _ (by decide), _, rfl⟩

/-- **The texts of other years come first**: a sign is below every digit. -/
theorem toText_lt_of_not_fourDigitYear (hs : ¬ FourDigitYear s) (ht : FourDigitYear t) :
    toText s < toText t := by
  obtain ⟨n, hn, rest, hhead⟩ := head_toText ht
  obtain ⟨hminus, hplus⟩ := lt_digitChar hn
  rw [String.lt_iff_toList_lt, hhead, toText, if_neg hs, String.toList_ofList, signedYear,
    List.cons_append]
  refine List.cons_lt_cons_iff.mpr (.inl ?_)
  split
  · exact hminus
  · exact hplus

/-- **The text of an instant in the years 0 to 9999 is that of no other.** -/
theorem eq_of_toText_eq (ht : FourDigitYear t) (h : toText s = toText t) : s = t := by
  by_cases hs : FourDigitYear s
  · exact le_antisymm ((toText_le_iff hs ht).mp h.le) ((toText_le_iff ht hs).mp h.ge)
  · exact absurd h (toText_lt_of_not_fourDigitYear hs ht).ne

end Rfc3339
