import Aion.Library.Result
import Aion.Library.Rfc3339
import Aion.Time.TimerService

/-!
# Which timers a backend takes to be expired

`expired_timers` of the in-memory and of the haematite backend compares instants. The libSQL
backend keeps `fire_at` as RFC 3339 text and compares texts (`aion-store-libsql/src/timer.rs`), and
the text of a year above 9999 begins with a sign. So with such an instant to ask for, it returns no
timer of the years 0 to 9999 (`libSql_due_eq_false`).
-/

namespace Aion

/-- The rows of the timer table. -/
abbrev TimerRows := AList fun _ : TimerKey => Instant

/-- The timer table of a backend, as far as it is asked for what has expired. -/
structure TimerBackend where
  /-- Whether a timer that fires at an instant has expired as of another. -/
  due : (fireAt asOf : Instant) → Bool
  /-- `expired_timers`. -/
  expiredTimers : TimerRows → (asOf : Instant) → Except StoreError (List TimerEntry)
  /-- An answer holds the timers that have expired and no others. -/
  mem_iff : ∀ {rows asOf entries}, expiredTimers rows asOf = .ok entries → ∀ key : TimerKey,
    (∃ entry ∈ entries, (entry.workflowId, entry.timerId) = key) ↔
      ∃ row ∈ rows.entries, row.1 = key ∧ due row.2 asOf = true

namespace TimerBackend

/-- The in-memory and the haematite backend. -/
def byInstant : TimerBackend where
  due fireAt asOf := fireAt ≤ asOf
  expiredTimers rows asOf := .ok ({ TimerWorld.empty with timers := rows }.expiredTimers asOf)
  mem_iff := by
    rintro rows asOf _ ⟨⟩ key
    simp only [TimerWorld.expiredTimers, List.mem_insertionSort, List.mem_filter, List.mem_map,
      decide_eq_true_eq]
    constructor
    · rintro ⟨_, ⟨⟨row, hrow, rfl⟩, hdue⟩, hkey⟩
      exact ⟨row, hrow, hkey, hdue⟩
    · rintro ⟨row, hrow, hkey, hdue⟩
      exact ⟨_, ⟨⟨row, hrow, rfl⟩, hdue⟩, hkey⟩

/-! ### libSQL -/

/-- `encode_fire_at`. -/
def encodeFireAt (fireAt : Instant) : String := Rfc3339.toText fireAt

/-- By the texts of `fire_at`, `workflow_id` and `timer_id`. -/
def textOrder (encodeTimerId : TimerId → String) (left right : Sigma fun _ : TimerKey => Instant) :
    Bool :=
  decide (encodeFireAt left.2 < encodeFireAt right.2) ||
    encodeFireAt left.2 == encodeFireAt right.2 && (decide (left.1.1.display < right.1.1.display) ||
      left.1.1.display == right.1.1.display && decide (encodeTimerId left.1.2 ≤ encodeTimerId right.1.2))

/-- A row read back. -/
def decodeRow (parseFromRfc3339 : String → Except String Instant)
    (row : Sigma fun _ : TimerKey => Instant) : Except StoreError TimerEntry := do
  let fireAt ← (parseFromRfc3339 (encodeFireAt row.2)).mapError .serialization
  return ⟨row.1.1, row.1.2, fireAt⟩

variable {parseFromRfc3339 : String → Except String Instant}

theorem key_of_decodeRow {row : Sigma fun _ : TimerKey => Instant} {entry : TimerEntry}
    (h : decodeRow parseFromRfc3339 row = .ok entry) :
    (entry.workflowId, entry.timerId) = row.1 := by
  obtain ⟨fireAt, -, hent⟩ := Result.bind_eq_ok h
  cases hent
  rfl

/-- The libSQL backend; the parser of instants and the JSON of timer ids are those of its
libraries. -/
def libSql (parseFromRfc3339 : String → Except String Instant) (encodeTimerId : TimerId → String) :
    TimerBackend where
  due fireAt asOf := encodeFireAt fireAt ≤ encodeFireAt asOf
  expiredTimers rows asOf :=
    ((rows.entries.filter fun row => encodeFireAt row.2 ≤ encodeFireAt asOf).insertionSort
      fun left right => textOrder encodeTimerId left right).mapM (decodeRow parseFromRfc3339)
  mem_iff := by
    intro rows asOf entries h key
    have hmem : ∀ row, row ∈ ((rows.entries.filter fun row => encodeFireAt row.2 ≤ encodeFireAt asOf).insertionSort
        fun left right => textOrder encodeTimerId left right) ↔
        row ∈ rows.entries ∧ decide (encodeFireAt row.2 ≤ encodeFireAt asOf) = true := fun row => by
      rw [List.mem_insertionSort, List.mem_filter]
    constructor
    · rintro ⟨entry, hent, rfl⟩
      obtain ⟨row, hrow, hdecd⟩ := Result.mem_of_mapM_eq_ok h hent
      obtain ⟨hrow, hdue⟩ := (hmem row).mp hrow
      exact ⟨row, hrow, (key_of_decodeRow hdecd).symm, hdue⟩
    · rintro ⟨row, hrow, rfl, hdue⟩
      obtain ⟨entry, hent, hdecd⟩ := Result.exists_of_mapM_eq_ok h ((hmem row).mpr ⟨hrow, hdue⟩)
      exact ⟨entry, hent, key_of_decodeRow hdecd⟩

/-- As of an instant in a year above 9999, no timer in the years 0 to 9999 has expired. -/
theorem libSql_due_eq_false {encodeTimerId : TimerId → String} {fireAt asOf : Instant}
    (hfireAt : Rfc3339.FourDigitYear fireAt) (hasOf : ¬ Rfc3339.FourDigitYear asOf) :
    (libSql parseFromRfc3339 encodeTimerId).due fireAt asOf = false :=
  decide_eq_false (Rfc3339.toText_lt_of_not_fourDigitYear hasOf hfireAt).not_ge

end TimerBackend

end Aion
