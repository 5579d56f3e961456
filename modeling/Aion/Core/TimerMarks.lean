import Aion.Core.Event
import Aion.Library.LastWins

/-!
# What history says of a timer

Three events speak of a timer: its start, its fire and its cancellation. Which of them is the last
decides what becomes of the timer on a restart, a reopen or a continue.
-/

namespace Aion

open Scan

/-- What an event says of a timer. -/
inductive TimerMark where
  /-- It was started, for this instant. -/
  | started (fireAt : Instant)
  /-- It fired. -/
  | fired
  /-- It was cancelled. -/
  | cancelled (cause : TimerCancelCause)
  deriving DecidableEq

/-- What the event says of the timer, if anything. -/
def timerMark? (timerId : TimerId) (event : Event) : Option TimerMark :=
  match event.body with
  | .timerStarted started fireAt => if started = timerId then some (.started fireAt) else none
  | .timerFired fired => if fired = timerId then some .fired else none
  | .timerCancelled cancelled cause => if cancelled = timerId then some (.cancelled cause) else none
  | _ => none

/-- The instant the event starts the timer for. -/
def startedFor? (timerId : TimerId) (event : Event) : Option Instant :=
  match event.body with
  | .timerStarted started fireAt => if started = timerId then some fireAt else none
  | _ => none

variable {timerId : TimerId} {event : Event} {events : List Event} {fireAt : Instant}

theorem timerMark?_eq_started_iff :
    timerMark? timerId event = some (.started fireAt) ↔
      startedFor? timerId event = some fireAt := by
  obtain ⟨envelope, body⟩ := event
  cases body <;> simp [timerMark?, startedFor?]

/-- The last mark of a timer is a start when no later event speaks of it. -/
theorem newest_startedFor?_of_started
    (h : newest (timerMark? timerId) events = some (.started fireAt)) :
    newest (startedFor? timerId) events = some fireAt := by
  obtain ⟨before, event, after, rfl, hmark, hafter⟩ := newest_eq_some_iff.mp h
  refine newest_eq_some_iff.mpr ⟨before, event, after, rfl, timerMark?_eq_started_iff.mp hmark,
      fun later hlat => ?_⟩
  cases hstrt : startedFor? timerId later with
  | none => rfl
  | some fireAt =>
    have := hafter later hlat
    rw [timerMark?_eq_started_iff.mpr hstrt] at this
    cases this

end Aion
