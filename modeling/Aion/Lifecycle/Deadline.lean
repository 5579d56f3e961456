import Aion.Durability.Recorder
import Aion.Lifecycle.Transitions

/-!
# The deadline timer of a run

A run with a declared timeout has a timer of its own, named after it (`time/deadline.rs`).
Whether it is outstanding is read off the history, and every terminal writer retires it by one
operation, `retireRunDeadline`.

Reading the run back from the name of a timer is `Uuid::parse_str` of the `uuid` crate, which
is a parameter here.
-/

namespace Aion

/-- The prefix that marks a deadline's timer. -/
def deadlineTimerPrefix : String := "deadline:"

/-- The token recorded on the terminal of an elapsed deadline. -/
def workflowTimeoutDescriptor : String := "workflow"

/-- `deadline_timer_id`. -/
def deadlineTimerId (run : RunId) : TimerId := .named (deadlineTimerPrefix ++ run.display)

/-- `is_deadline_timer`. -/
def isDeadlineTimer : TimerId → Bool
  | .named name => deadlineTimerPrefix.toList.isPrefixOf name.toList
  | .anonymous _ => false

section Deadline

variable (parseUuid : String → Option Uuid)

/-- `deadline_run_id`. -/
def deadlineRunId : TimerId → Option RunId
  | .named name =>
    if deadlineTimerPrefix.toList.isPrefixOf name.toList then
      (parseUuid (String.ofList (name.toList.drop deadlineTimerPrefix.length))).map RunId.mk
    else none
  | .anonymous _ => none

/-- What a timer event does to the run's deadline: arms it, or retires it. -/
def deadlineMark (run : RunId) (event : Event) : Option (Option TimerId) :=
  match event.body with
  | .timerStarted timerId _ =>
    if isDeadlineTimer timerId && deadlineRunId parseUuid timerId = some run then
      some (some timerId)
    else none
  | .timerFired timerId => if isDeadlineTimer timerId && deadlineRunId parseUuid timerId = some run then some none else none
  | .timerCancelled timerId _ =>
    if isDeadlineTimer timerId && deadlineRunId parseUuid timerId = some run then some none
    else none
  | _ => none

/-- `outstanding_deadline_timer`: the last event of the run's deadline decides. -/
def outstandingDeadlineTimer (history : List Event) (run : RunId) : Option TimerId :=
  (Scan.newest (deadlineMark parseUuid run) history).join

/-- `retire_run_deadline`. -/
def retireRunDeadline (now : Instant) (history : List Event) (run : RunId) : RecorderM Unit :=
  match outstandingDeadlineTimer parseUuid history run with
  | some deadlineId => recordTimerCancelled now deadlineId .workflowIntent
  | none => return ()

end Deadline

end Aion
