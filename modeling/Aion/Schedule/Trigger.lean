import Aion.Core.Event
import Aion.Library.Result

/-!
# Triggers and schedule policies

When a trigger fires next (`trigger.rs`), what a tick does while an execution is running
and which missed ticks a recovery fires (`policy.rs`). A trigger fires strictly after the
instant it is asked about (`lt_of_nextFireTime`), so the catch-up loops end, and they fire
nothing before the tick they begin with (`le_of_mem_fireTimes`).
-/

namespace Aion.Schedule

/-! ### Triggers -/

/-- Errors of triggers. -/
inductive ScheduleError where
  /-- The expression is blank. -/
  | emptyCronExpression
  /-- The expression is not a cron expression. -/
  | cronParse (expression source : String)
  /-- The expression matches no later instant. -/
  | noNextFireTime (expression : String)
  /-- The period is zero. -/
  | zeroInterval
  /-- The period is longer than a `chrono` duration. -/
  | intervalOutOfRange
  /-- The next instant is later than any. -/
  | nextFireTimeOutOfRange
  deriving DecidableEq

/-- What the triggers take from `saffron` and `chrono`. -/
structure TimeLibrary (Cron : Type) where
  /-- `saffron::Cron::from_str`. -/
  fromStr : String → Except String Cron
  /-- `Cron::next_after`: the next match, strictly after an instant. -/
  nextAfter : Cron → (after : Instant) → Option { next : Instant // after < next }
  /-- The longest `chrono::Duration`, in nanoseconds. -/
  longest : ℕ
  /-- `DateTime::<Utc>::MAX_UTC`. -/
  latest : Instant

/-- `char::is_whitespace`. -/
def isWhitespace (c : Char) : Bool :=
  let code := c.toNat
  (9 ≤ code && code ≤ 13) || code == 0x20 || code == 0x85 || code == 0xA0 || code == 0x1680 ||
    (0x2000 ≤ code && code ≤ 0x200A) || code == 0x2028 || code == 0x2029 || code ==
      0x202F || code == 0x205F ||
    code == 0x3000

/-- `str::trim`. -/
def trim (text : String) : String :=
  String.ofList ((text.toList.dropWhile isWhitespace).reverse.dropWhile isWhitespace).reverse

variable {Cron : Type} (library : TimeLibrary Cron)

/-- `parse_cron_expression`. -/
def parseCronExpression (expression : String) : Except ScheduleError Cron :=
  let expression := trim expression
  if expression.isEmpty then .error .emptyCronExpression
  else (library.fromStr expression).mapError (.cronParse expression)

/-- `next_fire_time`. -/
def nextFireTime (trigger : TriggerSpec) (after : Instant) : Except ScheduleError Instant :=
  match trigger with
  | .cron expression =>
    match parseCronExpression library expression with
    | .error error => .error error
    | .ok cron =>
      match library.nextAfter cron after with
      | none => .error (.noNextFireTime (trim expression))
      | some next => .ok next.1
  | .interval period =>
    if period = 0 then .error .zeroInterval
    else if library.longest < period then .error .intervalOutOfRange
    else if library.latest < after + period then .error .nextFireTimeOutOfRange
    else .ok (after + period)

variable {library} {trigger : TriggerSpec}

/-- **A trigger fires strictly after the instant it is asked about.** -/
theorem lt_of_nextFireTime {after next : Instant}
    (h : nextFireTime library trigger after = .ok next) : after < next := by
  cases trigger with
  | cron expression =>
    simp only [nextFireTime] at h
    split at h
    · cases h
    · split at h
      · cases h
      · rename_i found _
        cases h
        exact found.2
  | interval period =>
    simp only [nextFireTime] at h
    split_ifs at h with hzero hlong hlate
    cases h
    exact Int.lt_add_of_pos_right after (by omega)

/-! ### Overlap -/

/-- Workflow execution most recently started by a schedule tick. -/
structure ScheduleExecution where
  /-- The workflow. -/
  workflowId : WorkflowId
  /-- Its run. -/
  runId : RunId
  deriving DecidableEq

/-- What a tick does. -/
inductive OverlapDecision where
  /-- Start a new execution. -/
  | start
  /-- Skip the tick. -/
  | skip
  /-- Buffer the tick. -/
  | bufferPending
  /-- Cancel the current execution, then start a new one. -/
  | cancelThenStart (execution : ScheduleExecution)

/-- `evaluate_overlap`. -/
def evaluateOverlap (policy : OverlapPolicy) (currentExecution : Option ScheduleExecution)
    (hasPendingTick : Bool) : OverlapDecision :=
  match policy, currentExecution with
  | _, none => .start
  | .allowAll, some _ => .start
  | .skip, some _ => .skip
  | .bufferOne, some _ => if hasPendingTick then .skip else .bufferPending
  | .cancelPrevious, some execution => .cancelThenStart execution

/-! ### Catch-up -/

/-- Catch-up calculation result. -/
structure CatchUpPlan where
  /-- Fire instants to process during recovery. -/
  fireTimes : List Instant
  /-- Instant to arm after it. -/
  nextTriggerAt : Instant

theorem toNat_sub_lt {now cursor next : ℤ} (hnext : cursor < next) (hle : cursor ≤ now) :
    (now + 1 - next).toNat < (now + 1 - cursor).toNat := by
  omega

variable (library)

/-- The loop of the catch-up policies: the fire times from `cursor` on that are not after
`now`, and the first one that is. -/
def passed (trigger : TriggerSpec) (now cursor : Instant) (fireTimes : List Instant) :
    Except ScheduleError (List Instant × Instant) :=
  if _hle : cursor ≤ now then
    match _hnext : nextFireTime library trigger cursor with
    | .error error => .error error
    | .ok next => passed trigger now next (fireTimes ++ [cursor])
  else .ok (fireTimes, cursor)
termination_by (now + 1 - cursor).toNat
decreasing_by exact toNat_sub_lt (lt_of_nextFireTime _hnext) _hle

/-- `catch_up_all`. -/
def catchUpAll (trigger : TriggerSpec) (nextTriggerAt now : Instant) :
    Except ScheduleError CatchUpPlan := do
  let (fireTimes, cursor) ← passed library trigger now nextTriggerAt []
  return ⟨fireTimes, cursor⟩

/-- `catch_up_one`. -/
def catchUpOne (trigger : TriggerSpec) (nextTriggerAt now : Instant) :
    Except ScheduleError CatchUpPlan := do
  let cursor ← nextFireTime library trigger nextTriggerAt
  let (_, cursor) ← passed library trigger now cursor []
  return ⟨[nextTriggerAt], cursor⟩

/-- `catch_up_skip`. -/
def catchUpSkip (trigger : TriggerSpec) (nextTriggerAt now : Instant) :
    Except ScheduleError CatchUpPlan := do
  let (_, cursor) ← passed library trigger now nextTriggerAt []
  return ⟨[], cursor⟩

/-- `evaluate_catch_up`. -/
def evaluateCatchUp (policy : CatchUpPolicy) (trigger : TriggerSpec) (nextTriggerAt now : Instant) :
    Except ScheduleError CatchUpPlan :=
  if nextTriggerAt > now then .ok ⟨[], nextTriggerAt⟩
  else
    match policy with
    | .all => catchUpAll library trigger nextTriggerAt now
    | .one => catchUpOne library trigger nextTriggerAt now
    | .skip => catchUpSkip library trigger nextTriggerAt now

variable {library}

theorem le_of_mem_passed {now cursor bound next : Instant} {fireTimes later : List Instant}
    (h : passed library trigger now cursor fireTimes = .ok (later, next)) (hcur : bound ≤ cursor)
    (hfireTimes : ∀ fire ∈ fireTimes, bound ≤ fire) : ∀ fire ∈ later, bound ≤ fire := by
  induction cursor, fireTimes using passed.induct library trigger now with
  | case1 cursor fireTimes hle error herr =>
    rw [passed, dif_pos hle, herr] at h
    cases h
  | case2 cursor fireTimes hle after hafter ih =>
    rw [passed, dif_pos hle, hafter] at h
    have hlt := lt_of_nextFireTime hafter
    refine ih h (hcur.trans hlt.le) ?_
    intro fire hfire
    rcases List.mem_append.mp hfire with hfire | hfire
    · exact hfireTimes fire hfire
    · rw [List.mem_singleton.mp hfire]
      exact hcur
  | case3 cursor fireTimes hle =>
    rw [passed, dif_neg hle] at h
    cases h
    exact hfireTimes

/-- **A recovery fires nothing before the tick that is next.** -/
theorem le_of_mem_fireTimes {policy : CatchUpPolicy} {nextTriggerAt now : Instant}
    {plan : CatchUpPlan} (h : evaluateCatchUp library policy trigger nextTriggerAt now = .ok plan) :
    ∀ fire ∈ plan.fireTimes, nextTriggerAt ≤ fire := by
  unfold evaluateCatchUp at h
  split at h
  · cases h
    simp
  · cases policy with
    | all =>
      obtain ⟨⟨fireTimes, cursor⟩, hpass, h⟩ := Result.bind_eq_ok h
      cases h
      exact le_of_mem_passed hpass le_rfl (by simp)
    | one =>
      obtain ⟨cursor, -, h⟩ := Result.bind_eq_ok h
      obtain ⟨⟨fireTimes, cursor⟩, -, h⟩ := Result.bind_eq_ok h
      cases h
      simp
    | skip =>
      obtain ⟨⟨fireTimes, cursor⟩, -, h⟩ := Result.bind_eq_ok h
      cases h
      simp

end Aion.Schedule
