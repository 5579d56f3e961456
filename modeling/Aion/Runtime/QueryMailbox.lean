import Aion.Core.Event
import Aion.Library.Actions

/-!
# Queries in the mailbox of a process

`nif_query_mailbox.rs`, `nif_query.rs` and `nif_query_pump.rs`. A caller parks the sender of its
reply, queues the query at the process and wakes it (`enqueue_query`). A suspending await of the
process hands the next query to the workflow (`take_pending_query_sentinel`), which answers it
through a reply native. The caller waits for the reply until its time is up (`query_process`), and
what is left of a process that ended is dropped by its monitor (`cleanup_process`).

Callers, processes and monitors take turns between any two accesses to what they share. A process
runs one native at a time, and one that it was in when it ended still runs to its end. An identifier
of a process is not used again, and a query identifier is a fresh one.
-/

namespace Aion

open Actions

/-- `Pid`. -/
abbrev Pid := ℕ

/-- The host side identifier of a query. -/
abbrev QueryId := String

/-- `QueryError`, without what the search for the process of a workflow adds. -/
inductive QueryError where
  | unknownQuery (name : String)
  | timeout
  | replyDropped
  | handlerFailed (message : String)
  | engine (reason : String)
  deriving DecidableEq

/-- `QueryResult`. -/
abbrev QueryResult := Except QueryError Payload

/-- `PendingQuery`. -/
structure PendingQuery where
  queryId : QueryId
  name : String
  deriving DecidableEq

/-- An entry of the `PendingMap`, with the caller, by its place, that its sender answers. -/
structure PendingReply where
  queryId : QueryId
  pid : Pid
  caller : ℕ
  deriving DecidableEq

/-! ### Callers -/

/-- The sender of a reply. -/
inductive ReplySender where
  /-- Nothing was sent yet. -/
  | unsent
  | sent (result : QueryResult)
  /-- It was dropped with nothing sent. -/
  | dropped

/-- Where a caller of `query_process` stands. -/
inductive QueryPhase where
  /-- It is about to look whether the name is registered. -/
  | delivering
  /-- It is not, and the process may have ended. -/
  | unregistered
  /-- It is, and closed replies are pruned next. -/
  | registered
  | pruned
  /-- The reply is parked. -/
  | parked
  /-- The query is queued, and the marker is delivered next. -/
  | queued
  /-- The marker was not delivered. -/
  | undelivered (error : String)
  /-- The query is out of the queue again. -/
  | unqueued (error : String)
  /-- So is the reply. -/
  | unparked (error : String)
  /-- It waits for the reply. -/
  | waiting
  /-- Its time is up. -/
  | expired
  | returned (result : QueryResult)
  /-- The future was dropped. -/
  | abandoned

/-- A call of `query_process`. -/
structure QueryCaller where
  pid : Pid
  name : String
  phase : QueryPhase
  queryId : Option QueryId
  sender : ReplySender
  /-- The receiver is gone. -/
  closed : Bool

/-- The sender goes. -/
def QueryCaller.dropSender (caller : QueryCaller) : QueryCaller :=
  match caller.sender with
  | .unsent => { caller with sender := .dropped }
  | _ => caller

/-- The reason of the failure that `query_process` returns for a marker that was not delivered. -/
def markerDeliveryError (error : String) : String :=
  "query enqueue failed: query engine seam failed: mailbox delivery failed: query wake marker delivery failed: " ++ error

/-! ### Processes -/

/-- What `cleanup_process` removes next. -/
inductive CleanupStage where
  | queries
  | servicing
  | handlers
  | replies
  | done
  deriving DecidableEq

/-- A process. -/
inductive ProcessStatus where
  | unborn
  | live
  | exited (cleanup : CleanupStage)
  deriving DecidableEq

/-- The natives that a workflow calls. -/
inductive QueryNative where
  | registerQuery (name : String)
  | replyQuery (queryId : QueryId) (responsePayload : String)
  | replyQueryError (queryId : QueryId) (message : String)
  /-- A suspending await. -/
  | await (operation : String)
  /-- Any other native that records. -/
  | record (operation : String)
  /-- The continuation of `with_timeout`, when its closure has returned. -/
  | resumeWithTimeout

/-- `payload_from_string`. -/
def payloadFromString (value : String) : Payload := ⟨.json, value.toUTF8.toList⟩

/-- How far a native is: what it does next. -/
inductive NativeStage where
  | registering (name : String)
  /-- `clear_servicing_query`. -/
  | replying (queryId : QueryId) (result : QueryResult)
  /-- The parked reply is taken. -/
  | taking (queryId : QueryId) (result : QueryResult)
  | sending (queryId : QueryId) (result : QueryResult) (caller : ℕ)
  /-- `ensure_not_servicing_query`. -/
  | guarding (operation : String) (awaits : Bool)
  /-- `take_pending_query_sentinel` looks for a query that is serviced already. -/
  | pumping (operation : String)
  | popping (operation : String)
  /-- `pending_reply_is_live`. -/
  | inspecting (operation : String) (query : PendingQuery)
  | discarding (operation : String) (query : PendingQuery)
  | serving (operation : String) (query : PendingQuery)
  /-- What the native is there for, which may record. -/
  | resolving (operation : String)

/-- Where a native starts. -/
def QueryNative.stage : QueryNative → NativeStage
  | .registerQuery name => .registering name
  | .replyQuery queryId responsePayload =>
    .replying queryId (.ok (payloadFromString responsePayload))
  | .replyQueryError queryId message => .replying queryId (.error (.handlerFailed message))
  | .await operation => .guarding operation true
  | .record operation => .guarding operation false
  -- `settle_live_scope` cancels the deadline, and `ensure_not_servicing_query` is not asked.
  | .resumeWithTimeout => .resolving "with_timeout"

/-- The refusal of `ensure_not_servicing_query`. -/
def queryServicingError (operation : String) (queryId : QueryId) : String :=
  "query_servicing:" ++ operation ++ " is forbidden while query " ++ queryId ++
    " is being serviced; query handlers are read-only"

/-! ### The mailbox -/

/-- What happens, as far as it is spoken of. -/
inductive QueryEvent where
  /-- `register_query` returns. -/
  | registered (pid : Pid) (name : String)
  /-- A caller finds no handler. -/
  | missed (caller : ℕ)
  /-- A caller that found none looks whether the process is live. -/
  | probed (caller : ℕ) (live : Bool)
  /-- The marker of the query of a caller is not delivered. -/
  | undelivered (caller : ℕ) (error : String)
  /-- A query goes into the queue of a process. -/
  | queued (pid : Pid) (query : PendingQuery)
  /-- An await returns the sentinel of a query. -/
  | handedOver (pid : Pid) (query : PendingQuery)
  /-- A reply native starts, and the query counts as serviced no more. -/
  | released (pid : Pid) (queryId : QueryId)
  /-- A reply native returns. -/
  | replied (pid : Pid) (queryId : QueryId) (result : QueryResult)
  /-- A native returns an error. -/
  | refused (pid : Pid) (reason : String)
  /-- A native records. -/
  | recorded (pid : Pid) (operation : String)
  /-- The servicing flag of a process that ended is removed. -/
  | forgotten (pid : Pid)

/-- The part of `EngineNifState` that queries use, those that work on it, and what happened so
far. -/
structure QueryMailbox where
  status : Pid → ProcessStatus
  /-- `handlers`. -/
  handlers : List (Pid × String)
  /-- `pending`. -/
  pending : List PendingReply
  /-- `pending_queries`. -/
  queue : Pid → List PendingQuery
  /-- `servicing_queries`. -/
  servicing : Pid → Option QueryId
  /-- The query identifiers that were drawn. -/
  issued : List QueryId
  callers : List QueryCaller
  native : Pid → Option NativeStage
  events : List QueryEvent

/-- Nothing has happened. -/
def QueryMailbox.start : QueryMailbox where
  status _ := .unborn
  handlers := []
  pending := []
  queue _ := []
  servicing _ := none
  issued := []
  callers := []
  native _ := none
  events := []

/-- The steps of a caller. -/
inductive CallerStep where
  /-- `is_query_registered`. -/
  | check
  /-- `is_live`, for a name that is not registered. -/
  | probe
  /-- `prune_closed_pending_replies`. -/
  | prune
  /-- `insert_pending_reply`. -/
  | park (queryId : QueryId)
  /-- The query goes into the queue. -/
  | push
  /-- `deliver_query_request`, which may fail. -/
  | deliver (failure : Option String)
  | unqueue
  /-- `take_pending_reply`. -/
  | unpark
  /-- `is_live`, once the delivery is rolled back. -/
  | classify
  | receive
  | expire
  /-- The future returns with its time up. -/
  | leave
  | abandon

/-- The steps; a caller is named by its place. -/
inductive QueryAction where
  | spawn (pid : Pid)
  | exit (pid : Pid)
  /-- The next removal of `cleanup_process`. -/
  | clean (pid : Pid)
  /-- A query for a process that was spawned. -/
  | call (pid : Pid) (name : String)
  | caller (place : ℕ) (step : CallerStep)
  /-- A live process calls a native. -/
  | enter (pid : Pid) (native : QueryNative)
  | advance (pid : Pid)
  /-- A native records. -/
  | record (pid : Pid)
  | finish (pid : Pid)

namespace QueryMailbox

variable (s : QueryMailbox)

/-- The state with a caller changed. -/
def updateCaller (place : ℕ) (f : QueryCaller → QueryCaller) : QueryMailbox :=
  { s with callers := s.callers.modify place f }

/-- The state with a caller in another phase. -/
def setPhase (place : ℕ) (phase : QueryPhase) : QueryMailbox :=
  s.updateCaller place fun caller => { caller with phase := phase }

/-- The state with a caller that has its result. -/
def answer (place : ℕ) (result : QueryResult) : QueryMailbox :=
  s.updateCaller place fun caller => { caller with phase := .returned result, closed := true }

/-- The state with one more event. -/
def log (event : QueryEvent) : QueryMailbox := { s with events := s.events ++ [event] }

/-- The state with the native of a process at a stage. -/
def setNative (pid : Pid) (native : Option NativeStage) : QueryMailbox :=
  { s with native := Function.update s.native pid native }

/-- The state with the queue of a process. -/
def setQueue (pid : Pid) (queue : List PendingQuery) : QueryMailbox :=
  { s with queue := Function.update s.queue pid queue }

/-- The state with the servicing flag of a process. -/
def setServicing (pid : Pid) (servicing : Option QueryId) : QueryMailbox :=
  { s with servicing := Function.update s.servicing pid servicing }

/-- The receiver of a caller is gone. -/
def isClosed (place : ℕ) : Bool := (s.callers[place]?).any (·.closed)

/-- Parked replies go, and their senders with them. -/
def dropReplies (drops : PendingReply → Bool) : QueryMailbox :=
  { s with
    pending := s.pending.filter fun reply => !drops reply
    callers := s.callers.mapIdx fun place caller =>
      if s.pending.any fun reply => drops reply && reply.caller == place then caller.dropSender else caller }

/-- A step of the caller at this place. -/
def callerStep (place : ℕ) (caller : QueryCaller) : CallerStep → Option QueryMailbox
  | .check =>
    match caller.phase with
    | .delivering =>
      if (caller.pid, caller.name) ∈ s.handlers then some (s.setPhase place .registered)
      else some ((s.setPhase place .unregistered).log (.missed place))
    | _ => none
  | .probe =>
    match caller.phase with
    | .unregistered =>
      -- On a process that is not live any more the name went missing with it.
      let live := decide (s.status caller.pid = .live)
      let reply := if live then QueryError.unknownQuery caller.name else .replyDropped
      some ((s.updateCaller place fun caller =>
        { caller with phase := .waiting, sender := .sent (.error reply) }).log (.probed place live))
    | _ => none
  | .prune =>
    match caller.phase with
    | .registered =>
      some ((s.dropReplies fun reply => s.isClosed reply.caller).setPhase place .pruned)
    | _ => none
  | .park queryId =>
    match caller.phase with
    | .pruned =>
      if queryId ∈ s.issued then none
      else
        some { s.updateCaller place fun caller => { caller with phase := .parked, queryId := some queryId } with
          issued := s.issued ++ [queryId], pending := s.pending ++ [⟨queryId, caller.pid, place⟩] }
    | _ => none
  | .push =>
    match caller.phase, caller.queryId with
    | .parked, some queryId =>
      some (((s.setQueue caller.pid (s.queue caller.pid ++ [⟨queryId, caller.name⟩])).setPhase place .queued).log
        (.queued caller.pid ⟨queryId, caller.name⟩))
    | _, _ => none
  | .deliver failure =>
    match caller.phase, failure with
    | .queued, none =>
      if s.status caller.pid = .live then some (s.setPhase place .waiting) else none
    | .queued, some error =>
      some ((s.setPhase place (.undelivered error)).log (.undelivered place error))
    | _, _ => none
  | .unqueue =>
    match caller.phase, caller.queryId with
    | .undelivered error, some queryId =>
      some ((s.setQueue caller.pid ((s.queue caller.pid).filter fun query =>
          query.queryId ≠ queryId)).setPhase place (.unqueued error))
    | _, _ => none
  | .unpark =>
    match caller.phase, caller.queryId with
    | .unqueued error, some queryId =>
      some ((s.dropReplies fun reply => reply.queryId == queryId).setPhase place (.unparked error))
    | _, _ => none
  | .classify =>
    match caller.phase with
    | .unparked error =>
      if s.status caller.pid = .live then some (s.answer place (.error (.engine (markerDeliveryError error))))
      else some (s.setPhase place .waiting)
    | _ => none
  | .receive =>
    match caller.phase, caller.sender with
    | .waiting, .sent result => some (s.answer place result)
    | .waiting, .dropped => some (s.answer place (.error .replyDropped))
    | _, _ => none
  | .expire =>
    match caller.phase, caller.sender with
    -- The reply is looked for before the time is.
    | .waiting, .unsent => some (s.setPhase place .expired)
    | _, _ => none
  | .leave =>
    match caller.phase with
    | .expired => some (s.answer place (.error .timeout))
    | _ => none
  | .abandon =>
    match caller.phase with
    | .waiting =>
      some (s.updateCaller place fun caller => { caller with phase := .abandoned, closed := true })
    | _ => none

/-- The next step of the native of a process. -/
def nativeStep (pid : Pid) : NativeStage → Option QueryMailbox
  | .registering name =>
    some (({ s with handlers := s.handlers ++ [(pid, name)] }.setNative pid none).log (.registered pid name))
  | .replying queryId result =>
    let servicing := if s.servicing pid = some queryId then none else s.servicing pid
    some (((s.setServicing pid servicing).setNative pid (some (.taking queryId result))).log (.released pid queryId))
  | .taking queryId result =>
    match s.pending.find? fun reply => reply.queryId == queryId with
    | none => some ((s.setNative pid none).log (.refused pid ("unknown_query_id:" ++ queryId)))
    | some reply =>
      some ({ s with pending := s.pending.filter fun other => other.queryId ≠ queryId }.setNative pid
        (some (.sending queryId result reply.caller)))
  | .sending queryId result place =>
    match s.callers[place]? with
    | none => none
    | some caller =>
      if caller.closed then
        some (((s.updateCaller place QueryCaller.dropSender).setNative pid none).log
            (.refused pid ("reply_dropped:" ++ queryId)))
      else
        some (((s.updateCaller place fun caller => { caller with sender := .sent result }).setNative pid none).log
          (.replied pid queryId result))
  | .guarding operation awaits =>
    match s.servicing pid with
    | some queryId =>
      some ((s.setNative pid none).log (.refused pid (queryServicingError operation queryId)))
    | none =>
      some (s.setNative pid (some (if awaits then .pumping operation else .resolving operation)))
  | .pumping operation =>
    if (s.servicing pid).isSome then some (s.setNative pid (some (.resolving operation)))
    else some (s.setNative pid (some (.popping operation)))
  | .popping operation =>
    match s.queue pid with
    | [] => some (s.setNative pid (some (.resolving operation)))
    | query :: rest =>
      some ((s.setQueue pid rest).setNative pid (some (.inspecting operation query)))
  | .inspecting operation query =>
    if s.pending.any fun reply => reply.queryId == query.queryId && !s.isClosed reply.caller then
      some (s.setNative pid (some (.serving operation query)))
    else some (s.setNative pid (some (.discarding operation query)))
  | .discarding operation query =>
    some ((s.dropReplies fun reply => reply.queryId == query.queryId).setNative pid (some (.popping operation)))
  | .serving _ query =>
    some (((s.setServicing pid (some query.queryId)).setNative pid none).log (.handedOver pid query))
  | .resolving _ => none

/-- The next removal of `cleanup_process`. -/
def cleanStep (pid : Pid) : CleanupStage → Option QueryMailbox
  | .queries =>
    some { s.setQueue pid [] with status := Function.update s.status pid (.exited .servicing) }
  | .servicing =>
    some ({ s.setServicing pid none with status := Function.update s.status pid (.exited .handlers) }.log (.forgotten pid))
  | .handlers =>
    some { s with
      handlers := s.handlers.filter fun handler => handler.1 ≠ pid
      status := Function.update s.status pid (.exited .replies) }
  | .replies => some { s.dropReplies fun reply => reply.pid == pid with status := Function.update s.status pid (.exited .done) }
  | .done => none

/-- One step. -/
def step : QueryAction → Option QueryMailbox
  | .spawn pid => if s.status pid = .unborn then some { s with status := Function.update s.status pid .live } else none
  | .exit pid => if s.status pid = .live then some { s with status := Function.update s.status pid (.exited .queries) } else none
  | .clean pid =>
    match s.status pid with
    | .exited cleanup => s.cleanStep pid cleanup
    | _ => none
  | .call pid name =>
    if s.status pid = .unborn then none
    else some { s with callers := s.callers ++ [⟨pid, name, .delivering, none, .unsent, false⟩] }
  | .caller place step => (s.callers[place]?).bind fun caller => s.callerStep place caller step
  | .enter pid native =>
    if s.status pid = .live ∧ (s.native pid).isNone then some (s.setNative pid (some native.stage))
    else none
  | .advance pid => (s.native pid).bind fun stage => s.nativeStep pid stage
  | .record pid =>
    match s.native pid with
    | some (.resolving operation) => some (s.log (.recorded pid operation))
    | _ => none
  | .finish pid =>
    match s.native pid with
    | some (.resolving _) => some (s.setNative pid none)
    | _ => none

/-! ### What a step does -/

variable {s : QueryMailbox}

/-- What a caller does that changes only itself: its phase, and whether its receiver is gone. -/
inductive CallerGoes (s : QueryMailbox) (caller : QueryCaller) : QueryPhase → Bool → Prop where
  | finds (h : caller.phase = .delivering) : CallerGoes s caller .registered caller.closed
  | delivers (h : caller.phase = .queued)
    (hlive : s.status caller.pid = .live) : CallerGoes s caller .waiting caller.closed
  | faults {error : String} (h : caller.phase = .unparked error)
    (hlive : s.status caller.pid = .live) :
    CallerGoes s caller (.returned (.error (.engine (markerDeliveryError error)))) true
  | waits {error : String} (h : caller.phase = .unparked error)
    (hended : s.status caller.pid ≠ .live) :
    CallerGoes s caller .waiting caller.closed
  | receives (h : caller.phase = .waiting) {result : QueryResult}
    (hsent : caller.sender = .sent result) :
    CallerGoes s caller (.returned result) true
  | loses (h : caller.phase = .waiting) (hdrop : caller.sender = .dropped) :
    CallerGoes s caller (.returned (.error .replyDropped)) true
  | expires (h : caller.phase = .waiting)
    (huns : caller.sender = .unsent) : CallerGoes s caller .expired caller.closed
  | leaves (h : caller.phase = .expired) : CallerGoes s caller (.returned (.error .timeout)) true
  | abandons (h : caller.phase = .waiting) : CallerGoes s caller .abandoned true

/-- The state a step of a caller leads to. -/
inductive CallerMove (s : QueryMailbox) (place : ℕ) (caller : QueryCaller) :
    QueryMailbox → Prop where
  | goes {phase : QueryPhase} {closed : Bool} (h : CallerGoes s caller phase closed) :
    CallerMove s place caller (s.updateCaller place fun _ => { caller with phase := phase, closed := closed })
  | misses (h : caller.phase = .delivering) (hnone : (caller.pid, caller.name) ∉ s.handlers) :
    CallerMove s place caller ((s.updateCaller place fun _ => { caller with phase := .unregistered }).log (.missed place))
  | probes (h : caller.phase = .unregistered) {live : Bool} {error : QueryError}
    (herr : live = true ∧ s.status caller.pid = .live ∧ error = .unknownQuery caller.name ∨
      s.status caller.pid ≠ .live ∧ error = .replyDropped) :
    CallerMove s place caller
    ((s.updateCaller place fun _ => { caller with phase := .waiting, sender := .sent (.error error) }).log (.probed place live))
  | fails (h : caller.phase = .queued) (error : String) :
    CallerMove s place caller
    ((s.updateCaller place fun _ => { caller with phase := .undelivered error }).log (.undelivered place error))
  | prunes (h : caller.phase = .registered) :
    CallerMove s place caller ((s.dropReplies fun reply => s.isClosed reply.caller).setPhase place .pruned)
  | parks (h : caller.phase = .pruned) {queryId : QueryId} (hfresh : queryId ∉ s.issued) :
    CallerMove s place caller
    { s.updateCaller place fun _ => { caller with phase := .parked, queryId := some queryId } with
      issued := s.issued ++ [queryId], pending := s.pending ++ [⟨queryId, caller.pid, place⟩] }
  | pushes (h : caller.phase = .parked) {queryId : QueryId} (hid : caller.queryId = some queryId) :
    CallerMove s place caller
    (((s.setQueue caller.pid (s.queue caller.pid ++ [⟨queryId, caller.name⟩])).updateCaller place
      fun _ => { caller with phase := .queued }).log (.queued caller.pid ⟨queryId, caller.name⟩))
  | unqueues {error : String} (h : caller.phase = .undelivered error)
    {queryId : QueryId} (hid : caller.queryId = some queryId) :
    CallerMove s place caller
    ((s.setQueue caller.pid ((s.queue caller.pid).filter fun query => query.queryId ≠ queryId)).updateCaller place
      fun _ => { caller with phase := .unqueued error })
  | unparks {error : String} (h : caller.phase = .unqueued error)
    {queryId : QueryId} (hid : caller.queryId = some queryId) :
    CallerMove s place caller ((s.dropReplies fun reply => reply.queryId == queryId).setPhase place (.unparked error))

/-- The stage a native goes to by itself. -/
inductive NativeGoes (s : QueryMailbox) (pid : Pid) : NativeStage → NativeStage → Prop where
  | passes {operation : String} {awaits : Bool} (hnone : s.servicing pid = none) :
    NativeGoes s pid (.guarding operation awaits) (if awaits then .pumping operation else .resolving operation)
  | skips {operation : String} (hsome : (s.servicing pid).isSome = true) :
    NativeGoes s pid (.pumping operation) (.resolving operation)
  | pumps {operation : String} (hnone : s.servicing pid = none) :
    NativeGoes s pid (.pumping operation) (.popping operation)
  | drained {operation : String} (hemp : s.queue pid = []) :
    NativeGoes s pid (.popping operation) (.resolving operation)
  | fresh {operation : String} {query : PendingQuery} {reply : PendingReply}
    (hreply : reply ∈ s.pending)
    (hid : reply.queryId = query.queryId) (hopen : s.isClosed reply.caller = false) :
    NativeGoes s pid (.inspecting operation query) (.serving operation query)
  | stale {operation : String} {query : PendingQuery}
    (hcl : ∀ reply ∈ s.pending, reply.queryId = query.queryId → s.isClosed reply.caller = true) :
    NativeGoes s pid (.inspecting operation query) (.discarding operation query)

/-- The state a step of a native leads to. -/
inductive NativeMove (s : QueryMailbox) (pid : Pid) : NativeStage → QueryMailbox → Prop where
  | goes {stage stage' : NativeStage} (h : NativeGoes s pid stage stage') :
    NativeMove s pid stage (s.setNative pid (some stage'))
  | refuses {stage : NativeStage} (h : (∃ queryId result, stage = .taking queryId result) ∨
        ∃ operation awaits, stage = .guarding operation awaits)
    {reason : String} : NativeMove s pid stage ((s.setNative pid none).log (.refused pid reason))
  | registers {name : String} :
    NativeMove s pid (.registering name)
    (({ s with handlers := s.handlers ++ [(pid, name)] }.setNative pid none).log (.registered pid name))
  | releases {queryId : QueryId} {result : QueryResult} :
    NativeMove s pid (.replying queryId result)
    (((s.setServicing pid (if s.servicing pid = some queryId then none else s.servicing pid)).setNative pid
      (some (.taking queryId result))).log (.released pid queryId))
  | takes {queryId : QueryId} {result : QueryResult} {reply : PendingReply}
    (hreply : reply ∈ s.pending) (hid : reply.queryId = queryId) :
    NativeMove s pid (.taking queryId result)
    ({ s with pending := s.pending.filter fun other => other.queryId ≠ queryId }.setNative pid
      (some (.sending queryId result reply.caller)))
  | drops {queryId : QueryId} {result : QueryResult} {place : ℕ} {caller : QueryCaller}
    (hcall : s.callers[place]? = some caller)
    (hcl : caller.closed = true) {reason : String} :
    NativeMove s pid (.sending queryId result place)
    (((s.updateCaller place QueryCaller.dropSender).setNative pid none).log (.refused pid reason))
  | sends {queryId : QueryId} {result : QueryResult} {place : ℕ} {caller : QueryCaller}
    (hcall : s.callers[place]? = some caller)
    (hopen : caller.closed = false) :
    NativeMove s pid (.sending queryId result place)
    (((s.updateCaller place fun _ => { caller with sender := .sent result }).setNative pid
        none).log (.replied pid queryId result))
  | pops {operation : String} {query : PendingQuery} {rest : List PendingQuery}
    (hqueue : s.queue pid = query :: rest) :
    NativeMove s pid (.popping operation) ((s.setQueue pid rest).setNative pid (some (.inspecting operation query)))
  | discards {operation : String} {query : PendingQuery} :
    NativeMove s pid (.discarding operation query)
    ((s.dropReplies fun reply => reply.queryId == query.queryId).setNative pid (some (.popping operation)))
  | serves {operation : String} {query : PendingQuery} :
    NativeMove s pid (.serving operation query)
    (((s.setServicing pid (some query.queryId)).setNative pid none).log (.handedOver pid query))

/-- What a step does, by what takes it. -/
inductive Moves (s : QueryMailbox) : QueryAction → QueryMailbox → Prop where
  | spawns {pid : Pid} (h : s.status pid = .unborn) : Moves s (.spawn pid)
    { s with status := Function.update s.status pid .live }
  | exits {pid : Pid} (h : s.status pid = .live) : Moves s (.exit pid)
    { s with status := Function.update s.status pid (.exited .queries) }
  | cleansQueries {pid : Pid} (h : s.status pid = .exited .queries) :
    Moves s (.clean pid) { s.setQueue pid [] with status := Function.update s.status pid (.exited .servicing) }
  | cleansServicing {pid : Pid} (h : s.status pid = .exited .servicing) :
    Moves s (.clean pid) ({ s.setServicing pid none with status := Function.update s.status pid (.exited .handlers) }.log (.forgotten pid))
  | cleansHandlers {pid : Pid} (h : s.status pid = .exited .handlers) :
    Moves s (.clean pid) { s with
      handlers := s.handlers.filter fun handler => handler.1 ≠ pid
      status := Function.update s.status pid (.exited .replies) }
  | cleansReplies {pid : Pid} (h : s.status pid = .exited .replies) :
    Moves s (.clean pid) { s.dropReplies fun reply => reply.pid == pid with status := Function.update s.status pid (.exited .done) }
  | calls {pid : Pid} {name : String} (h : s.status pid ≠ .unborn) :
    Moves s (.call pid name) { s with callers := s.callers ++ [⟨pid, name, .delivering, none, .unsent, false⟩] }
  | caller {place : ℕ} {action : CallerStep} {caller : QueryCaller}
    {s' : QueryMailbox} (h : s.callers[place]? = some caller)
    (hmove : CallerMove s place caller s') : Moves s (.caller place action) s'
  | enters {pid : Pid} {native : QueryNative} (hlive : s.status pid = .live) (hnone : s.native pid = none) :
    Moves s (.enter pid native) (s.setNative pid (some native.stage))
  | native {pid : Pid} {stage : NativeStage} {s' : QueryMailbox} (h : s.native pid = some stage)
    (hmove : NativeMove s pid stage s') : Moves s (.advance pid) s'
  | records {pid : Pid} {operation : String} (h : s.native pid = some (.resolving operation)) :
    Moves s (.record pid) (s.log (.recorded pid operation))
  | finishes {pid : Pid} {operation : String} (h : s.native pid = some (.resolving operation)) : Moves s (.finish pid) (s.setNative pid none)

variable {caller : QueryCaller} {s' : QueryMailbox} {place : ℕ}

/-- A caller that is known changes to what its change makes of it. -/
theorem updateCaller_eq (h : s.callers[place]? = some caller) (f : QueryCaller → QueryCaller) :
    s.updateCaller place f = s.updateCaller place fun _ => f caller := by
  unfold updateCaller
  congr 1
  refine List.ext_getElem? fun other => ?_
  rw [List.getElem?_modify, List.getElem?_modify]
  by_cases hplace : place = other
  · subst hplace
    rw [h]
    rfl
  · simp [hplace]

theorem setPhase_eq (h : s.callers[place]? = some caller) (phase : QueryPhase) :
    s.setPhase place phase = s.updateCaller place fun _ => { caller with phase := phase } :=
  updateCaller_eq h _

theorem callerStep_move {action : CallerStep} (hcall : s.callers[place]? = some caller)
    (h : s.callerStep place caller action = some s') : CallerMove s place caller s' := by
  cases action with
  | check =>
    simp only [callerStep] at h
    split at h
    · rename_i hph
      split at h
      · cases h
        rw [setPhase_eq hcall]
        exact .goes (.finds hph)
      · rename_i hnone
        cases h
        rw [setPhase_eq hcall]
        exact .misses hph hnone
    · cases h
  | probe =>
    simp only [callerStep] at h
    split at h
    · rename_i hph
      cases h
      rw [updateCaller_eq hcall]
      refine .probes hph ?_
      by_cases hlive : s.status caller.pid = .live <;> simp [hlive]
    · cases h
  | prune =>
    simp only [callerStep] at h
    split at h
    · rename_i hph
      cases h
      exact .prunes hph
    · cases h
  | park queryId =>
    simp only [callerStep] at h
    split at h
    · rename_i hph
      split at h
      · cases h
      · rename_i hfresh
        cases h
        rw [updateCaller_eq hcall]
        exact .parks hph hfresh
    · cases h
  | push =>
    simp only [callerStep] at h
    split at h
    · rename_i queryId hph hid
      cases h
      rw [setPhase_eq (s := s.setQueue _ _) hcall]
      exact .pushes hph hid
    · cases h
  | deliver failure =>
    simp only [callerStep] at h
    split at h
    · rename_i hph
      split at h
      · rename_i hlive
        cases h
        rw [setPhase_eq hcall]
        exact .goes (.delivers hph hlive)
      · cases h
    · rename_i error hph
      cases h
      rw [setPhase_eq hcall]
      exact .fails hph error
    · cases h
  | unqueue =>
    simp only [callerStep] at h
    split at h
    · rename_i error queryId hph hid
      cases h
      rw [setPhase_eq (s := s.setQueue _ _) hcall]
      exact .unqueues hph hid
    · cases h
  | unpark =>
    simp only [callerStep] at h
    split at h
    · rename_i error queryId hph hid
      cases h
      exact .unparks hph hid
    · cases h
  | classify =>
    simp only [callerStep] at h
    split at h
    · rename_i error hph
      split at h
      · rename_i hlive
        cases h
        rw [answer, updateCaller_eq hcall]
        exact .goes (.faults hph hlive)
      · rename_i hended
        cases h
        rw [setPhase_eq hcall]
        exact .goes (.waits hph hended)
    · cases h
  | receive =>
    simp only [callerStep] at h
    split at h
    · rename_i result hph hsent
      cases h
      rw [answer, updateCaller_eq hcall]
      exact .goes (.receives hph hsent)
    · rename_i hph hdrop
      cases h
      rw [answer, updateCaller_eq hcall]
      exact .goes (.loses hph hdrop)
    · cases h
  | expire =>
    simp only [callerStep] at h
    split at h
    · rename_i hph huns
      cases h
      rw [setPhase_eq hcall]
      exact .goes (.expires hph huns)
    · cases h
  | leave =>
    simp only [callerStep] at h
    split at h
    · rename_i hph
      cases h
      rw [answer, updateCaller_eq hcall]
      exact .goes (.leaves hph)
    · cases h
  | abandon =>
    simp only [callerStep] at h
    split at h
    · rename_i hph
      cases h
      rw [updateCaller_eq hcall]
      exact .goes (.abandons hph)
    · cases h

theorem nativeStep_move {pid : Pid} {stage : NativeStage} (h : s.nativeStep pid stage = some s') :
    NativeMove s pid stage s' := by
  cases stage with
  | registering name =>
    cases h
    exact .registers
  | replying queryId result =>
    cases h
    exact .releases
  | taking queryId result =>
    simp only [nativeStep] at h
    split at h
    · cases h
      exact .refuses (.inl ⟨queryId, result, rfl⟩)
    · rename_i reply hreply
      cases h
      exact .takes (List.mem_of_find?_eq_some hreply) (by simpa using List.find?_some hreply)
  | sending queryId result place =>
    simp only [nativeStep] at h
    split at h
    · cases h
    · rename_i caller hcall
      split at h
      · rename_i hcl
        cases h
        exact .drops hcall hcl
      · rename_i hopen
        cases h
        rw [updateCaller_eq hcall]
        exact .sends hcall (by simpa using hopen)
  | guarding operation awaits =>
    simp only [nativeStep] at h
    split at h
    · cases h
      exact .refuses (.inr ⟨operation, awaits, rfl⟩)
    · rename_i hnone
      cases h
      exact .goes (.passes hnone)
  | pumping operation =>
    simp only [nativeStep] at h
    split at h
    · rename_i hsome
      cases h
      exact .goes (.skips hsome)
    · rename_i hnone
      cases h
      exact .goes (.pumps (by simpa using hnone))
  | popping operation =>
    simp only [nativeStep] at h
    split at h
    · rename_i hemp
      cases h
      exact .goes (.drained hemp)
    · rename_i query rest hqueue
      cases h
      exact .pops hqueue
  | inspecting operation query =>
    simp only [nativeStep] at h
    split at h
    · rename_i hany
      cases h
      obtain ⟨reply, hreply, hlive⟩ := List.any_eq_true.mp hany
      simp only [Bool.and_eq_true, beq_iff_eq, Bool.not_eq_true'] at hlive
      exact .goes (.fresh hreply hlive.1 hlive.2)
    · rename_i hnone
      cases h
      refine .goes (.stale fun reply hreply hid => ?_)
      by_contra hopen
      exact hnone (List.any_eq_true.mpr ⟨reply, hreply, by simp [hid, hopen]⟩)
  | discarding operation query =>
    cases h
    exact .discards
  | serving operation query =>
    cases h
    exact .serves
  | resolving operation => cases h

theorem step_moves {action : QueryAction} (h : s.step action = some s') : Moves s action s' := by
  cases action with
  | spawn pid =>
    simp only [step] at h
    split at h
    · rename_i hunborn
      cases h
      exact .spawns hunborn
    · cases h
  | exit pid =>
    simp only [step] at h
    split at h
    · rename_i hlive
      cases h
      exact .exits hlive
    · cases h
  | clean pid =>
    simp only [step] at h
    split at h
    · rename_i cleanup hcleanup
      cases cleanup with
      | queries => cases h; exact .cleansQueries hcleanup
      | servicing => cases h; exact .cleansServicing hcleanup
      | handlers => cases h; exact .cleansHandlers hcleanup
      | replies => cases h; exact .cleansReplies hcleanup
      | done => cases h
    · cases h
  | call pid name =>
    simp only [step] at h
    split at h
    · cases h
    · rename_i hborn
      cases h
      exact .calls hborn
  | caller place action =>
    obtain ⟨caller, hcall, h⟩ := Option.bind_eq_some_iff.mp h
    exact .caller hcall (callerStep_move hcall h)
  | enter pid native =>
    simp only [step] at h
    split at h
    · rename_i hguard
      cases h
      exact .enters hguard.1 (by simpa using hguard.2)
    · cases h
  | advance pid =>
    obtain ⟨stage, hstg, h⟩ := Option.bind_eq_some_iff.mp h
    exact .native hstg (nativeStep_move h)
  | record pid =>
    simp only [step] at h
    split at h
    · rename_i operation hstg
      cases h
      exact .records hstg
    · cases h
  | finish pid =>
    simp only [step] at h
    split at h
    · rename_i operation hstg
      cases h
      exact .finishes hstg
    · cases h

end QueryMailbox

end Aion
