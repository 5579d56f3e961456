import Aion.Library.Interleaving
import Aion.Runtime.QueryMailbox

/-!
# Handing queries to a workflow

A query identifier is of one caller, and its reply is parked once (`Identified`). A workflow is
handed the queries of its process in the order in which they were queued, and none twice
(`queries_in_order`); from then until it answers, its process records nothing, as long as its pump
answers before the workflow goes on (`handlers_read_only`).
-/

namespace Aion

open Actions Interleaving

/-- The phases before a query identifier is drawn. -/
def QueryPhase.early : QueryPhase → Bool
  | .delivering => true
  | .unregistered => true
  | .registered => true
  | .pruned => true
  | _ => false

/-- The error that a caller rolls its delivery back for. -/
def QueryPhase.failure : QueryPhase → Option String
  | .undelivered error => some error
  | .unqueued error => some error
  | .unparked error => some error
  | _ => none

/-- The stages of a native behind its guard. -/
def NativeStage.guarded : NativeStage → Bool
  | .pumping _ => true
  | .popping _ => true
  | .inspecting _ _ => true
  | .discarding _ _ => true
  | .serving _ _ => true
  | .resolving _ => true
  | _ => false

section Callers

variable {caller : QueryCaller}

@[simp, grind =] theorem QueryCaller.dropSender_pid :
    caller.dropSender.pid = caller.pid := by unfold dropSender; split <;> rfl

@[simp, grind =] theorem QueryCaller.dropSender_name :
    caller.dropSender.name = caller.name := by unfold dropSender; split <;> rfl

@[simp, grind =] theorem QueryCaller.dropSender_phase :
    caller.dropSender.phase = caller.phase := by unfold dropSender; split <;> rfl

@[simp, grind =] theorem QueryCaller.dropSender_queryId :
    caller.dropSender.queryId = caller.queryId := by unfold dropSender; split <;> rfl

@[simp, grind =] theorem QueryCaller.dropSender_closed :
    caller.dropSender.closed = caller.closed := by unfold dropSender; split <;> rfl

@[grind =] theorem QueryCaller.dropSender_sender : caller.dropSender.sender = match caller.sender with
    | .unsent => .dropped
    | sender => sender := by
  unfold dropSender
  split <;> simp_all

end Callers

namespace QueryMailbox

variable {s s' : QueryMailbox}

variable {caller caller' changed found : QueryCaller} {place other : ℕ} {queryId : QueryId}
  {drops : PendingReply → Bool} {stage : NativeStage} {pid : Pid} {result : QueryResult}

theorem callers_update_iff (h : s.callers[place]? = some caller) :
    (s.callers.modify place fun _ => changed)[other]? = some found ↔
      (other = place ∧ found = changed) ∨ (other ≠ place ∧ s.callers[other]? = some found) := by
  rw [List.getElem?_modify]
  by_cases hplace : place = other
  · subst hplace
    simp [h, eq_comm]
  · simp [hplace, Ne.symm hplace]

theorem callers_dropReplies_iff :
    (s.dropReplies drops).callers[place]? = some found ↔ ∃ caller : QueryCaller,
      s.callers[place]? = some caller ∧
      ((∃ reply ∈ s.pending, drops reply = true ∧ reply.caller = place) ∧
          found = caller.dropSender ∨
        (∀ reply ∈ s.pending, drops reply = true → reply.caller ≠ place) ∧ found = caller) := by
  have hany : (s.pending.any fun reply => drops reply && reply.caller == place) = true ↔
      ∃ reply ∈ s.pending, drops reply = true ∧ reply.caller = place := by
    simp
  unfold dropReplies
  simp only [List.getElem?_mapIdx, Option.map_eq_some_iff]
  refine exists_congr fun caller => and_congr_right fun _ => ?_
  split <;> grind

/-- Each query identifier is of one caller. A parked reply, and one that a native is about to send,
is of the caller with its identifier, and no other is of it. -/
structure Identified (s : QueryMailbox) : Prop where
  issued : ∀ (place : ℕ) (caller : QueryCaller) (queryId : QueryId),
    s.callers[place]? = some caller →
    caller.queryId = some queryId → queryId ∈ s.issued
  distinct : ∀ (place other : ℕ) (caller found : QueryCaller) (queryId : QueryId),
    s.callers[place]? = some caller →
    s.callers[other]? = some found → caller.queryId = some queryId → found.queryId = some queryId →
      place = other
  early : ∀ (place : ℕ) (caller : QueryCaller), s.callers[place]? = some caller →
    caller.phase.early = true →
    caller.queryId = none ∧ caller.sender = .unsent ∧ caller.closed = false
  bound : ∀ reply ∈ s.pending, reply.caller < s.callers.length
  parked : ∀ reply ∈ s.pending, ∀ caller : QueryCaller, s.callers[reply.caller]? = some caller →
    caller.queryId = some reply.queryId ∧ caller.pid = reply.pid ∧ caller.sender = .unsent
  sending : ∀ (pid : Pid) (queryId : QueryId) (result : QueryResult) (place : ℕ),
    s.native pid = some (.sending queryId result place) →
    place < s.callers.length ∧ (∀ caller : QueryCaller, s.callers[place]? = some caller →
      caller.queryId = some queryId ∧ caller.sender = .unsent) ∧ ∀ reply ∈ s.pending, reply.queryId ≠ queryId
  alone : ∀ (pid other : Pid) (queryId : QueryId) (result result' : QueryResult) (place place' : ℕ),
    s.native pid = some (.sending queryId result place) →
      s.native other = some (.sending queryId result' place') → pid = other

theorem identified_start : start.Identified := by
  refine ⟨?_, ?_, ?_, ?_, ?_, ?_, ?_⟩ <;> simp [start]

/-- Callers and replies stay as they are, and no native takes a reply. -/
theorem Identified.of_eq (hs : s.Identified) (hissued : s'.issued = s.issued)
    (hcallers : s'.callers = s.callers) (hpend : s'.pending = s.pending)
    (hnat : ∀ pid queryId result place, s'.native pid = some (.sending queryId result place) →
        s.native pid = some (.sending queryId result place)) : s'.Identified := by
  obtain ⟨issued, distinct, early, bound, parked, sending, alone⟩ := hs
  refine ⟨?_, ?_, ?_, ?_, ?_, ?_, ?_⟩ <;> grind

/-- One reply of a caller is parked at most. -/
theorem Identified.eq_of_caller (hs : s.Identified) {reply other : PendingReply}
    (hreply : reply ∈ s.pending) (hother : other ∈ s.pending) (h : reply.caller = other.caller) :
    reply = other := by
  obtain ⟨caller, hcall⟩ : ∃ caller, s.callers[reply.caller]? = some caller :=
    ⟨_, List.getElem?_eq_getElem (hs.bound reply hreply)⟩
  obtain ⟨hid, hpid, -⟩ := hs.parked reply hreply caller hcall
  obtain ⟨hid', hpid', -⟩ := hs.parked other hother caller (h ▸ hcall)
  cases reply
  cases other
  grind

theorem Identified.dropReplies (hs : s.Identified) (drops : PendingReply → Bool) :
    (s.dropReplies drops).Identified := by
  have hunique : ∀ reply ∈ s.pending, ∀ other ∈ s.pending, reply.caller = other.caller →
    reply = other :=
    fun _ hreply _ hother => hs.eq_of_caller hreply hother
  obtain ⟨issued, distinct, early, bound, parked, sending, alone⟩ := hs
  have hlen : (s.dropReplies drops).callers.length = s.callers.length := by
    simp [QueryMailbox.dropReplies]
  have hpend {reply : PendingReply} : reply ∈ (s.dropReplies drops).pending ↔ reply ∈ s.pending ∧ drops reply = false := by
    simp [QueryMailbox.dropReplies]
  refine ⟨?_, ?_, ?_, ?_, ?_, ?_, ?_⟩
  · simp only [callers_dropReplies_iff, show (s.dropReplies drops).issued = s.issued from rfl]
    grind
  · simp only [callers_dropReplies_iff]
    grind
  · simp only [callers_dropReplies_iff]
    grind
  · grind
  · simp only [callers_dropReplies_iff, hpend]
    grind
  · simp only [callers_dropReplies_iff, hpend, hlen, show (s.dropReplies drops).native =
      s.native from rfl]
    grind
  · exact alone

theorem Identified.setNative (hs : s.Identified) (pid : Pid) (native : Option NativeStage)
    (hnat : ∀ queryId result place, native ≠ some (.sending queryId result place)) :
    (s.setNative pid native).Identified := by
  refine hs.of_eq rfl rfl rfl fun other queryId result place hother => ?_
  simp only [QueryMailbox.setNative, Function.update_apply] at hother
  split at hother
  · exact absurd hother (hnat _ _ _)
  · exact hother

/-- A caller that has no query identifier is not about to be answered. -/
theorem Identified.not_held (hs : s.Identified) (hcall : s.callers[place]? = some caller)
    (hnone : caller.queryId = none) :
    (∀ reply ∈ s.pending, reply.caller ≠ place) ∧
      ∀ pid queryId result, s.native pid ≠ some (.sending queryId result place) := by
  constructor
  · rintro reply hreply rfl
    obtain ⟨hid, -⟩ := hs.parked reply hreply caller hcall
    rw [hnone] at hid
    cases hid
  · intro pid queryId result hstg
    obtain ⟨hid, -⟩ := (hs.sending pid queryId result place hstg).2.1 caller hcall
    rw [hnone] at hid
    cases hid

/-- A caller changes, but not in its identity, and its sender only if no one has it. -/
theorem Identified.updateCaller (hs : s.Identified) (hcall : s.callers[place]? = some caller)
    (changed : QueryCaller) (hpid : changed.pid = caller.pid)
    (hid : changed.queryId = caller.queryId)
    (hsender : changed.sender = caller.sender ∨ (∀ reply ∈ s.pending, reply.caller ≠ place) ∧
        ∀ pid queryId result, s.native pid ≠ some (.sending queryId result place))
    (hearly : changed.phase.early = true → caller.phase.early = true ∧ changed.sender = .unsent ∧
        changed.closed = false) : (s.updateCaller place fun _ => changed).Identified := by
  obtain ⟨issued, distinct, early, bound, parked, sending, alone⟩ := hs
  have hlen : (s.callers.modify place fun _ => changed).length = s.callers.length :=
    List.length_modify ..
  simp only [QueryMailbox.updateCaller]
  refine ⟨?_, ?_, ?_, ?_, ?_, ?_, alone⟩
  · simp only [callers_update_iff hcall]
    grind
  · simp only [callers_update_iff hcall]
    grind
  · simp only [callers_update_iff hcall]
    grind
  · grind
  · simp only [callers_update_iff hcall]
    grind
  · simp only [callers_update_iff hcall, hlen]
    grind

/-- A dropped sender changes nothing else of a caller. -/
theorem exists_caller_of_dropReplies (drops : PendingReply → Bool)
    (h : s.callers[place]? = some caller) :
    ∃ found, (s.dropReplies drops).callers[place]? = some found ∧
      (found = caller ∨ found = caller.dropSender) := by
  by_cases hdrops : ∃ reply ∈ s.pending, drops reply = true ∧ reply.caller = place
  · exact ⟨caller.dropSender, callers_dropReplies_iff.mpr ⟨caller, h, .inl ⟨hdrops, rfl⟩⟩, .inr rfl⟩
  · push Not at hdrops
    exact ⟨caller, callers_dropReplies_iff.mpr ⟨caller, h, .inr ⟨hdrops, rfl⟩⟩, .inl rfl⟩

theorem Identified.callerMove (hs : s.Identified) (hcall : s.callers[place]? = some caller)
    (hmove : CallerMove s place caller s') : s'.Identified := by
  have hdropped {drops : PendingReply → Bool} {phase : QueryPhase}
      (hph : phase.early = true → caller.phase.early = true) :
      ((s.dropReplies drops).setPhase place phase).Identified := by
    obtain ⟨found, hfd, hsame⟩ := exists_caller_of_dropReplies drops hcall
    have hdrop := hs.dropReplies drops
    rw [setPhase_eq hfd]
    refine hdrop.updateCaller hfd _ rfl rfl (.inl rfl) fun h => ?_
    have hearly : found.phase.early = true := by rcases hsame with rfl | rfl <;> simpa using hph h
    exact ⟨hearly, (hdrop.early place found hfd hearly).2⟩
  cases hmove with
  | @goes phase closed hgoes =>
    refine hs.updateCaller hcall _ rfl rfl (.inl rfl) fun hph => ?_
    cases hgoes with
    | finds hbef =>
      have hearly : caller.phase.early = true := by rw [hbef]; rfl
      exact ⟨hearly, (hs.early place caller hcall hearly).2⟩
    | _ => simp [QueryPhase.early] at hph
  | misses hbef hnone =>
    have hearly : caller.phase.early = true := by rw [hbef]; rfl
    exact Identified.of_eq (hs.updateCaller hcall { caller with phase := .unregistered } rfl rfl (.inl rfl)
      fun _ => ⟨hearly, (hs.early place caller hcall hearly).2⟩) rfl rfl rfl fun _ _ _ _ hnat => hnat
  | probes hbef herr =>
    obtain ⟨hnone, -, -⟩ := hs.early place caller hcall (by rw [hbef]; rfl)
    exact (hs.updateCaller hcall { caller with phase := .waiting, sender := .sent (.error _) } rfl rfl
      (.inr (hs.not_held hcall hnone)) (by simp [QueryPhase.early])).of_eq rfl rfl rfl fun _ _ _ _ hnat => hnat
  | fails hbef error =>
    exact Identified.of_eq (hs.updateCaller hcall { caller with phase := .undelivered error } rfl rfl (.inl rfl)
      (by simp [QueryPhase.early])) rfl rfl rfl fun _ _ _ _ hnat => hnat
  | prunes hbef => exact hdropped fun _ => by rw [hbef]; rfl
  | @parks hbef queryId hfresh =>
    have hearly := hs.early place caller hcall (by rw [hbef]; rfl)
    obtain ⟨issued, distinct, early, bound, parked, sending, alone⟩ := hs
    have hlt : place < s.callers.length := (List.getElem?_eq_some_iff.mp hcall).1
    have hlen {changed : QueryCaller} : (s.callers.modify place fun _ => changed).length =
      s.callers.length :=
      List.length_modify ..
    simp only [QueryMailbox.updateCaller]
    refine ⟨?_, ?_, ?_, ?_, ?_, ?_, alone⟩
    · simp only [callers_update_iff hcall]
      grind
    · simp only [callers_update_iff hcall]
      grind
    · simp only [callers_update_iff hcall]
      grind [QueryPhase.early]
    · grind
    · simp only [callers_update_iff hcall]
      grind
    · simp only [callers_update_iff hcall, hlen]
      grind
  | pushes hbef hid =>
    exact Identified.of_eq (hs.updateCaller hcall { caller with phase := .queued } rfl rfl (.inl rfl)
      (by simp [QueryPhase.early])) rfl rfl rfl fun _ _ _ _ hnat => hnat
  | unqueues hbef hid =>
    exact Identified.of_eq (hs.updateCaller hcall { caller with phase := .unqueued _ } rfl rfl (.inl rfl)
      (by simp [QueryPhase.early])) rfl rfl rfl fun _ _ _ _ hnat => hnat
  | unparks hbef hid => exact hdropped (by simp [QueryPhase.early])

/-- The native that is about to send is the only one that may. -/
theorem Identified.not_held_of_sending (hs : s.Identified)
    (hstg : s.native pid = some (.sending queryId result place))
    (hcall : s.callers[place]? = some caller) :
    (∀ reply ∈ s.pending, reply.caller ≠ place) ∧
      ∀ other queryId' result', (s.setNative pid none).native other ≠
        some (.sending queryId' result' place) := by
  obtain ⟨-, hsame, hnone⟩ := hs.sending pid queryId result place hstg
  have hid := (hsame caller hcall).1
  constructor
  · rintro reply hreply rfl
    have hid' := (hs.parked reply hreply caller hcall).1
    exact hnone reply hreply (Option.some.inj (hid'.symm.trans hid))
  · intro other queryId' result' hother
    simp only [QueryMailbox.setNative, Function.update_apply] at hother
    split at hother
    · cases hother
    · rename_i hne
      have hid' := ((hs.sending other queryId' result' place hother).2.1 caller hcall).1
      obtain rfl : queryId' = queryId := Option.some.inj (hid'.symm.trans hid)
      exact hne (hs.alone other pid queryId' result' result place place hother hstg)

/-- A native is done with the reply that it had. -/
theorem Identified.sent (hs : s.Identified)
    (hstg : s.native pid = some (.sending queryId result place))
    (hcall : s.callers[place]? = some caller) (changed : QueryCaller)
    (hpid : changed.pid = caller.pid) (hid : changed.queryId = caller.queryId)
    (hph : changed.phase = caller.phase) :
    ((s.updateCaller place fun _ => changed).setNative pid none).Identified := by
  have hearly : changed.phase.early ≠ true := by
    intro hearly
    rw [hph] at hearly
    have hnone := (hs.early place caller hcall hearly).1
    rw [((hs.sending pid queryId result place hstg).2.1 caller hcall).1] at hnone
    cases hnone
  exact (hs.setNative pid none (by simp)).updateCaller hcall _ hpid hid
    (.inr (hs.not_held_of_sending hstg hcall)) fun h => absurd h hearly

theorem Identified.nativeMove (hs : s.Identified) (hstg : s.native pid = some stage)
    (hmove : NativeMove s pid stage s') : s'.Identified := by
  cases hmove with
  | goes hgoes =>
    refine hs.setNative _ _ fun queryId result place h => ?_
    cases hgoes with
    | @passes operation awaits _ => cases awaits <;> simp at h
    | _ => simp at h
  | refuses | registers | releases | pops | serves =>
    exact (hs.setNative _ _ (by simp)).of_eq rfl rfl rfl fun _ _ _ _ hnat => hnat
  | @takes queryId result reply hreply hid =>
    obtain ⟨issued, distinct, early, bound, parked, sending, alone⟩ := hs
    refine ⟨issued, distinct, early, ?_, ?_, ?_, ?_⟩ <;>
      simp only [QueryMailbox.setNative, Function.update_apply] <;> grind
  | drops hcall hcl =>
    rw [updateCaller_eq hcall]
    exact (hs.sent hstg hcall _ (by simp) (by simp) (by simp)).of_eq rfl rfl rfl fun _ _ _ _ hnat =>
      hnat
  | @sends queryId result place caller hcall hopen =>
    exact Identified.of_eq (hs.sent hstg hcall { caller with sender := .sent result } rfl rfl rfl)
      rfl rfl rfl
      fun _ _ _ _ hnat => hnat
  | discards => exact (hs.dropReplies _).setNative _ _ (by simp)

theorem Identified.step {action : QueryAction} (hs : s.Identified) (h : s.step action = some s') :
    s'.Identified := by
  cases step_moves h with
  | spawns | exits | cleansQueries | cleansServicing | cleansHandlers | records =>
    exact hs.of_eq rfl rfl rfl fun _ _ _ _ hnat => hnat
  | cleansReplies => exact (hs.dropReplies _).of_eq rfl rfl rfl fun _ _ _ _ hnat => hnat
  | calls hborn =>
    obtain ⟨issued, distinct, early, bound, parked, sending, alone⟩ := hs
    refine ⟨?_, ?_, ?_, ?_, ?_, ?_, ?_⟩ <;> simp only [List.getElem?_append] <;> grind
  | caller hcall hmove => exact hs.callerMove hcall hmove
  | @enters pid native hlive hnone =>
    exact hs.setNative _ _ fun queryId result place h => by cases native <;>
      simp [QueryNative.stage] at h
  | native hstg hmove => exact hs.nativeMove hstg hmove
  | finishes hstg => exact hs.setNative _ _ (by simp)

/-! ### What becomes of a caller -/

/-- The process has ended. -/
def Ended (s : QueryMailbox) (pid : Pid) : Prop := ∃ cleanup, s.status pid = .exited cleanup

/-- What a step makes of a caller. -/
inductive Becomes (s s' : QueryMailbox) (place : ℕ) (caller : QueryCaller) :
    QueryCaller → Prop where
  | stays : Becomes s s' place caller caller
  /-- Its reply is pruned, cleaned up or discarded. -/
  | loses {reply : PendingReply} (hreply : reply ∈ s.pending) (hplace : reply.caller = place)
    (hwhy : caller.closed = true ∨ Ended s reply.pid ∨
      ∃ pid operation query, s.native pid = some (.discarding operation query) ∧ reply.queryId = query.queryId) :
    Becomes s s' place caller caller.dropSender
  | left (hcl : caller.closed = true) : Becomes s s' place caller caller.dropSender
  | goes {phase : QueryPhase} {closed : Bool} (h : CallerGoes s caller phase closed) :
    Becomes s s' place caller { caller with phase := phase, closed := closed }
  | misses (h : caller.phase = .delivering) (hnone : (caller.pid, caller.name) ∉ s.handlers)
    (hevents : s'.events = s.events ++ [.missed place]) : Becomes s s' place caller { caller with phase := .unregistered }
  | probes (h : caller.phase = .unregistered) {live : Bool} {error : QueryError}
    (herr : live = true ∧ s.status caller.pid = .live ∧ error = .unknownQuery caller.name ∨
      s.status caller.pid ≠ .live ∧ error = .replyDropped)
    (hevents : s'.events = s.events ++ [.probed place live]) :
    Becomes s s' place caller { caller with phase := .waiting, sender := .sent (.error error) }
  | fails {error : String} (h : caller.phase = .queued)
    (hevents : s'.events = s.events ++ [.undelivered place error]) :
    Becomes s s' place caller { caller with phase := .undelivered error }
  | parks (h : caller.phase = .pruned) {queryId : QueryId} (hfresh : queryId ∉ s.issued) :
    Becomes s s' place caller { caller with phase := .parked, queryId := some queryId }
  | enqueues {phase : QueryPhase} (hph : phase = .pruned ∨ phase = .queued ∨ ∃ error, phase = .unqueued error)
    (hbef : caller.phase = .registered ∨ caller.phase = .parked ∨ ∃ error, caller.phase = .undelivered error)
    (hfail : phase.failure = caller.phase.failure) :
    Becomes s s' place caller { caller with phase := phase }
  | unparks {error : String} (h : caller.phase = .unqueued error) {changed : QueryCaller}
    (hchg : changed = caller ∨ changed = caller.dropSender) : Becomes s s' place caller
    { changed with phase := .unparked error }
  | sends {pid : Pid} {queryId : QueryId} {result : QueryResult}
    (hid : caller.queryId = some queryId) (huns : caller.sender = .unsent)
    (hev : .replied pid queryId result ∈ s'.events) : Becomes s s' place caller { caller with sender := .sent result }

theorem becomes_update (hcall : s.callers[place]? = some caller)
    (hchg : Becomes s s' place caller changed)
    (h : (s.callers.modify place fun _ => changed)[other]? = some caller') :
    ∃ found, s.callers[other]? = some found ∧ Becomes s s' other found caller' := by
  rcases (callers_update_iff hcall).mp h with ⟨rfl, rfl⟩ | ⟨-, hfd⟩
  · exact ⟨caller, hcall, hchg⟩
  · exact ⟨caller', hfd, .stays⟩

theorem becomes_dropReplies
    (hwhy : ∀ reply ∈ s.pending, drops reply = true →
        ∀ caller, s.callers[reply.caller]? = some caller → caller.closed = true ∨
      Ended s reply.pid ∨ ∃ pid operation query, s.native pid = some (.discarding operation query) ∧
      reply.queryId = query.queryId) (h : (s.dropReplies drops).callers[place]? = some caller') :
    ∃ caller, s.callers[place]? = some caller ∧ Becomes s s' place caller caller' := by
  obtain ⟨caller, hcall, ⟨⟨reply, hreply, hdrops, rfl⟩, rfl⟩ | ⟨-, rfl⟩⟩ :=
    callers_dropReplies_iff.mp h
  · exact ⟨caller, hcall, .loses hreply rfl (hwhy reply hreply hdrops caller hcall)⟩
  · exact ⟨_, hcall, .stays⟩

/-- A caller is a new one, or became what it is from what it was. -/
theorem Identified.becomes {action : QueryAction} (hs : s.Identified) (h : s.step action = some s')
    (hcall' : s'.callers[place]? = some caller') :
    (∃ caller, s.callers[place]? = some caller ∧ Becomes s s' place caller caller') ∨
      ∃ pid name, caller' = ⟨pid, name, .delivering, none, .unsent, false⟩ ∧
        s.status pid ≠ .unborn ∧ s.callers[place]? = none := by
  have hsame : s'.callers = s.callers →
    (∃ caller, s.callers[place]? = some caller ∧ Becomes s s' place caller caller') ∨
      ∃ pid name, caller' = ⟨pid, name, .delivering, none, .unsent, false⟩ ∧
        s.status pid ≠ .unborn ∧ s.callers[place]? = none :=
    fun heq => .inl ⟨caller', heq ▸ hcall', .stays⟩
  cases step_moves h with
  | cleansReplies hbef =>
    refine .inl (becomes_dropReplies (fun reply hreply hdrops _ _ => .inr (.inl ?_)) hcall')
    obtain rfl : reply.pid = _ := by simpa using hdrops
    exact ⟨_, hbef⟩
  | @calls pid name hborn =>
    rw [List.getElem?_append] at hcall'
    split at hcall'
    · exact .inl ⟨caller', hcall', .stays⟩
    · rw [List.getElem?_singleton] at hcall'
      split at hcall'
      · cases hcall'
        rename_i hle _
        exact .inr ⟨pid, name, rfl, hborn, List.getElem?_eq_none (Nat.le_of_not_lt hle)⟩
      · cases hcall'
  | @caller other _ found _ hfd hmove =>
    cases hmove with
    | goes hgoes => exact .inl (becomes_update hfd (.goes hgoes) hcall')
    | misses hbef hnone => exact .inl (becomes_update hfd (.misses hbef hnone rfl) hcall')
    | probes hbef herr => exact .inl (becomes_update hfd (.probes hbef herr rfl) hcall')
    | fails hbef error => exact .inl (becomes_update hfd (.fails hbef rfl) hcall')
    | prunes hbef =>
      have hearly := hs.early other found hfd (by rw [hbef]; rfl)
      have hkept : (s.dropReplies fun reply => s.isClosed reply.caller).callers[other]? = some found :=
        callers_dropReplies_iff.mpr ⟨found, hfd, .inr ⟨fun reply hreply _ => (hs.not_held hfd hearly.1).1 reply hreply, rfl⟩⟩
      rw [setPhase_eq hkept] at hcall'
      rcases (callers_update_iff hkept).mp hcall' with ⟨rfl, rfl⟩ | ⟨-, hdropped⟩
      · exact .inl ⟨found, hfd, .enqueues (by simp) (by simp [hbef]) (by rw [hbef]; rfl)⟩
      · refine .inl (becomes_dropReplies (fun reply hreply hdrops caller hcall => .inl ?_) hdropped)
        simpa [isClosed, hcall] using hdrops
    | parks hbef hfresh => exact .inl (becomes_update hfd (.parks hbef hfresh) hcall')
    | pushes hbef | unqueues hbef =>
      exact .inl (becomes_update hfd (.enqueues (by simp) (by simp [hbef])
          (by rw [hbef]; rfl)) hcall')
    | @unparks error hbef queryId hid =>
      obtain ⟨changed, hchg, hchoice⟩ := exists_caller_of_dropReplies (fun reply => reply.queryId == queryId) hfd
      rw [setPhase_eq hchg] at hcall'
      rcases (callers_update_iff hchg).mp hcall' with ⟨rfl, rfl⟩ | ⟨hother, hdropped⟩
      · exact .inl ⟨found, hfd, .unparks hbef hchoice⟩
      · obtain ⟨caller, hcall, ⟨⟨reply, hreply, hdrops, rfl⟩, -⟩ | ⟨-, rfl⟩⟩ := callers_dropReplies_iff.mp hdropped
        · -- Only the reply of the caller itself is taken.
          have hsame' : reply.queryId = queryId := by simpa using hdrops
          have hid' := (hs.parked reply hreply caller hcall).1
          exact absurd (hs.distinct _ _ caller found queryId hcall hfd (hsame' ▸ hid') hid) hother
        · exact .inl ⟨_, hcall, .stays⟩
  | native hstg hmove =>
    cases hmove with
    | drops hfd hcl =>
      rw [updateCaller_eq hfd] at hcall'
      exact .inl (becomes_update hfd (.left hcl) hcall')
    | @sends queryId result other found hfd =>
      obtain ⟨hid, huns⟩ := (hs.sending _ _ _ _ hstg).2.1 found hfd
      exact .inl (becomes_update hfd (.sends hid huns (List.mem_append_right _ (List.mem_singleton_self _))) hcall')
    | discards =>
      refine .inl (becomes_dropReplies (fun reply hreply hdrops _ _ => .inr (.inr ⟨_, _, _, hstg, ?_⟩)) hcall')
      simpa using hdrops
    | _ => exact hsame rfl
  | _ => exact hsame rfl

/-! ### What stays of a caller -/

/-- A caller keeps its identity and what was sent to it, and its receiver does not come back. -/
structure Later (caller caller' : QueryCaller) : Prop where
  pid : caller'.pid = caller.pid
  name : caller'.name = caller.name
  queryId : ∀ queryId, caller.queryId = some queryId → caller'.queryId = some queryId
  sender : caller.sender ≠ .unsent → caller'.sender = caller.sender
  closed : caller.closed = true → caller'.closed = true

theorem later_dropSender (caller : QueryCaller) : Later caller caller.dropSender := by
  refine ⟨by simp, by simp, by simp, fun hsent => ?_, by simp⟩
  rw [QueryCaller.dropSender_sender]
  split
  · rename_i huns
    exact absurd huns hsent
  · rfl

theorem Becomes.later (hs : s.Identified) (hcall : s.callers[place]? = some caller)
    (h : Becomes s s' place caller caller') : Later caller caller' := by
  have hearly := hs.early place caller hcall
  cases h with
  | loses | left => exact later_dropSender caller
  | goes hgoes =>
    refine ⟨rfl, rfl, fun _ h => h, fun _ => rfl, fun hcl => ?_⟩
    cases hgoes <;> first | rfl | exact hcl
  | probes hbef =>
    obtain ⟨-, huns, -⟩ := hearly (by rw [hbef]; rfl)
    exact ⟨rfl, rfl, fun _ h => h, fun hsent => absurd huns hsent, id⟩
  | parks hbef =>
    obtain ⟨hnone, -, -⟩ := hearly (by rw [hbef]; rfl)
    exact ⟨rfl, rfl, by simp [hnone], fun _ => rfl, id⟩
  | unparks _ hchg =>
    rcases hchg with rfl | rfl
    · exact ⟨rfl, rfl, fun _ h => h, fun _ => rfl, id⟩
    · obtain ⟨hpid, hname, hid, hsender, hcl⟩ := later_dropSender caller
      exact ⟨hpid, hname, hid, hsender, hcl⟩
  | sends _ huns => exact ⟨rfl, rfl, fun _ h => h, fun hsent => absurd huns hsent, id⟩
  | _ => exact ⟨rfl, rfl, fun _ h => h, fun _ => rfl, id⟩

/-- No caller is forgotten. -/
theorem callers_length_le {action : QueryAction} (h : s.step action = some s') :
    s.callers.length ≤ s'.callers.length := by
  cases step_moves h with
  | cleansReplies => simp [dropReplies]
  | calls => simp
  | caller _ hmove => cases hmove <;> simp [updateCaller, setPhase, dropReplies, log, setQueue]
  | native _ hmove =>
    cases hmove <;> simp [updateCaller, dropReplies, log, setNative, setQueue, setServicing]
  | _ => exact le_rfl

/-- Every caller goes on. -/
theorem Identified.exists_later {action : QueryAction} (hs : s.Identified)
    (h : s.step action = some s') (hcall : s.callers[place]? = some caller) :
    ∃ caller', s'.callers[place]? = some caller' ∧ Later caller caller' := by
  have hlt := (List.getElem?_eq_some_iff.mp hcall).1.trans_le (callers_length_le h)
  have hcall' := List.getElem?_eq_getElem hlt
  rcases hs.becomes h hcall' with ⟨found, hfd, hbec⟩ | ⟨-, -, -, -, hnone⟩
  · obtain rfl := Option.some.inj (hcall.symm.trans hfd)
    exact ⟨_, hcall', hbec.later hs hcall⟩
  · rw [hcall] at hnone
    cases hnone

/-! ### Queries in order -/

/-- The queries that went into the queue of a process. -/
def queuedAt (pid : Pid) (events : List QueryEvent) : List PendingQuery :=
  events.filterMap fun
    | .queued other query => if other = pid then some query else none
    | _ => none

/-- The queries that were handed to a workflow. -/
def handedTo (pid : Pid) (events : List QueryEvent) : List PendingQuery :=
  events.filterMap fun
    | .handedOver other query => if other = pid then some query else none
    | _ => none

/-- The query that a native has taken out of the queue, unless it is discarded. -/
def inHand : Option NativeStage → List PendingQuery
  | some (.inspecting _ query) => [query]
  | some (.serving _ query) => [query]
  | _ => []

/-- A caller asks this query of the process. -/
def Asked (s : QueryMailbox) (pid : Pid) (query : PendingQuery) : Prop :=
  ∃ (place : ℕ) (caller : QueryCaller), s.callers[place]? = some caller ∧ caller.pid = pid ∧
    caller.name = query.name ∧
    caller.queryId = some query.queryId

/-- A process gets its queries in the order in which they were queued, each once. -/
structure Served (s : QueryMailbox) : Prop where
  fifo : ∀ pid, (handedTo pid s.events ++ inHand (s.native pid) ++ s.queue pid).Sublist
    (queuedAt pid s.events)
  once : ∀ pid, ((queuedAt pid s.events).map PendingQuery.queryId).Nodup
  asked : ∀ (pid : Pid) (query : PendingQuery), query ∈ queuedAt pid s.events → Asked s pid query
  parked : ∀ (place : ℕ) (caller : QueryCaller) (queryId : QueryId),
    s.callers[place]? = some caller → caller.phase = .parked →
    caller.queryId = some queryId → ∀ (pid : Pid), ∀ query ∈ queuedAt pid s.events,
      query.queryId ≠ queryId
  discarding : ∀ (pid : Pid) (operation : String) (query : PendingQuery),
    s.native pid = some (.discarding operation query) →
    query ∈ queuedAt pid s.events

theorem served_start : start.Served := by
  refine ⟨?_, ?_, ?_, ?_, ?_⟩ <;> simp [start, handedTo, inHand, queuedAt]

theorem Asked.step {action : QueryAction} {query : PendingQuery} (h : Asked s pid query)
    (hs : s.Identified) (hstep : s.step action = some s') : Asked s' pid query := by
  obtain ⟨place, caller, hcall, hpid, hname, hid⟩ := h
  obtain ⟨caller', hcall', hlat⟩ := hs.exists_later hstep hcall
  exact ⟨place, caller', hcall', hlat.pid.trans hpid, hlat.name.trans hname, hlat.queryId _ hid⟩

/-- A caller that is parked was parked, or has a fresh identifier. -/
theorem Becomes.parked (h : Becomes s s' place caller caller') (hph : caller'.phase = .parked)
    (hid : caller'.queryId = some queryId) :
    (caller.phase = .parked ∧ caller.queryId = some queryId) ∨ queryId ∉ s.issued := by
  cases h with
  | stays | sends => exact .inl ⟨hph, hid⟩
  | loses | left => exact .inl ⟨by simpa using hph, by simpa using hid⟩
  | goes hgoes => cases hgoes <;> cases hph
  | parks _ hfresh =>
    cases hid
    exact .inr hfresh
  | enqueues hph' => rcases hph' with rfl | rfl | ⟨_, rfl⟩ <;> cases hph
  | _ => cases hph

section Step

variable {action : QueryAction} (hserv : s.Served) (hs : s.Identified) (h : s.step action = some s')
include hserv hs h

theorem Served.parked_step (hcall' : s'.callers[place]? = some caller')
    (hph : caller'.phase = .parked) (hid : caller'.queryId = some queryId) (pid : Pid) :
    ∀ query ∈ queuedAt pid s.events, query.queryId ≠ queryId := by
  rcases hs.becomes h hcall' with ⟨caller, hcall, hbec⟩ | ⟨_, _, rfl, -⟩
  · rcases hbec.parked hph hid with ⟨hwas, hsame⟩ | hfresh
    · exact hserv.parked place caller queryId hcall hwas hsame pid
    · rintro query hquery rfl
      obtain ⟨place', asker, hasker, -, -, hid'⟩ := hserv.asked pid query hquery
      exact hfresh (hs.issued place' asker _ hasker hid')
  · cases hph

/-- No query goes in or comes out of a queue. -/
theorem Served.frame (hqueued : ∀ pid, queuedAt pid s'.events = queuedAt pid s.events)
    (hhanded : ∀ pid, handedTo pid s'.events = handedTo pid s.events)
    (hqueue : ∀ pid, (inHand (s'.native pid) ++ s'.queue pid).Sublist
        (inHand (s.native pid) ++ s.queue pid))
    (hdisc : ∀ pid operation query, s'.native pid = some (.discarding operation query) →
        s.native pid = some (.discarding operation query) ∨ query ∈ inHand (s.native pid)) :
    s'.Served := by
  refine ⟨fun pid => ?_, fun pid => ?_, fun pid query hquery =>
      ?_, fun place caller queryId hcall hph hid pid => ?_,
    fun pid operation query hstg => ?_⟩
  · rw [hqueued, hhanded, List.append_assoc]
    exact ((hqueue pid).append_left _).trans (List.append_assoc .. ▸ hserv.fifo pid)
  · rw [hqueued]
    exact hserv.once pid
  · rw [hqueued] at hquery
    exact (hserv.asked pid query hquery).step hs h
  · rw [hqueued]
    exact hserv.parked_step hs h hcall hph hid pid
  · rw [hqueued]
    rcases hdisc pid operation query hstg with hbef | hhand
    · exact hserv.discarding pid operation query hbef
    · exact (hserv.fifo pid).subset (by simp [hhand])

/-- The natives are where they were, and no query goes in a queue. -/
theorem Served.keep (hqueued : ∀ pid, queuedAt pid s'.events = queuedAt pid s.events)
    (hhanded : ∀ pid, handedTo pid s'.events = handedTo pid s.events) (hnat : s'.native = s.native)
    (hqueue : ∀ pid, (s'.queue pid).Sublist (s.queue pid)) : s'.Served :=
  hserv.frame hs h hqueued hhanded (fun pid => hnat ▸ (hqueue pid).append_left _) fun _ _ _ hstg =>
    .inl (hnat ▸ hstg)

/-- A native goes on, with no more at hand than it had. -/
theorem Served.native {pid : Pid} {native : Option NativeStage} {queue : List PendingQuery}
    (hnat : s'.native = Function.update s.native pid native)
    (hqueue : s'.queue = Function.update s.queue pid queue)
    (hqueued : ∀ pid, queuedAt pid s'.events = queuedAt pid s.events)
    (hhanded : ∀ pid, handedTo pid s'.events = handedTo pid s.events)
    (hhand : (inHand native ++ queue).Sublist (inHand (s.native pid) ++ s.queue pid))
    (hdisc : ∀ operation query, native = some (.discarding operation query) →
        query ∈ inHand (s.native pid)) : s'.Served := by
  refine hserv.frame hs h hqueued hhanded (fun other => ?_) fun other operation query hstg => ?_
  · rw [hnat, hqueue]
    by_cases hother : other = pid
    · subst hother
      simpa using hhand
    · simp [hother]
  · rw [hnat, Function.update_apply] at hstg
    split at hstg
    · rename_i hother
      exact .inr (hother ▸ hdisc operation query hstg)
    · exact .inl hstg

theorem Served.nativeMove (hstg : s.native pid = some stage)
    (hmove : NativeMove s pid stage s') : s'.Served := by
  have hqueue : s.queue = Function.update s.queue pid (s.queue pid) :=
    (Function.update_eq_self ..).symm
  cases hmove with
  | goes hgoes =>
    refine hserv.native hs h rfl hqueue (fun _ => rfl) (fun _ => rfl) ?_
      fun operation query hdisc => ?_
    · rw [hstg]
      cases hgoes with
      | @passes operation awaits hnone => cases awaits <;> simp [inHand]
      | _ => simp [inHand]
    · rw [hstg]
      cases hgoes with
      | @passes operation awaits hnone => cases awaits <;> simp at hdisc
      | stale hcl =>
        simp only [Option.some.injEq, NativeStage.discarding.injEq] at hdisc
        simp [inHand, hdisc]
      | _ => simp at hdisc
  | refuses | registers | releases | drops | sends =>
    exact hserv.native hs h rfl hqueue
      (by simp [log, setNative, setServicing, updateCaller, queuedAt])
      (by simp [log, setNative, setServicing, updateCaller, handedTo]) (by simp [inHand]) (by simp)
  | takes | discards =>
    exact hserv.native hs h rfl hqueue (fun _ => rfl) (fun _ => rfl) (by simp [inHand]) (by simp)
  | pops hpopped =>
    refine hserv.native hs h rfl rfl (fun _ => rfl) (fun _ => rfl) ?_ (by simp)
    rw [hpopped]
    simp [inHand]
  | @serves operation query =>
    have hqueued (other : Pid) : queuedAt other (s.events ++ [.handedOver pid query]) =
        queuedAt other s.events := by
      simp [queuedAt]
    refine ⟨fun other => ?_, fun other => ?_, fun other found hfd => ?_, fun place caller queryId hcall hph hid other => ?_,
      fun other operation' found hother => ?_⟩
    · change (handedTo other (s.events ++ [_]) ++ inHand (Function.update s.native pid none other) ++ s.queue other).Sublist
        (queuedAt other (s.events ++ [_]))
      rw [hqueued]
      by_cases hother : other = pid
      · subst hother
        simpa [handedTo, inHand, hstg] using hserv.fifo other
      · simpa [handedTo, hother, Ne.symm hother] using hserv.fifo other
    · change ((queuedAt other (s.events ++ [_])).map PendingQuery.queryId).Nodup
      rw [hqueued]
      exact hserv.once other
    · change found ∈ queuedAt other (s.events ++ [_]) at hfd
      rw [hqueued] at hfd
      exact (hserv.asked other found hfd).step hs h
    · change ∀ query ∈ queuedAt other (s.events ++ [_]), _
      rw [hqueued]
      exact hserv.parked_step hs h hcall hph hid other
    · change found ∈ queuedAt other (s.events ++ [_])
      rw [hqueued]
      simp only [log, setNative, Function.update_apply] at hother
      split at hother
      · cases hother
      · exact hserv.discarding other operation' found hother

theorem Served.callerMove (hcall : s.callers[place]? = some caller)
    (hmove : CallerMove s place caller s') : s'.Served := by
  cases hmove with
  | goes | prunes | parks | unparks =>
    exact hserv.keep hs h (fun _ => rfl) (fun _ => rfl) rfl fun _ => .refl _
  | misses | probes | fails =>
    exact hserv.keep hs h (by simp [log, updateCaller, queuedAt])
      (by simp [log, updateCaller, handedTo]) rfl fun _ => .refl _
  | @pushes hbef queryId hid =>
    have hnew := hserv.parked place caller queryId hcall hbef hid
    have hqueued (other : Pid) : queuedAt other
      (s.events ++ [.queued caller.pid ⟨queryId, caller.name⟩]) =
        queuedAt other s.events ++ if caller.pid = other then [⟨queryId, caller.name⟩] else [] := by
      by_cases hother : caller.pid = other <;> simp [queuedAt, hother]
    have hhanded (other : Pid) : handedTo other
        (s.events ++ [.queued caller.pid ⟨queryId, caller.name⟩]) = handedTo other s.events := by
      simp [handedTo]
    refine ⟨fun other => ?_, fun other => ?_, fun other query hquery =>
        ?_, fun other found queryId' hfd hph hid' pid query hquery => ?_,
      fun other operation query hstg => ?_⟩
    · change (handedTo other (s.events ++ [_]) ++ inHand (s.native other) ++ Function.update s.queue caller.pid _ other).Sublist
        (queuedAt other (s.events ++ [_]))
      rw [hqueued, hhanded]
      by_cases hother : other = caller.pid
      · subst hother
        simpa [← List.append_assoc] using (hserv.fifo caller.pid).append (List.Sublist.refl [⟨queryId, caller.name⟩])
      · simpa [hother, Ne.symm hother] using hserv.fifo other
    · change ((queuedAt other (s.events ++ [_])).map PendingQuery.queryId).Nodup
      rw [hqueued]
      split
      · rw [List.map_append, List.map_singleton, ← List.concat_eq_append, List.nodup_concat]
        refine ⟨fun hmem => ?_, hserv.once other⟩
        obtain ⟨query, hquery, hsame⟩ := List.mem_map.mp hmem
        exact hnew other query hquery hsame
      · simpa using hserv.once other
    · change query ∈ queuedAt other (s.events ++ [_]) at hquery
      rw [hqueued, List.mem_append] at hquery
      rcases hquery with hquery | hquery
      · exact (hserv.asked other query hquery).step hs h
      · split at hquery
        · rename_i hother
          obtain rfl := List.mem_singleton.mp hquery
          exact Asked.step ⟨place, caller, hcall, hother, rfl, hid⟩ hs h
        · cases hquery
    · change query ∈ queuedAt pid (s.events ++ [_]) at hquery
      rw [hqueued, List.mem_append] at hquery
      rcases hquery with hquery | hquery
      · exact hserv.parked_step hs h hfd hph hid' pid query hquery
      · split at hquery
        · obtain rfl := List.mem_singleton.mp hquery
          rintro rfl
          rcases (callers_update_iff hcall).mp hfd with ⟨rfl, rfl⟩ | ⟨hother, hfd⟩
          · cases hph
          · exact hother (hs.distinct other place found caller _ hfd hcall hid' hid)
        · cases hquery
    · change query ∈ queuedAt other (s.events ++ [_])
      rw [hqueued]
      exact List.mem_append_left _ (hserv.discarding other operation query hstg)
  | unqueues =>
    refine hserv.keep hs h (fun _ => rfl) (fun _ => rfl) rfl fun other => ?_
    simp only [updateCaller, setQueue, Function.update_apply]
    split
    · rename_i hother
      exact hother ▸ List.filter_sublist
    · exact .refl _

theorem Served.step : s'.Served := by
  have hqueue (pid : Pid) : s.queue = Function.update s.queue pid (s.queue pid) :=
    (Function.update_eq_self ..).symm
  cases step_moves h with
  | @cleansQueries pid =>
    refine hserv.keep hs h (fun _ => rfl) (fun _ => rfl) rfl fun other => ?_
    simp only [setQueue, Function.update_apply]
    split
    · exact List.nil_sublist _
    · exact .refl _
  | cleansServicing | records =>
    exact hserv.keep hs h (by simp [log, queuedAt, setServicing])
      (by simp [log, handedTo, setServicing]) rfl fun _ => .refl _
  | caller hcall hmove => exact hserv.callerMove hs h hcall hmove
  | @enters pid native hlive hnone =>
    refine hserv.native hs h rfl (hqueue pid) (fun _ => rfl) (fun _ => rfl) ?_
      fun operation query hstg => ?_
    · rw [hnone]
      cases native <;> simp [inHand, QueryNative.stage]
    · cases native <;> simp [QueryNative.stage] at hstg
  | native hstg hmove => exact hserv.nativeMove hs h hstg hmove
  | @finishes pid operation hstg =>
    exact hserv.native hs h rfl (hqueue pid) (fun _ => rfl) (fun _ => rfl)
      (by simp [inHand, hstg]) (by simp)
  | _ => exact hserv.keep hs h (fun _ => rfl) (fun _ => rfl) rfl fun _ => .refl _

end Step

/-! ### Handlers that only read -/

/-- A query is handed to the workflow of a process. -/
def HandsOver (event : QueryEvent) (query : Pid × QueryId) : Prop :=
  ∃ handed : PendingQuery, event = .handedOver query.1 handed ∧ handed.queryId = query.2

/-- The process answers the query, or has ended. -/
def Releases (event : QueryEvent) (query : Pid × QueryId) : Prop :=
  event = .released query.1 query.2 ∨ event = .forgotten query.1

/-- A process that has a query to answer is marked so, and its natives do not get past their
guard. -/
structure Guarded (s : QueryMailbox) : Prop where
  behind : ∀ (pid : Pid) (stage : NativeStage), s.native pid = some stage → stage.guarded = true →
    s.servicing pid = none
  serviced : ∀ (pid : Pid) (queryId : QueryId), Since HandsOver Releases s.events (pid, queryId) →
    s.servicing pid = some queryId
  recorded : ∀ (before after : List QueryEvent) (pid : Pid) (operation : String),
    s.events = before ++ .recorded pid operation :: after →
      ∀ queryId, ¬ Since HandsOver Releases before (pid, queryId)

theorem guarded_start : start.Guarded :=
  ⟨by simp [start], fun _ _ h => absurd h not_since_nil, by simp [start]⟩

/-- Nothing is logged. -/
theorem Guarded.quiet (hs : s.Guarded) (hservicing : s'.servicing = s.servicing)
    (hevents : s'.events = s.events)
    (hbehind : ∀ pid stage, s'.native pid = some stage → stage.guarded = true →
        s.servicing pid = none) : s'.Guarded :=
  ⟨fun pid stage hstg hguarded => hservicing ▸ hbehind pid stage hstg hguarded,
    fun pid queryId h => hservicing ▸ hs.serviced pid queryId (hevents ▸ h),
    fun before after pid operation h => hs.recorded before after pid operation (hevents ▸ h)⟩

/-- One more event is logged. -/
theorem Guarded.logged (hs : s.Guarded) {event : QueryEvent}
    (hevents : s'.events = s.events ++ [event])
    (hbehind : ∀ pid stage, s'.native pid = some stage → stage.guarded = true →
        s'.servicing pid = none)
    (hserviced : ∀ pid queryId, HandsOver event (pid, queryId) ∨ s.servicing pid = some queryId ∧
        ¬ Releases event (pid, queryId) → s'.servicing pid = some queryId)
    (hrecd : ∀ pid operation, event = .recorded pid operation → s.servicing pid = none) :
    s'.Guarded := by
  refine ⟨hbehind, fun pid queryId hsince =>
      ?_, fun before after pid operation hspl queryId hsince => ?_⟩
  · rw [hevents, since_concat] at hsince
    exact hserviced pid queryId (hsince.imp_right fun h => ⟨hs.serviced pid queryId h.1, h.2⟩)
  · rw [hevents] at hspl
    rcases List.eq_nil_or_concat after with rfl | ⟨after, last, rfl⟩
    · obtain ⟨rfl, hlast⟩ := List.append_inj' hspl rfl
      have hnone := hrecd pid operation (List.singleton_inj.mp hlast)
      rw [hs.serviced pid queryId hsince] at hnone
      cases hnone
    · rw [List.concat_eq_append, ← List.cons_append, ← List.append_assoc] at hspl
      obtain ⟨hspl, -⟩ := List.append_inj' hspl rfl
      exact hs.recorded before after pid operation hspl queryId hsince

/-- A native goes on, past the guard only if it was or nothing is serviced. -/
theorem Guarded.behind_update (hs : s.Guarded) {native : Option NativeStage}
    (hnat : ∀ stage, native = some stage → stage.guarded = true → s.servicing pid = none)
    (other : Pid) (stage : NativeStage)
    (hstg : Function.update s.native pid native other = some stage)
    (hguarded : stage.guarded = true) : s.servicing other = none := by
  rw [Function.update_apply] at hstg
  split at hstg
  · rename_i hother
    exact hother ▸ hnat stage hstg hguarded
  · exact hs.behind other stage hstg hguarded

theorem Guarded.nativeMove (hs : s.Guarded) (hstg : s.native pid = some stage)
    (hmove : NativeMove s pid stage s') : s'.Guarded := by
  have hnext {native : Option NativeStage} (h : ∀ stage', native = some stage' →
      stage'.guarded = true → stage.guarded = true) :
      ∀ stage', native = some stage' → stage'.guarded = true → s.servicing pid = none :=
    fun stage' hnat hguarded => hs.behind pid stage hstg (h stage' hnat hguarded)
  have hdone : ∀ stage', (none : Option NativeStage) = some stage' → stage'.guarded = true → s.servicing pid = none := by simp
  cases hmove with
  | goes hgoes =>
    refine hs.quiet rfl rfl (hs.behind_update fun stage' hnat hguarded => ?_)
    obtain rfl := Option.some.inj hnat
    cases hgoes with
    | passes hnone => exact hnone
    | _ => exact hs.behind pid _ hstg rfl
  | refuses | registers | drops | sends =>
    exact hs.logged rfl (hs.behind_update hdone) (by simp [HandsOver]; tauto) (by simp)
  | @releases queryId result =>
    refine hs.logged rfl (fun other stage' hstg' hguarded => ?_) (fun other queryId' hhands => ?_) (by simp)
    · simp only [log, setNative, setServicing, Function.update_apply] at hstg' ⊢
      split at hstg'
      · cases hstg'
        cases hguarded
      · rename_i hother
        simpa [hother] using hs.behind other stage' hstg' hguarded
    · obtain ⟨_, hev, -⟩ | ⟨hbef, hnot⟩ := hhands
      · cases hev
      · simp only [log, setNative, setServicing, Function.update_apply]
        split
        · rename_i hother
          subst hother
          have hne : s.servicing other ≠ some queryId := by
            rw [hbef]
            rintro ⟨⟩
            exact hnot (.inl rfl)
          rw [if_neg hne, hbef]
        · exact hbef
  | takes => exact hs.quiet rfl rfl (hs.behind_update (by simp [NativeStage.guarded]))
  | pops | discards => exact hs.quiet rfl rfl (hs.behind_update (hnext fun _ _ _ => rfl))
  | @serves operation query =>
    have hnone : s.servicing pid = none := hs.behind pid _ hstg rfl
    refine hs.logged rfl (fun other stage' hstg' hguarded => ?_) (fun other queryId hhands => ?_) (by simp)
    · simp only [log, setNative, setServicing, Function.update_apply] at hstg' ⊢
      split at hstg'
      · cases hstg'
      · rename_i hother
        simpa [hother] using hs.behind other stage' hstg' hguarded
    · simp only [log, setNative, setServicing, Function.update_apply]
      obtain ⟨handed, hev, hid⟩ | ⟨hbef, -⟩ := hhands
      · obtain ⟨rfl, rfl⟩ := QueryEvent.handedOver.inj hev
        simpa using hid
      · split
        · rename_i hother
          rw [hother, hnone] at hbef
          cases hbef
        · exact hbef

/-- The pump of a workflow answers the query that it was handed before the workflow goes on, to
where the closure of a `with_timeout` returns. -/
def Pumped (s : QueryMailbox) : QueryAction → Prop
  | .enter pid .resumeWithTimeout => s.servicing pid = none
  | _ => True

instance : ∀ action, Decidable (s.Pumped action)
  | .enter pid .resumeWithTimeout => inferInstanceAs (Decidable (s.servicing pid = none))
  | .enter _ (.registerQuery _) | .enter _ (.replyQuery _ _) | .enter _ (.replyQueryError _ _)
  | .enter _ (.await _) | .enter _ (.record _) => .isTrue trivial
  | .spawn _ | .exit _ | .clean _ | .call _ _ | .caller _ _ | .advance _ | .record _ | .finish _ =>
    .isTrue trivial

theorem Guarded.step {action : QueryAction} (hs : s.Guarded) (hpumped : s.Pumped action)
    (h : s.step action = some s') : s'.Guarded := by
  cases step_moves h with
  | @cleansServicing pid =>
    refine hs.logged rfl (fun other stage hstg hguarded => ?_) (fun other queryId hhands => ?_) (by simp)
    · simp only [log, setServicing, Function.update_apply]
      split
      · rfl
      · exact hs.behind other stage hstg hguarded
    · obtain ⟨_, hev, -⟩ | ⟨hbef, hnot⟩ := hhands
      · cases hev
      · simp only [log, setServicing, Function.update_apply]
        split
        · rename_i hother
          exact absurd (.inr (by rw [hother])) hnot
        · exact hbef
  | @caller place _ caller _ hcall hmove =>
    cases hmove with
    | misses | probes | fails | pushes =>
      exact hs.logged rfl hs.behind (by simp [HandsOver]; tauto) (by simp)
    | _ => exact hs.quiet rfl rfl hs.behind
  | @enters pid native hlive hnone =>
    refine hs.quiet rfl rfl (hs.behind_update fun stage hstg hguarded => ?_)
    obtain rfl := Option.some.inj hstg
    cases native with
    | resumeWithTimeout => exact hpumped
    | _ => cases hguarded
  | native hstg hmove => exact hs.nativeMove hstg hmove
  | @records pid operation hstg =>
    refine hs.logged rfl hs.behind (by simp [HandsOver]; tauto) fun other operation' hev => ?_
    obtain ⟨rfl, rfl⟩ := QueryEvent.recorded.inj hev
    exact hs.behind _ _ hstg rfl
  | finishes => exact hs.quiet rfl rfl (hs.behind_update (by simp))
  | _ => exact hs.quiet rfl rfl hs.behind

/-! ### Every run -/

/-- The states that any interleaving reaches. -/
abbrev Reached : QueryMailbox → Prop := Reachable step Always start

theorem identified_of_reached (h : Reached s) : s.Identified :=
  h.invariant (fun hs _ hstep => hs.step hstep) identified_start

theorem served_of_reached (h : Reached s) : s.Served :=
  h.invariant_of_reachable (fun hrch hserv _ hstep => hserv.step (identified_of_reached hrch) hstep)
    served_start

/-- **First come, first served**: a workflow is handed the queries that callers asked of its process
in the order in which they were queued, and none twice. -/
theorem queries_in_order (h : Reached s) (pid : Pid) :
    (handedTo pid s.events).Sublist (queuedAt pid s.events) ∧
      ((queuedAt pid s.events).map PendingQuery.queryId).Nodup ∧
      ∀ query ∈ queuedAt pid s.events, Asked s pid query := by
  have hserv := served_of_reached h
  refine ⟨?_, hserv.once pid, hserv.asked pid⟩
  have hfst :=
    (List.prefix_append (handedTo pid s.events) (inHand (s.native pid) ++ s.queue pid)).sublist
  exact hfst.trans (List.append_assoc .. ▸ hserv.fifo pid)

/-- A name that is registered, and two queries for it that are queued. -/
def queuedQueries : List QueryAction :=
  [.spawn 1, .enter 1 (.registerQuery "state"), .advance 1, .call 1 "state", .call 1 "state"] ++
    [(0, "q"), (1, "r")].flatMap fun (place, queryId) =>
      [.caller place .check, .caller place .prune, .caller place (.park queryId), .caller place .push,
        .caller place (.deliver none)]

/-- An await hands a query over, which is answered. -/
def handOverAndReply (queryId : QueryId) (responsePayload : String) : List QueryAction :=
  .enter 1 (.await "receive_signal") :: List.replicate 5 (.advance 1) ++
    .enter 1 (.replyQuery queryId responsePayload) :: List.replicate 3 (.advance 1)

/-- Two queries that are answered. -/
def answeredQueries : List QueryAction :=
  queuedQueries ++ handOverAndReply "q" "1" ++ handOverAndReply "r" "2" ++
    [.caller 0 .receive, .caller 1 .receive]

theorem queries_in_order_answered :
    ∃ s : QueryMailbox, handedTo 1 s.events = [⟨"q", "state"⟩, ⟨"r", "state"⟩] ∧
    (handedTo 1 s.events).Sublist (queuedAt 1 s.events) := by
  obtain ⟨s, hs⟩ : ∃ s, run step Always start answeredQueries = some s := ⟨_, rfl⟩
  have hrch : Reached s := reachable_of_run hs
  obtain rfl := Option.some.inj hs
  exact ⟨_, rfl, (queries_in_order hrch 1).1⟩

/-- **Handlers only read**: where the pump answers a query before the workflow goes on, the process
records nothing between the hand-over of a query and its answer, or the end of the process. -/
theorem handlers_read_only (h : Reachable step Pumped start s) {before after : List QueryEvent}
    {pid : Pid} {operation : String}
    (hevents : s.events = before ++ .recorded pid operation :: after) (queryId : QueryId) :
    ¬ Since HandsOver Releases before (pid, queryId) :=
  (h.invariant (fun hs hpumped hstep => Guarded.step hs hpumped hstep) guarded_start).recorded
    before after pid operation hevents queryId

/-- An await in a `with_timeout` is handed a query; once it is answered, the closure returns, and
the deadline is cancelled. -/
theorem handlers_read_only_answered : ∃ before, ¬ Since HandsOver Releases before (1, "q") := by
  obtain ⟨s, hs⟩ : ∃ s, run step Pumped start
    (queuedQueries ++ [.enter 1 (.record "with_timeout"), .advance 1, .record 1, .finish 1] ++
      handOverAndReply "q" "1" ++ [.enter 1 .resumeWithTimeout, .record 1]) = some s := ⟨_, rfl⟩
  have hrch : Reachable step Pumped start s := reachable_of_run hs
  have hrecd : s.events = s.events.dropLast ++ .recorded 1 "with_timeout" :: [] := by rw [← Option.some.inj hs]; rfl
  exact ⟨_, handlers_read_only hrch hrecd "q"⟩

/-- A closure that returns with the query unanswered has its deadline cancelled all the same. -/
example :
    (run step Always start (queuedQueries ++ .enter 1 (.await "sleep") :: List.replicate 5
        (.advance 1) ++
    [.enter 1 .resumeWithTimeout, .record 1])).map (fun s => (s.servicing 1, s.events.getLast?)) =
      some (some "q", some (.recorded 1 "with_timeout")) := rfl

end QueryMailbox

end Aion
