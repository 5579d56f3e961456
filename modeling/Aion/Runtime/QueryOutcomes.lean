import Aion.Runtime.QueryPump

/-!
# What a query returns

Every result of `query_process` is explained by what happened (`query_outcome`): a payload and a
failure of the handler come from the one reply native that answered the query, an unknown name was
never registered while the process ran, and a dropped reply is of a process that ended. A reply that
is sent reaches the caller unless it left (`reply_delivered`). Once the process has ended and is
cleaned up, no caller waits in vain (`answered_after_cleanup`).
-/

namespace Aion

open Actions Interleaving

namespace QueryMailbox

variable {s s' : QueryMailbox}

/-! ### Senders that are not lost -/

/-- Someone has the sender of a caller. -/
def Held (s : QueryMailbox) (place : ℕ) : Prop :=
  (∃ reply ∈ s.pending, reply.caller = place) ∨ ∃ pid queryId result,
    s.native pid = some (.sending queryId result place)

/-- The cleanup of a process is done. -/
def CleanedUp (s : QueryMailbox) (pid : Pid) : Prop := s.status pid = .exited .done

/-- A sender that did not send is parked, or a native has it; and no caller waits for one that is
parked at a process that is cleaned up. -/
structure Settled (s : QueryMailbox) : Prop where
  held : ∀ (place : ℕ) (caller : QueryCaller), s.callers[place]? = some caller →
    caller.sender = .unsent →
    caller.phase.early = true ∨ Held s place
  rolledBack : ∀ (place : ℕ) (caller : QueryCaller) (error : String),
    s.callers[place]? = some caller →
    caller.phase = .unparked error → ∀ reply ∈ s.pending, reply.caller ≠ place
  waiting : ∀ (place : ℕ) (caller : QueryCaller), s.callers[place]? = some caller →
    caller.phase = .waiting ∨ caller.phase = .expired →
    (∃ reply ∈ s.pending, reply.caller = place) → ¬ CleanedUp s caller.pid

theorem settled_start : start.Settled := by
  refine ⟨?_, ?_, ?_⟩ <;> simp [start]

/-- Callers and replies stay as they are, a native that had a reply has it, and no cleanup ends. -/
theorem Settled.of_eq (hsett : s.Settled) (hcallers : s'.callers = s.callers)
    (hpend : s'.pending = s.pending)
    (hnative : ∀ pid queryId result place, s.native pid = some (.sending queryId result place) →
        s'.native pid = some (.sending queryId result place))
    (hclean : ∀ pid, CleanedUp s' pid → CleanedUp s pid) : s'.Settled := by
  obtain ⟨held, rolledBack, waiting⟩ := hsett
  refine ⟨fun place caller hcaller huns => ?_, ?_, ?_⟩
  · rw [hcallers] at hcaller
    refine (held place caller hcaller huns).imp_right (Or.imp (fun h => hpend ▸ h) ?_)
    rintro ⟨pid, queryId, result, hstg⟩
    exact ⟨pid, queryId, result, hnative pid queryId result place hstg⟩
  · rw [hcallers, hpend]
    exact rolledBack
  · rw [hcallers, hpend]
    exact fun place caller hcaller hph hreply hdone =>
      waiting place caller hcaller hph hreply (hclean _ hdone)

theorem Settled.dropReplies (hsett : s.Settled) (drops : PendingReply → Bool) :
    (s.dropReplies drops).Settled := by
  obtain ⟨held, rolledBack, waiting⟩ := hsett
  have hpend {reply : PendingReply} : reply ∈ (s.dropReplies drops).pending ↔ reply ∈ s.pending ∧ drops reply = false := by
    simp [QueryMailbox.dropReplies]
  have hnative : (s.dropReplies drops).native = s.native := rfl
  have hstat : (s.dropReplies drops).status = s.status := rfl
  refine ⟨?_, ?_, ?_⟩ <;> simp only [callers_dropReplies_iff, Held, CleanedUp, hpend, hnative,
      hstat] at *
  · grind
  · grind
  · grind

/-- A native that has no reply goes on to another stage. -/
theorem Settled.setNative (hsett : s.Settled) (pid : Pid) (native : Option NativeStage)
    (hbef : ∀ queryId result place, s.native pid ≠ some (.sending queryId result place)) :
    (s.setNative pid native).Settled := by
  refine hsett.of_eq rfl rfl (fun other queryId result place hother => ?_) fun _ h => h
  simp only [QueryMailbox.setNative, Function.update_apply]
  split
  · rename_i heq
    exact absurd (heq ▸ hother) (hbef _ _ _)
  · exact hother

variable {action : QueryAction} {caller' caller : QueryCaller} {result : QueryResult}
  {events : List QueryEvent} {place : ℕ} {pid : Pid} {queryId : QueryId}

theorem Settled.callerMove (hs : s.Identified) (hsett : s.Settled)
    (hcaller : s.callers[place]? = some caller) (hmove : CallerMove s place caller s') :
    s'.Settled := by
  have hdrop {drops : PendingReply → Bool} {phase : QueryPhase} (hph : phase ≠ .waiting ∧
      phase ≠ .expired)
      (hearly : caller.phase.early = true → phase.early = true)
      (hgone : ∀ error, phase = .unparked error → ∀ reply ∈ s.pending, reply.caller = place → drops reply = true) :
      ((s.dropReplies drops).setPhase place phase).Settled := by
    obtain ⟨found, hfd, hsame⟩ := exists_caller_of_dropReplies drops hcaller
    obtain ⟨held, rolledBack, waiting⟩ := hsett.dropReplies drops
    have hpend {reply : PendingReply} : reply ∈ (s.dropReplies drops).pending ↔ reply ∈ s.pending ∧ drops reply = false := by
      simp [QueryMailbox.dropReplies]
    have hph' : found.phase = caller.phase := by rcases hsame with rfl | rfl <;> simp
    rw [setPhase_eq hfd]
    refine ⟨?_, ?_, ?_⟩ <;> simp only [updateCaller, Held, CleanedUp, callers_update_iff hfd] at *
    · grind
    · grind
    · grind
  cases hmove with
  | goes hgoes =>
    obtain ⟨held, rolledBack, waiting⟩ := hsett
    refine ⟨?_, ?_, ?_⟩ <;> simp only [updateCaller, Held, CleanedUp, callers_update_iff hcaller] at *
    · cases hgoes <;> grind [QueryPhase.early]
    · cases hgoes <;> grind [QueryPhase.early]
    · cases hgoes <;> grind [QueryPhase.early]
  | misses hbef hnone =>
    obtain ⟨held, rolledBack, waiting⟩ := hsett
    refine ⟨?_, ?_, ?_⟩ <;> simp only [log, updateCaller, Held, CleanedUp, callers_update_iff hcaller] at * <;>
      grind [QueryPhase.early]
  | fails hbef error =>
    obtain ⟨held, rolledBack, waiting⟩ := hsett
    refine ⟨?_, ?_, ?_⟩ <;> simp only [log, updateCaller, Held, CleanedUp, callers_update_iff hcaller] at * <;>
      grind [QueryPhase.early]
  | probes hbef herr =>
    have hnone := (hs.early place caller hcaller (by rw [hbef]; rfl)).1
    have hunheld := (hs.not_held hcaller hnone).1
    obtain ⟨held, rolledBack, waiting⟩ := hsett
    refine ⟨?_, ?_, ?_⟩ <;> simp only [log, updateCaller, Held, CleanedUp, callers_update_iff hcaller] at * <;> grind
  | prunes hbef => exact hdrop (by simp) (fun _ => rfl) (by simp)
  | @parks hbef queryId hfresh =>
    clear hdrop
    obtain ⟨held, rolledBack, waiting⟩ := hsett
    refine ⟨?_, ?_, ?_⟩ <;>
      simp only [updateCaller, Held, CleanedUp, callers_update_iff hcaller, List.mem_append,
        List.mem_singleton, or_and_right,
        exists_or, exists_eq_left] at * <;>
      grind [QueryPhase.early]
  | pushes hbef hid =>
    obtain ⟨held, rolledBack, waiting⟩ := hsett
    refine ⟨?_, ?_, ?_⟩ <;> simp only [log, setQueue, updateCaller, Held, CleanedUp, callers_update_iff hcaller] at * <;>
      grind [QueryPhase.early]
  | unqueues hbef hid =>
    obtain ⟨held, rolledBack, waiting⟩ := hsett
    refine ⟨?_, ?_, ?_⟩ <;> simp only [setQueue, updateCaller, Held, CleanedUp, callers_update_iff hcaller] at * <;>
      grind [QueryPhase.early]
  | @unparks error hbef queryId hid =>
    refine hdrop (by simp) (by simp [hbef, QueryPhase.early]) fun _ _ reply hreply hplace => ?_
    subst hplace
    have hsame := (hs.parked reply hreply caller hcaller).1
    rw [hid] at hsame
    simpa using (Option.some.inj hsame).symm

/-- A native is done with the reply that it had. -/
theorem Settled.sent (hsett : s.Settled)
    (hstg : s.native pid = some (.sending queryId result place))
    (hcaller : s.callers[place]? = some caller) (changed : QueryCaller)
    (hsender : changed.sender ≠ .unsent) (hpid : changed.pid = caller.pid)
    (hph : changed.phase = caller.phase) :
    ((s.updateCaller place fun _ => changed).setNative pid none).Settled := by
  obtain ⟨held, rolledBack, waiting⟩ := hsett
  refine ⟨?_, ?_, ?_⟩ <;>
    simp only [updateCaller, QueryMailbox.setNative, Held, CleanedUp, callers_update_iff hcaller,
      Function.update_apply] at *
  · rintro other found (⟨rfl, rfl⟩ | ⟨hother, hfd⟩) huns
    · exact absurd huns hsender
    · refine (held other found hfd huns).imp_right (Or.imp_right ?_)
      rintro ⟨pid', queryId', result', hpid'⟩
      refine ⟨pid', queryId', result', ?_⟩
      rw [if_neg, hpid']
      rintro rfl
      rw [hstg] at hpid'
      cases hpid'
      exact hother rfl
  · grind
  · grind

theorem Settled.nativeMove (hs : s.Identified) (hsett : s.Settled) {stage : NativeStage}
    (hstg : s.native pid = some stage) (hmove : NativeMove s pid stage s') : s'.Settled := by
  cases hmove with
  | goes hgoes => exact hsett.setNative pid _ (by cases hgoes <;> simp [hstg])
  | refuses hfrom =>
    refine (hsett.setNative pid none ?_).of_eq rfl rfl (fun _ _ _ _ h => h) fun _ h => h
    obtain ⟨_, _, rfl⟩ | ⟨_, _, rfl⟩ := hfrom <;> simp [hstg]
  | registers | serves => exact (hsett.setNative pid none (by simp [hstg])).of_eq rfl rfl (fun _ _ _ _ h => h) fun _ h => h
  | @releases queryId result =>
    exact (hsett.setNative pid (some (.taking queryId result)) (by simp [hstg])).of_eq rfl rfl
      (fun _ _ _ _ h => h) fun _ h => h
  | @takes queryId result reply hreply hid =>
    obtain ⟨held, rolledBack, waiting⟩ := hsett
    -- The reply that is taken is the only one of its caller.
    have htaken : ∀ other ∈ s.pending, other.queryId = queryId → other.caller = reply.caller := by
      intro other hother hsame
      obtain ⟨caller, hcaller⟩ : ∃ caller, s.callers[reply.caller]? = some caller :=
        ⟨_, List.getElem?_eq_getElem (hs.bound _ hreply)⟩
      obtain ⟨found, hfd⟩ : ∃ found, s.callers[other.caller]? = some found :=
        ⟨_, List.getElem?_eq_getElem (hs.bound _ hother)⟩
      exact hs.distinct _ _ found caller queryId hfd hcaller (hsame ▸ (hs.parked other hother found hfd).1)
        (hid ▸ (hs.parked reply hreply caller hcaller).1)
    refine ⟨fun place caller hcaller huns => ?_, ?_, ?_⟩
    · refine (held place caller hcaller huns).imp_right ?_
      rintro (⟨other, hother, rfl⟩ | ⟨other, queryId', result', hother⟩)
      · by_cases hsame : other.queryId = queryId
        · exact .inr ⟨pid, queryId, result, by simp [QueryMailbox.setNative, htaken other hother hsame]⟩
        · exact .inl ⟨other, List.mem_filter.mpr ⟨hother, by simpa using hsame⟩, rfl⟩
      · refine .inr ⟨other, queryId', result', ?_⟩
        have hne : other ≠ pid := by
          rintro rfl
          rw [hstg] at hother
          cases hother
        simpa [QueryMailbox.setNative, hne] using hother
    · exact fun place caller error hcaller hph other hother => rolledBack place caller error hcaller hph other
        (List.mem_of_mem_filter hother)
    · rintro place caller hcaller hph ⟨other, hother, hplace⟩
      exact waiting place caller hcaller hph ⟨other, List.mem_of_mem_filter hother, hplace⟩
  | drops hcaller hcl =>
    rw [updateCaller_eq hcaller]
    have huns := ((hs.sending _ _ _ _ hstg).2.1 _ hcaller).2
    exact (hsett.sent hstg hcaller _ (by simp [QueryCaller.dropSender_sender, huns]) (by simp) (by simp)).of_eq rfl rfl
      (fun _ _ _ _ h => h) fun _ h => h
  | @sends queryId result place caller hcaller hopen =>
    exact (hsett.sent hstg hcaller { caller with sender := .sent result } (by simp) rfl rfl).of_eq rfl rfl
      (fun _ _ _ _ h => h) fun _ h => h
  | @pops operation query rest hqueue =>
    exact (hsett.setNative pid (some (.inspecting operation query)) (by simp [hstg])).of_eq rfl rfl
      (fun _ _ _ _ h => h) fun _ h => h
  | discards =>
    exact (hsett.dropReplies _).setNative pid _ (by simp [QueryMailbox.dropReplies, hstg])

theorem Settled.step (hs : s.Identified) (hsett : s.Settled) (h : s.step action = some s') :
    s'.Settled := by
  have hstat {pid : Pid} {status : ProcessStatus} (hstat : status ≠ .exited .done) (other : Pid)
      (hdone : Function.update s.status pid status other = .exited .done) : CleanedUp s other := by
    rw [Function.update_apply] at hdone
    split at hdone
    · exact absurd hdone hstat
    · exact hdone
  cases step_moves h with
  | spawns | exits | cleansQueries | cleansServicing | cleansHandlers =>
    exact hsett.of_eq rfl rfl (fun _ _ _ _ h => h) fun other => hstat (by simp) other
  | @cleansReplies pid hbef =>
    obtain ⟨held, rolledBack, waiting⟩ := hsett.dropReplies fun reply => reply.pid == pid
    refine ⟨held, rolledBack, fun place caller hcaller hph hreply hdone => ?_⟩
    obtain ⟨reply, hmem, rfl⟩ := hreply
    by_cases hpid : caller.pid = pid
    · -- Its reply would be parked at the process that was just cleaned up.
      have hsame := ((hs.dropReplies fun reply => reply.pid == pid).parked reply hmem caller hcaller).2.1
      obtain ⟨-, hkept⟩ := List.mem_filter.mp hmem
      simp [← hsame, hpid] at hkept
    · refine waiting reply.caller caller hcaller hph ⟨reply, hmem, rfl⟩ ?_
      simpa [CleanedUp, hpid, QueryMailbox.dropReplies] using hdone
  | calls hborn =>
    have hbound := hs.bound
    obtain ⟨held, rolledBack, waiting⟩ := hsett
    refine ⟨?_, ?_, ?_⟩ <;> simp only [Held, CleanedUp, List.getElem?_append] at * <;>
      grind [QueryPhase.early]
  | caller hcaller hmove => exact hsett.callerMove hs hcaller hmove
  | enters hlive hnone => exact hsett.setNative _ _ (by simp [hnone])
  | native hstg hmove => exact hsett.nativeMove hs hstg hmove
  | records hstg => exact hsett.of_eq rfl rfl (fun _ _ _ _ h => h) fun _ h => h
  | finishes hstg => exact hsett.setNative _ _ (by simp [hstg])

/-! ### Replies that are sent -/

/-- What a reply native may send. -/
def IsReply (result : QueryResult) : Prop :=
  (∃ payload, result = .ok payload) ∨ ∃ message, result = .error (.handlerFailed message)

/-- The result that a reply native is there to send. -/
def replyOf : NativeStage → Option QueryResult
  | .replying _ result => some result
  | .taking _ result => some result
  | .sending _ result _ => some result
  | _ => none

/-- The queries that reply natives answered. -/
def repliedTo (events : List QueryEvent) : List QueryId :=
  events.filterMap fun
    | .replied _ queryId _ => some queryId
    | _ => none

theorem mem_repliedTo_iff :
    queryId ∈ repliedTo events ↔ ∃ pid result, .replied pid queryId result ∈ events := by
  unfold repliedTo
  rw [List.mem_filterMap]
  constructor
  · rintro ⟨event, hmem, hev⟩
    cases event with
    | replied pid found result =>
      cases hev
      exact ⟨pid, result, hmem⟩
    | _ => cases hev
  · rintro ⟨pid, result, hmem⟩
    exact ⟨_, hmem, rfl⟩

/-- A query is answered once, and the answer is with its caller. -/
structure Replied (s : QueryMailbox) : Prop where
  stages : ∀ (pid : Pid) (stage : NativeStage) (result : QueryResult), s.native pid = some stage →
    replyOf stage = some result →
    IsReply result
  reached : ∀ (pid : Pid) (queryId : QueryId) (result : QueryResult),
    .replied pid queryId result ∈ s.events → IsReply result ∧
    ∃ (place : ℕ) (caller : QueryCaller), s.callers[place]? = some caller ∧
      caller.queryId = some queryId ∧ caller.sender = .sent result
  once : (repliedTo s.events).Nodup

theorem replied_start : start.Replied := by
  refine ⟨?_, ?_, ?_⟩ <;> simp [start, repliedTo]

theorem Replied.step (hs : s.Identified) (hreplied : s.Replied) (h : s.step action = some s') :
    s'.Replied := by
  obtain ⟨stages, reached, once⟩ := hreplied
  have hlat {pid : Pid} {queryId : QueryId} {result : QueryResult}
    (hmem : .replied pid queryId result ∈ s.events) :
      IsReply result ∧ ∃ (place : ℕ) (caller : QueryCaller), s'.callers[place]? = some caller ∧
        caller.queryId = some queryId ∧
        caller.sender = .sent result := by
    obtain ⟨hreply, place, caller, hcaller, hid, hsent⟩ := reached pid queryId result hmem
    obtain ⟨caller', hcaller', hlat⟩ := hs.exists_later h hcaller
    exact ⟨hreply, place, caller', hcaller', hlat.queryId queryId hid, (hlat.sender (by simp [hsent])).trans hsent⟩
  -- Without an answer, and with no new reply in a native.
  have hquiet (hevs : ∀ pid queryId result, .replied pid queryId result ∈ s'.events →
      .replied pid queryId result ∈ s.events)
      (honce : repliedTo s'.events = repliedTo s.events)
      (hnative : ∀ pid stage result, s'.native pid = some stage → replyOf stage = some result → IsReply result) : s'.Replied :=
    ⟨hnative, fun pid queryId result hmem => hlat (hevs pid queryId result hmem), honce ▸ once⟩
  have hnext {pid : Pid} {native : Option NativeStage}
      (hnative : ∀ stage result, native = some stage → replyOf stage = some result → IsReply result) (other : Pid)
      (stage : NativeStage) (result : QueryResult) (hstg : Function.update s.native pid native other = some stage)
      (hreply : replyOf stage = some result) : IsReply result := by
    rw [Function.update_apply] at hstg
    split at hstg
    · exact hnative stage result hstg hreply
    · exact stages other stage result hstg hreply
  cases step_moves h with
  | cleansServicing =>
    exact hquiet (by simp [log, setServicing]) (by simp [log, setServicing, repliedTo]) stages
  | caller hcaller hmove =>
    cases hmove with
    | misses | probes | fails =>
      exact hquiet (by simp [log, updateCaller]) (by simp [log, updateCaller, repliedTo]) stages
    | pushes => exact hquiet (by simp [log, setQueue, updateCaller]) (by simp [log, setQueue, updateCaller, repliedTo]) stages
    | _ => exact hquiet (fun _ _ _ h => h) rfl stages
  | @enters pid native =>
    refine hquiet (fun _ _ _ h => h) rfl (hnext fun stage result hstg hreply => ?_)
    obtain rfl := Option.some.inj hstg
    cases native with
    | replyQuery =>
      cases hreply
      exact .inl ⟨_, rfl⟩
    | replyQueryError =>
      cases hreply
      exact .inr ⟨_, rfl⟩
    | _ => cases hreply
  | @native pid _ _ hstg hmove =>
    cases hmove with
    | goes hgoes =>
      refine hquiet (fun _ _ _ h => h) rfl (hnext fun stage result hnative hreply => ?_)
      obtain rfl := Option.some.inj hnative
      cases hgoes with
      | @passes operation awaits => cases awaits <;> cases hreply
      | _ => cases hreply
    | refuses | registers => exact hquiet (by simp [log, setNative]) (by simp [log, setNative, repliedTo]) (hnext (by simp))
    | releases =>
      refine hquiet (by simp [log, setNative, setServicing]) (by simp [log, setNative, setServicing, repliedTo])
        (hnext fun stage result hnative hreply => ?_)
      obtain rfl := Option.some.inj hnative
      cases hreply
      exact stages _ _ _ hstg rfl
    | takes =>
      refine hquiet (fun _ _ _ h => h) rfl (hnext fun stage result hnative hreply => ?_)
      obtain rfl := Option.some.inj hnative
      cases hreply
      exact stages _ _ _ hstg rfl
    | drops =>
      exact hquiet (by simp [log, setNative, updateCaller])
        (by simp [log, setNative, updateCaller, repliedTo]) (hnext (by simp))
    | @sends queryId result place caller hcaller =>
      obtain ⟨-, hsame, -⟩ := hs.sending _ _ _ _ hstg
      obtain ⟨hid, huns⟩ := hsame caller hcaller
      refine ⟨hnext (by simp), fun pid' queryId' result' hmem => ?_, ?_⟩
      · simp only [log, List.mem_append, List.mem_singleton] at hmem
        rcases hmem with hmem | hmem
        · exact hlat hmem
        · obtain ⟨rfl, rfl, rfl⟩ := QueryEvent.replied.inj hmem
          exact ⟨stages _ _ _ hstg rfl, place, _, (callers_update_iff hcaller).mpr (.inl ⟨rfl, rfl⟩), hid, rfl⟩
      · have honce : repliedTo (s.events ++ [.replied pid queryId result]) = repliedTo s.events ++
            [queryId] := by
          simp [repliedTo]
        change (repliedTo (s.events ++ [.replied pid queryId result])).Nodup
        rw [honce, ← List.concat_eq_append, List.nodup_concat]
        refine ⟨fun hmem => ?_, once⟩
        obtain ⟨pid', result', hmem⟩ := mem_repliedTo_iff.mp hmem
        obtain ⟨-, place', caller', hcaller', hid', hsent⟩ := reached pid' queryId result' hmem
        obtain rfl := hs.distinct place' place caller' caller queryId hcaller' hcaller hid' hid
        obtain rfl : caller' = caller := Option.some.inj (hcaller'.symm.trans hcaller)
        rw [huns] at hsent
        cases hsent
    | pops | discards => exact hquiet (fun _ _ _ h => h) rfl (hnext fun _ _ hnative hreply => by cases hnative; cases hreply)
    | serves =>
      exact hquiet (by simp [log, setNative, setServicing])
        (by simp [log, setNative, setServicing, repliedTo]) (hnext (by simp))
  | records => exact hquiet (by simp [log]) (by simp [log, repliedTo]) stages
  | finishes => exact hquiet (fun _ _ _ h => h) rfl (hnext (by simp))
  | _ => exact hquiet (fun _ _ _ h => h) rfl stages

/-! ### Names that are not registered -/

/-- When the caller found no handler, none had been registered. -/
def MissedUnregistered (events : List QueryEvent) (place : ℕ) (caller : QueryCaller) : Prop :=
  ∃ before after, events = before ++ .missed place :: after ∧
    .registered caller.pid caller.name ∉ before

/-- The names of a process are all there until it ends, and callers ask processes that were
spawned. -/
structure Known (s : QueryMailbox) : Prop where
  registered : ∀ (pid : Pid) (name : String), ¬ Ended s pid → .registered pid name ∈ s.events →
    (pid, name) ∈ s.handlers
  born : ∀ (place : ℕ) (caller : QueryCaller), s.callers[place]? = some caller →
    s.status caller.pid ≠ .unborn
  missed : ∀ (place : ℕ) (caller : QueryCaller), s.callers[place]? = some caller →
    caller.phase = .unregistered →
    ¬ Ended s caller.pid → MissedUnregistered s.events place caller

theorem known_start : start.Known := by
  refine ⟨?_, ?_, ?_⟩ <;> simp [start]

/-- A process that was spawned was, and one that ended has. -/
theorem status_step (h : s.step action = some s') :
    (s.status pid ≠ .unborn → s'.status pid ≠ .unborn) ∧ (Ended s pid → Ended s' pid) := by
  have hupdate {other : Pid} {status : ProcessStatus} (hborn : status ≠ .unborn)
      (hended : s.status other = .unborn ∨ ∃ cleanup, status = .exited cleanup) :
      (s.status pid ≠ .unborn → Function.update s.status other status pid ≠ .unborn) ∧
        (Ended s pid → ∃ cleanup, Function.update s.status other status pid = .exited cleanup) := by
    simp only [Function.update_apply, Ended]
    grind
  cases step_moves h with
  | spawns hbef => exact hupdate (by simp) (.inl hbef)
  | exits | cleansQueries | cleansServicing | cleansHandlers | cleansReplies =>
    exact hupdate (by simp) (.inr ⟨_, rfl⟩)
  | caller _ hmove | native _ hmove => cases hmove <;> exact ⟨id, id⟩
  | _ => exact ⟨id, id⟩

theorem MissedUnregistered.append (h : MissedUnregistered events place caller)
    (hpid : caller'.pid = caller.pid) (hname : caller'.name = caller.name)
    (more : List QueryEvent) : MissedUnregistered (events ++ more) place caller' := by
  obtain ⟨before, after, rfl, hnone⟩ := h
  exact ⟨before, after ++ more, by simp, by rwa [hpid, hname]⟩

/-- What happened stays so. -/
theorem events_step (h : s.step action = some s') : ∃ more, s'.events = s.events ++ more := by
  have hsame : ∃ more, s.events = s.events ++ more := ⟨[], (List.append_nil _).symm⟩
  cases step_moves h with
  | cleansServicing | records => exact ⟨[_], rfl⟩
  | caller _ hmove | native _ hmove => cases hmove <;> first | exact hsame | exact ⟨[_], rfl⟩
  | _ => exact hsame

/-- A name goes with its process, and comes with its registration. -/
theorem handlers_step (h : s.step action = some s') {name : String} :
    ((pid, name) ∈ s.handlers → ¬ Ended s pid → (pid, name) ∈ s'.handlers) ∧
      (.registered pid name ∈ s'.events → .registered pid name ∈ s.events ∨
          (pid, name) ∈ s'.handlers) := by
  have hsame : ((pid, name) ∈ s.handlers → ¬ Ended s pid → (pid, name) ∈ s.handlers) ∧
      (.registered pid name ∈ s.events → .registered pid name ∈ s.events ∨ (pid, name) ∈ s.handlers) := ⟨fun h _ => h, .inl⟩
  have hlogged {event : QueryEvent} (hev : .registered pid name ≠ event) :
      ((pid, name) ∈ s.handlers → ¬ Ended s pid → (pid, name) ∈ s.handlers) ∧
        (.registered pid name ∈ s.events ++ [event] → .registered pid name ∈ s.events ∨ (pid, name) ∈ s.handlers) :=
    ⟨fun h _ => h, fun hmem => .inl (by simpa [hev] using hmem)⟩
  cases step_moves h with
  | cleansServicing | records => exact hlogged (by simp)
  | @cleansHandlers other hbef =>
    refine ⟨fun hmem hnot => List.mem_filter.mpr ⟨hmem, decide_eq_true ?_⟩, .inl⟩
    rintro rfl
    exact hnot ⟨_, hbef⟩
  | caller hcaller hmove => cases hmove <;> first | exact hsame | exact hlogged (by simp)
  | native hstg hmove =>
    cases hmove with
    | registers =>
      refine ⟨fun hmem _ => List.mem_append_left _ hmem, fun hmem => ?_⟩
      rcases List.mem_append.mp hmem with hmem | hmem
      · exact .inl hmem
      · obtain ⟨rfl, rfl⟩ := QueryEvent.registered.inj (List.mem_singleton.mp hmem)
        exact .inr (List.mem_append_right _ (List.mem_singleton_self _))
    | _ => first | exact hsame | exact hlogged (by simp)
  | _ => exact hsame

theorem Known.step (hs : s.Identified) (hknown : s.Known) (h : s.step action = some s') :
    s'.Known := by
  obtain ⟨registered, born, missed⟩ := hknown
  obtain ⟨more, hmore⟩ := events_step h
  have hended {pid : Pid} (hnot : ¬ Ended s' pid) : ¬ Ended s pid :=
    fun hended => hnot ((status_step h).2 hended)
  refine ⟨?_, fun place caller' hcaller' => ?_, fun place caller' hcaller' hph hnot => ?_⟩
  · intro pid name hnot hmem
    rcases (handlers_step h).2 hmem with hmem | hmem
    · exact (handlers_step h).1 (registered pid name (hended hnot) hmem) (hended hnot)
    · exact hmem
  · rcases hs.becomes h hcaller' with ⟨caller, hcaller, hbec⟩ | ⟨pid, name, rfl, hborn, -⟩
    · exact (hbec.later hs hcaller).pid ▸ (status_step h).1 (born place caller hcaller)
    · exact (status_step h).1 hborn
  · rcases hs.becomes h hcaller' with ⟨caller, hcaller, hbec⟩ | ⟨pid, name, rfl, hborn, -⟩
    · have hlat := hbec.later hs hcaller
      have hbef (hph : caller.phase = .unregistered) : MissedUnregistered s'.events place caller' :=
        hmore ▸ (missed place caller hcaller hph (hlat.pid ▸ hended hnot)).append hlat.pid hlat.name more
      cases hbec with
      | stays | sends => exact hbef hph
      | loses | left => exact hbef (by simpa using hph)
      | goes hgoes => cases hgoes <;> cases hph
      | misses hdelivering hnone hevs =>
        refine ⟨s.events, [], hevs, fun hmem => hnone ?_⟩
        exact registered _ _ (hended hnot) hmem
      | enqueues hph' => rcases hph' with rfl | rfl | ⟨_, rfl⟩ <;> cases hph
      | _ => cases hph
    · cases hph

/-! ### Results that are explained -/

/-- A caller looked for its process when it had found no handler, and it was live. -/
def FoundLive (events : List QueryEvent) (place : ℕ) (caller : QueryCaller) : Prop :=
  ∃ before after, events = before ++ .probed place true :: after ∧
    MissedUnregistered before place caller

theorem FoundLive.append (h : FoundLive events place caller) (hpid : caller'.pid = caller.pid)
    (hname : caller'.name = caller.name) (more : List QueryEvent) :
    FoundLive (events ++ more) place caller' := by
  obtain ⟨before, after, rfl, hmissed⟩ := h
  exact ⟨before, after ++ more, by simp, by simpa using hmissed.append hpid hname []⟩

/-- Why a result was sent to a caller. -/
def SentFor (s : QueryMailbox) (place : ℕ) (caller : QueryCaller) (result : QueryResult) : Prop :=
  (∃ pid queryId, caller.queryId = some queryId ∧ .replied pid queryId result ∈ s.events) ∨
    (result = .error (.unknownQuery caller.name) ∧ FoundLive s.events place caller) ∨
    (result = .error .replyDropped ∧ Ended s caller.pid)

/-- Why a caller returned what it did. -/
def ReturnedFor (s : QueryMailbox) (place : ℕ) (caller : QueryCaller) (result : QueryResult) :
    Prop :=
  caller.sender = .sent result ∨ (caller.sender = .dropped ∧ result = .error .replyDropped ∧
      Ended s caller.pid) ∨
    result = .error .timeout ∨
      ∃ error, result = .error (.engine (markerDeliveryError error)) ∧ .undelivered place error ∈ s.events

/-- Whatever a caller has, or has lost, it has for a reason. -/
structure Explained (s : QueryMailbox) : Prop where
  sent : ∀ (place : ℕ) (caller : QueryCaller) (result : QueryResult),
    s.callers[place]? = some caller → caller.sender = .sent result →
    SentFor s place caller result
  dropped : ∀ (place : ℕ) (caller : QueryCaller), s.callers[place]? = some caller →
    caller.sender = .dropped →
    caller.closed = true ∨ Ended s caller.pid ∨ ∃ error, caller.phase = .unparked error
  returned : ∀ (place : ℕ) (caller : QueryCaller) (result : QueryResult),
    s.callers[place]? = some caller →
    caller.phase = .returned result → ReturnedFor s place caller result
  failed : ∀ (place : ℕ) (caller : QueryCaller) (error : String), s.callers[place]? = some caller →
    caller.phase.failure = some error → .undelivered place error ∈ s.events
  stillOpen : ∀ (place : ℕ) (caller : QueryCaller), s.callers[place]? = some caller →
    caller.closed = true →
    caller.phase = .abandoned ∨ ∃ result, caller.phase = .returned result
  discarding : ∀ (pid : Pid) (operation : String) (query : PendingQuery),
    s.native pid = some (.discarding operation query) →
    ∀ reply ∈ s.pending, reply.queryId = query.queryId → s.isClosed reply.caller = true

theorem explained_start : start.Explained := by
  refine ⟨?_, ?_, ?_, ?_, ?_, ?_⟩ <;> simp [start]

/-- A reply that is parked was, or has a fresh identifier. -/
theorem pending_step (h : s.step action = some s') {reply : PendingReply}
    (hreply : reply ∈ s'.pending) : reply ∈ s.pending ∨ reply.queryId ∉ s.issued := by
  cases step_moves h with
  | cleansReplies => exact .inl (List.mem_of_mem_filter hreply)
  | caller hcaller hmove =>
    cases hmove with
    | prunes | unparks => exact .inl (List.mem_of_mem_filter hreply)
    | parks hbef hfresh =>
      rcases List.mem_append.mp hreply with hreply | hreply
      · exact .inl hreply
      · obtain rfl := List.mem_singleton.mp hreply
        exact .inr hfresh
    | _ => exact .inl hreply
  | native hstg hmove =>
    cases hmove with
    | takes | discards => exact .inl (List.mem_of_mem_filter hreply)
    | _ => exact .inl hreply
  | _ => exact .inl hreply

/-- A native discards a query that it was to discard, or that no one waits for. -/
theorem discarding_step (h : s.step action = some s') {operation : String} {query : PendingQuery}
    (hstg : s'.native pid = some (.discarding operation query)) :
    s.native pid = some (.discarding operation query) ∨
      ∀ reply ∈ s'.pending, reply.queryId = query.queryId → s.isClosed reply.caller = true := by
  have hnext {other : Pid} {native : Option NativeStage}
    (hnative : Function.update s.native other native pid = some (.discarding operation query))
      (hwhy : native = some (.discarding operation query) →
        ∀ reply ∈ s'.pending, reply.queryId = query.queryId → s.isClosed reply.caller = true) :
      s.native pid = some (.discarding operation query) ∨
        ∀ reply ∈ s'.pending, reply.queryId = query.queryId → s.isClosed reply.caller = true := by
    rw [Function.update_apply] at hnative
    split at hnative
    · exact .inr (hwhy hnative)
    · exact .inl hnative
  cases step_moves h with
  | caller hcaller hmove => cases hmove <;> exact .inl hstg
  | @enters other native => exact hnext hstg fun hnative => by cases native <;> cases hnative
  | native hbef hmove =>
    cases hmove with
    | goes hgoes =>
      refine hnext hstg fun hnative => ?_
      cases hgoes with
      | @passes operation' awaits => cases awaits <;> cases hnative
      | stale hcl =>
        cases hnative
        exact hcl
      | _ => cases hnative
    | _ => exact hnext hstg fun hnative => by cases hnative
  | finishes => exact hnext hstg fun hnative => by cases hnative
  | _ => exact .inl hstg

/-- A reason stays one. -/
theorem SentFor.step (hsent : SentFor s place caller result) (h : s.step action = some s')
    (hlat : Later caller caller') : SentFor s' place caller' result := by
  obtain ⟨more, hmore⟩ := events_step h
  rcases hsent with ⟨pid, queryId, hqueryId, hmem⟩ | ⟨rfl, hmissed⟩ | ⟨rfl, hended⟩
  · exact .inl ⟨pid, queryId, hlat.queryId queryId hqueryId, hmore ▸ List.mem_append_left _ hmem⟩
  · exact .inr (.inl ⟨by rw [hlat.name], hmore ▸ hmissed.append hlat.pid hlat.name more⟩)
  · exact .inr (.inr ⟨rfl, hlat.pid ▸ (status_step h).2 hended⟩)

theorem dropSender_sent_iff :
    caller.dropSender.sender = .sent result ↔ caller.sender = .sent result := by
  rw [QueryCaller.dropSender_sender]
  cases caller.sender <;> simp

theorem Known.ended (hknown : s.Known) (hcaller : s.callers[place]? = some caller)
    (hnot : s.status caller.pid ≠ .live) : Ended s caller.pid := by
  have hborn := hknown.born place caller hcaller
  cases hstat : s.status caller.pid with
  | unborn => exact absurd hstat hborn
  | live => exact absurd hstat hnot
  | exited cleanup => exact ⟨cleanup, hstat⟩

theorem Explained.sent_step (hs : s.Identified) (hknown : s.Known) (hexplained : s.Explained)
    (h : s.step action = some s') (hcaller' : s'.callers[place]? = some caller')
    (hsent : caller'.sender = .sent result) : SentFor s' place caller' result := by
  rcases hs.becomes h hcaller' with ⟨caller, hcaller, hbec⟩ | ⟨pid, name, rfl, hborn, -⟩
  · have hlat := hbec.later hs hcaller
    have hbef (hsent : caller.sender = .sent result) : SentFor s' place caller' result :=
      (hexplained.sent place caller result hcaller hsent).step h hlat
    cases hbec with
    | loses | left => exact hbef (dropSender_sent_iff.mp hsent)
    | probes hph herr hevs =>
      obtain rfl := ReplySender.sent.inj hsent
      rcases herr with ⟨rfl, hlive, rfl⟩ | ⟨hnot, rfl⟩
      · have hmissed := hknown.missed place caller hcaller hph fun ⟨cleanup, hended⟩ => by rw [hlive] at hended; cases hended
        exact .inr (.inl ⟨rfl, s.events, [], hevs, hmissed⟩)
      · have hgone := hknown.ended hcaller hnot
        exact .inr (.inr ⟨rfl, (status_step h).2 hgone⟩)
    | unparks hph hchg =>
      rcases hchg with rfl | rfl
      · exact hbef hsent
      · exact hbef (dropSender_sent_iff.mp hsent)
    | sends hid _ hev =>
      obtain rfl := ReplySender.sent.inj hsent
      exact .inl ⟨_, _, hid, hev⟩
    | _ => exact hbef hsent
  · cases hsent

theorem Explained.dropped_step (hs : s.Identified) (hknown : s.Known) (hexplained : s.Explained)
    (h : s.step action = some s') (hcaller' : s'.callers[place]? = some caller')
    (hdrop : caller'.sender = .dropped) :
    caller'.closed = true ∨ Ended s' caller'.pid ∨ ∃ error, caller'.phase = .unparked error := by
  have hended {pid : Pid} : Ended s pid → Ended s' pid := (status_step h).2
  rcases hs.becomes h hcaller' with ⟨caller, hcaller, hbec⟩ | ⟨pid, name, rfl, hborn, -⟩
  · have hlat := hbec.later hs hcaller
    have hkeeps (hdrop : caller.sender = .dropped) (hph : ∀ error, caller.phase ≠ .unparked error) :
        caller'.closed = true ∨ Ended s' caller'.pid ∨ ∃ error, caller'.phase = .unparked error := by
      rcases hexplained.dropped place caller hcaller hdrop with hcl | hgone | ⟨error, hrolled⟩
      · exact .inl (hlat.closed hcl)
      · exact .inr (.inl (hlat.pid ▸ hended hgone))
      · exact absurd hrolled (hph error)
    cases hbec with
    | stays => exact (hexplained.dropped place _ hcaller hdrop).imp_right (Or.imp_left hended)
    | @loses reply hreply hplace hwhy =>
      subst hplace
      have hpid := (hs.parked reply hreply caller hcaller).2.1
      rcases hwhy with hcl | hgone | ⟨pid, operation, query, hstg, hid⟩
      · exact .inl (by simpa using hcl)
      · exact .inr (.inl (by simpa [hpid] using hended hgone))
      · have hcl := hexplained.discarding pid operation query hstg reply hreply hid
        exact .inl (by simpa [isClosed, hcaller] using hcl)
    | left hcl => exact .inl (by simpa using hcl)
    | goes hgoes =>
      cases hgoes with
      | waits _ hnot =>
        have hgone := hknown.ended hcaller hnot
        exact .inr (.inl (hended hgone))
      | finds hbef | delivers hbef | expires hbef => exact hkeeps hdrop (by simp [hbef])
      | _ => exact .inl rfl
    | misses hbef | fails hbef | parks hbef => exact hkeeps hdrop (by simp [hbef])
    | enqueues _ hbef => exact hkeeps hdrop fun error hph => by simp [hph] at hbef
    | unparks => exact .inr (.inr ⟨_, rfl⟩)
    | probes | sends => cases hdrop
  · cases hdrop

theorem Explained.returned_step (hs : s.Identified) (hexplained : s.Explained)
    (h : s.step action = some s') (hcaller' : s'.callers[place]? = some caller')
    (hreturned : caller'.phase = .returned result) : ReturnedFor s' place caller' result := by
  have hended {pid : Pid} : Ended s pid → Ended s' pid := (status_step h).2
  rcases hs.becomes h hcaller' with ⟨caller, hcaller, hbec⟩ | ⟨pid, name, rfl, hborn, -⟩
  · have hlat := hbec.later hs hcaller
    obtain ⟨more, hmore⟩ := events_step h
    have hbef (hph : caller.phase = .returned result) : ReturnedFor s' place caller' result := by
      rcases hexplained.returned place caller result hcaller hph with
        hsent | ⟨hdrop, hres, hgone⟩ | htmo | ⟨error, herr, hfailed⟩
      · exact .inl ((hlat.sender (by simp [hsent])).trans hsent)
      · exact .inr (.inl ⟨(hlat.sender (by simp [hdrop])).trans hdrop, hres, hlat.pid ▸ hended hgone⟩)
      · exact .inr (.inr (.inl htmo))
      · exact .inr (.inr (.inr ⟨error, herr, hmore ▸ List.mem_append_left _ hfailed⟩))
    cases hbec with
    | stays | sends => exact hbef hreturned
    | loses | left => exact hbef (by simpa using hreturned)
    | goes hgoes =>
      cases hgoes with
      | faults hph =>
        cases hreturned
        have hfailed := hexplained.failed place caller _ hcaller (by rw [hph]; rfl)
        exact .inr (.inr (.inr ⟨_, rfl, hmore ▸ List.mem_append_left _ hfailed⟩))
      | receives hph hsent =>
        cases hreturned
        exact .inl hsent
      | loses hph hdrop =>
        cases hreturned
        -- It still waits, so its receiver is there, and its delivery is not rolled back.
        rcases hexplained.dropped place caller hcaller hdrop with hcl | hgone | ⟨error, hrolled⟩
        · rcases hexplained.stillOpen place caller hcaller hcl with hover | ⟨_, hover⟩ <;> rw [hph] at hover <;> cases hover
        · exact .inr (.inl ⟨hdrop, rfl, hended hgone⟩)
        · rw [hph] at hrolled
          cases hrolled
      | leaves =>
        cases hreturned
        exact .inr (.inr (.inl rfl))
      | _ => cases hreturned
    | enqueues hph => rcases hph with rfl | rfl | ⟨_, rfl⟩ <;> cases hreturned
    | _ => cases hreturned
  · cases hreturned

theorem Explained.failed_step (hs : s.Identified) (hexplained : s.Explained)
    (h : s.step action = some s') {error : String} (hcaller' : s'.callers[place]? = some caller')
    (hfail : caller'.phase.failure = some error) : .undelivered place error ∈ s'.events := by
  obtain ⟨more, hmore⟩ := events_step h
  rcases hs.becomes h hcaller' with ⟨caller, hcaller, hbec⟩ | ⟨pid, name, rfl, hborn, -⟩
  · have hbef (hfail : caller.phase.failure = some error) : .undelivered place error ∈ s'.events :=
      hmore ▸ List.mem_append_left _ (hexplained.failed place caller error hcaller hfail)
    cases hbec with
    | stays | sends => exact hbef hfail
    | loses | left => exact hbef (by simpa using hfail)
    | goes hgoes => cases hgoes <;> cases hfail
    | fails hph hevs =>
      cases hfail
      exact hevs ▸ List.mem_append_right _ (List.mem_singleton_self _)
    | enqueues _ _ hsame => exact hbef (hsame ▸ hfail)
    | unparks hph hchg =>
      cases hfail
      exact hbef (by rw [hph]; rfl)
    | _ => cases hfail
  · cases hfail

theorem Explained.step (hs : s.Identified) (hserv : s.Served) (hknown : s.Known)
    (hexplained : s.Explained) (h : s.step action = some s') : s'.Explained := by
  refine ⟨fun place caller' result hcaller' hsent =>
      hexplained.sent_step hs hknown h hcaller' hsent,
    fun place caller' hcaller' hdrop => hexplained.dropped_step hs hknown h hcaller' hdrop,
    fun place caller' result hcaller' hreturned => hexplained.returned_step hs h hcaller' hreturned,
    fun place caller' error hcaller' hfail => hexplained.failed_step hs h hcaller' hfail,
    fun place caller' hcaller' hcl => ?_, fun pid operation query hstg reply hreply hid => ?_⟩
  · rcases hs.becomes h hcaller' with ⟨caller, hcaller, hbec⟩ | ⟨pid, name, rfl, hborn, -⟩
    · have hover (hcl : caller.closed = true) := hexplained.stillOpen place caller hcaller hcl
      cases hbec with
      | stays | sends => exact hover hcl
      | loses | left => simpa using hover (by simpa using hcl)
      | goes hgoes => cases hgoes <;> first | exact .inr ⟨_, rfl⟩ | exact .inl rfl | (have hleft := hover hcl; simp_all)
      | misses hph | probes hph | fails hph | parks hph => simpa [hph] using hover hcl
      | enqueues hph hbef =>
        exfalso
        rcases hover hcl with hover | ⟨_, hover⟩ <;> rw [hover] at hbef <;> simp at hbef
      | unparks hph hchg => rcases hchg with rfl | rfl <;> simpa [hph] using hover (by simpa using hcl)
    · cases hcl
  · have hcl : s.isClosed reply.caller = true := by
      rcases discarding_step h hstg with hbef | hcl
      · obtain ⟨place, caller, hcaller, -, -, hqueryId⟩ := hserv.asked pid query (hserv.discarding pid operation query hbef)
        rcases pending_step h hreply with hreply | hfresh
        · exact hexplained.discarding pid operation query hbef reply hreply hid
        · exact absurd (hid ▸ hs.issued place caller _ hcaller hqueryId) hfresh
      · exact hcl reply hreply hid
    obtain ⟨caller, hcaller, hgone⟩ := (Option.any_eq_true ..).mp hcl
    obtain ⟨caller', hcaller', hlat⟩ := hs.exists_later h hcaller
    exact (Option.any_eq_true ..).mpr ⟨caller', hcaller', hlat.closed hgone⟩

/-! ### Every run -/

theorem known_of_reached (h : Reached s) : s.Known :=
  h.invariant_of_reachable (fun hrch hknown _ hstep =>
      hknown.step (identified_of_reached hrch) hstep) known_start

theorem replied_of_reached (h : Reached s) : s.Replied :=
  h.invariant_of_reachable (fun hrch hreplied _ hstep =>
      hreplied.step (identified_of_reached hrch) hstep) replied_start

theorem explained_of_reached (h : Reached s) : s.Explained := by
  refine h.invariant_of_reachable (fun hrch hexplained _ hstep => ?_) explained_start
  exact hexplained.step (identified_of_reached hrch) (served_of_reached hrch)
    (known_of_reached hrch) hstep

theorem settled_of_reached (h : Reached s) : s.Settled :=
  h.invariant_of_reachable (fun hrch hsett _ hstep => hsett.step (identified_of_reached hrch) hstep)
    settled_start

/-- What must have happened for a caller to return a result. -/
def Outcome (s : QueryMailbox) (place : ℕ) (caller : QueryCaller) : QueryResult → Prop
  | .ok payload =>
    ∃ pid queryId, caller.queryId = some queryId ∧ .replied pid queryId (.ok payload) ∈ s.events
  | .error (.handlerFailed message) =>
    ∃ pid queryId, caller.queryId = some queryId ∧
      .replied pid queryId (.error (.handlerFailed message)) ∈ s.events
  | .error (.unknownQuery name) => name = caller.name ∧ FoundLive s.events place caller
  | .error .replyDropped => Ended s caller.pid
  | .error (.engine reason) =>
    ∃ error, reason = markerDeliveryError error ∧ .undelivered place error ∈ s.events
  | .error .timeout => True

/-- **Every result is explained**: a payload and a failure of the handler were sent for the
identifier of the query, an unknown name was not registered when it was looked for, and the process
was live then, a reply is dropped only when the process has ended, and the engine fails only with
what the delivery of the marker failed with. -/
theorem query_outcome (h : Reached s) {place : ℕ} {caller : QueryCaller}
    (hcaller : s.callers[place]? = some caller) {result : QueryResult}
    (hreturned : caller.phase = .returned result) : Outcome s place caller result := by
  have hreplied := replied_of_reached h
  have hexplained := explained_of_reached h
  have hsent (hsent : caller.sender = .sent result) : Outcome s place caller result := by
    rcases hexplained.sent place caller result hcaller hsent with ⟨pid, queryId, hid, hmem⟩ | ⟨rfl,
      hfd⟩ | ⟨rfl, hended⟩
    · rcases (hreplied.reached pid queryId result hmem).1 with ⟨payload, rfl⟩ | ⟨message, rfl⟩
      · exact ⟨pid, queryId, hid, hmem⟩
      · exact ⟨pid, queryId, hid, hmem⟩
    · exact ⟨rfl, hfd⟩
    · exact hended
  rcases hexplained.returned place caller result hcaller hreturned with hsender | ⟨-, rfl,
    hended⟩ | rfl | ⟨error, rfl, hfailed⟩
  · exact hsent hsender
  · exact hended
  · exact trivial
  · exact ⟨error, rfl, hfailed⟩

theorem query_outcome_answered :
    ∃ (s : QueryMailbox) (caller : QueryCaller), s.callers[0]? = some caller ∧
    Outcome s 0 caller (.ok (payloadFromString "1")) := by
  obtain ⟨s, hs⟩ : ∃ s, run step Always start answeredQueries = some s := ⟨_, rfl⟩
  have hrch : Reached s := reachable_of_run hs
  obtain rfl := Option.some.inj hs
  exact ⟨_, _, rfl, query_outcome hrch rfl rfl⟩

/-- **A reply is sent once, and it is not lost**: the caller of the query has it, and returns
nothing else, unless its time was up or its marker was not delivered. -/
theorem reply_delivered (h : Reached s) {pid : Pid} {queryId : QueryId} {result : QueryResult}
    (hmem : .replied pid queryId result ∈ s.events) :
    (repliedTo s.events).count queryId = 1 ∧ ∃ (place : ℕ) (caller : QueryCaller),
      s.callers[place]? = some caller ∧
      caller.queryId = some queryId ∧ caller.sender = .sent result ∧ ∀ result',
        caller.phase = .returned result' →
        result' = result ∨ result' = .error .timeout ∨
          ∃ error, result' = .error (.engine (markerDeliveryError error)) := by
  have hreplied := replied_of_reached h
  have hexplained := explained_of_reached h
  obtain ⟨-, place, caller, hcaller, hid, hsent⟩ := hreplied.reached pid queryId result hmem
  refine ⟨List.count_eq_one_of_mem hreplied.once (mem_repliedTo_iff.mpr ⟨pid, result, hmem⟩), place,
      caller, hcaller, hid, hsent,
    fun result' hreturned => ?_⟩
  rcases hexplained.returned place caller result' hcaller hreturned with hsender | ⟨hdrop,
    -⟩ | htmo | ⟨error, herr, -⟩
  · exact .inl (ReplySender.sent.inj (hsender.symm.trans hsent))
  · rw [hsent] at hdrop
    cases hdrop
  · exact .inr (.inl htmo)
  · exact .inr (.inr ⟨error, herr⟩)

theorem reply_delivered_answered : ∃ s : QueryMailbox, (repliedTo s.events).count "q" = 1 := by
  obtain ⟨s, hs⟩ : ∃ s, run step Always start (queuedQueries ++ handOverAndReply "q" "1") = some s := ⟨_, rfl⟩
  have hrch : Reached s := reachable_of_run hs
  have hmem : .replied 1 "q" (.ok (payloadFromString "1")) ∈ s.events := by
    obtain rfl := Option.some.inj hs
    exact List.mem_append_right _ (List.mem_singleton_self _)
  exact ⟨s, (reply_delivered hrch hmem).1⟩

/-- **No one waits for a process that has ended**: once it is cleaned up, a caller that waits
returns as soon as it looks, unless a native is about to send its reply. -/
theorem answered_after_cleanup (h : Reached s) {place : ℕ} {caller : QueryCaller}
    (hcaller : s.callers[place]? = some caller) (hwaiting : caller.phase = .waiting)
    (hclean : CleanedUp s caller.pid)
    (hnative : ∀ pid queryId result, s.native pid ≠ some (.sending queryId result place)) :
    ∃ result, s.step (.caller place .receive) = some (s.answer place result) := by
  have hsett := settled_of_reached h
  have hstep : s.step (.caller place .receive) = s.callerStep place caller .receive := by
    simp [step, hcaller]
  rw [hstep, callerStep, hwaiting]
  cases hsender : caller.sender with
  | sent result => exact ⟨result, rfl⟩
  | dropped => exact ⟨_, rfl⟩
  | unsent =>
    rcases hsett.held place caller hcaller hsender with hearly | hparked | ⟨pid, queryId,
      result, hstg⟩
    · rw [hwaiting] at hearly
      cases hearly
    · exact absurd hclean (hsett.waiting place caller hcaller (.inl hwaiting) hparked)
    · exact absurd hstg (hnative pid queryId result)

/-- The process ends before it takes the query, and is cleaned up. -/
theorem answered_after_cleanup_exited : ∃ (s : QueryMailbox) (result : QueryResult),
    s.step (.caller 0 .receive) = some (s.answer 0 result) := by
  obtain ⟨s, hs⟩ : ∃ s, run step Always start [.spawn 1, .enter 1 (.registerQuery "state"),
      .advance 1, .call 1 "state",
      .caller 0 .check, .caller 0 .prune, .caller 0 (.park "q"), .caller 0 .push,
        .caller 0 (.deliver none), .exit 1, .clean 1,
      .clean 1, .clean 1, .clean 1] = some s := ⟨_, rfl⟩
  have hrch : Reached s := reachable_of_run hs
  have hnative : ∀ pid, s.native pid = none := by
    obtain rfl := Option.some.inj hs
    intro pid
    by_cases hpid : pid = 1
    · subst hpid
      rfl
    · exact (Function.update_of_ne hpid _ _).trans (Function.update_of_ne hpid _ _)
  obtain rfl := Option.some.inj hs
  exact ⟨_, answered_after_cleanup hrch rfl rfl rfl fun pid queryId result
      hstg => by rw [hnative] at hstg; cases hstg⟩

end QueryMailbox

end Aion
