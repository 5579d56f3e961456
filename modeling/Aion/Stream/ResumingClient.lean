import Aion.Library.Actions
import Aion.Stream.Reader

/-!
# The client's end of a subscription

`ResumingEventStream` of the client (`stream.rs`). A poll goes round its loop until there is
something to return; one round (`round`) asks for a subscription, or takes the answer to that, or
takes the next item of the subscription it has. A stream of one workflow keeps the number of the
last event it has returned: it drops what is not beyond it, and asks for the number after it
whenever it attaches again. The other streams have no cursor, and do not attach again once they have
returned an event.

Whatever the server answers, the numbers of the events that a stream of one workflow returns
increase, every attachment asks for the number after the last of them, and nothing follows an error
or the end (`returned_in_order`).
-/

namespace Aion

open Actions

/-! ### Errors of the client -/

/-- The variants of `ClientError`. -/
inductive ClientErrorKind where
  | notFound
  | alreadyExists
  | queryFailed
  | queryTimeout
  | unknownQuery
  | notRunning
  | cancelled
  | unavailable
  | unauthenticated
  | namespaceDenied
  | invalidArgument
  | invalidState
  | server
  deriving DecidableEq

/-- `ErrorDetail`. -/
structure ErrorDetail where
  message : String
  errorType : Option String := none
  deriving DecidableEq

/-- `ClientError`: every variant carries a detail. -/
structure ClientError where
  kind : ClientErrorKind
  detail : ErrorDetail
  deriving DecidableEq

/-- `is_retryable`. -/
def isRetryable (error : ClientError) : Bool := error.kind = .unavailable

/-! ### The stream -/

/-- `ResumingEventStream`; its target is one workflow or not. -/
structure ResumingEventStream where
  perWorkflow : Bool
  lastSeq : Option ℕ
  deliveredAny : Bool
  /-- Whether it has a subscription. -/
  current : Bool
  /-- The subscription it has asked for, by the cursor it has asked for. -/
  pendingSubscribe : Option (Option ℕ)
  terminalError : Option ClientError
  finished : Bool
  deriving DecidableEq

/-- What the future or the stream that a round polls answers. -/
inductive Answer where
  | pending
  /-- The subscription is there, or it is refused. -/
  | attempt (result : Except ClientError Unit)
  /-- The next item of the subscription, or its end. -/
  | item (item : Option (Except ClientError Event))

/-- What a round comes to. -/
inductive Round where
  /-- The loop goes on. -/
  | continue
  | pending
  | ready (item : Option (Except ClientError Event))

/-- What a round returns. -/
def Round.items : Round → List (Option (Except ClientError Event))
  | .ready item => [item]
  | _ => []

namespace ResumingEventStream

/-- A stream that has not been polled, and counts everything up to a number as returned. -/
def startingAfter (perWorkflow : Bool) (lastSeq : Option ℕ) : ResumingEventStream :=
  ⟨perWorkflow, lastSeq, false, false, none, none, false⟩

/-- `ResumingEventStream::new`. -/
def new (perWorkflow : Bool) : ResumingEventStream := startingAfter perWorkflow none

/-- `from_sequence`: the first attachment asks for `resumeFrom`, which is not zero. -/
def fromSequence (resumeFrom : ℕ) : ResumingEventStream :=
  startingAfter true (some (resumeFrom - 1))

variable (stream : ResumingEventStream)

/-- `start_subscribe`. -/
def startSubscribe : ResumingEventStream :=
  { stream with pendingSubscribe := some (if stream.perWorkflow then
      stream.lastSeq.map saturatingSucc else none) }

/-- Whether an error makes it attach again. -/
def reattaches (error : ClientError) : Bool :=
  isRetryable error && (stream.perWorkflow || !stream.deliveredAny)

/-- Whether an event is not beyond the last one. -/
def isDuplicate (event : Event) : Bool := stream.perWorkflow && stream.lastSeq.any (event.seq ≤ ·)

/-- One round of `poll_next`. -/
def round (answer : Answer) : ResumingEventStream × Round :=
  if stream.finished then (stream, .ready none)
  else
    match stream.terminalError, stream.pendingSubscribe, answer with
    | some error, _, _ =>
      ({ stream with terminalError := none, finished := true }, .ready (some (.error error)))
    | none, some _, .attempt (.ok ()) =>
      ({ stream with pendingSubscribe := none, current := true }, .continue)
    | none, some _, .attempt (.error error) =>
      if stream.reattaches error then ({ stream with pendingSubscribe := none }, .continue)
      else ({ stream with pendingSubscribe := none, finished := true }, .ready (some (.error error)))
    | none, some _, _ => (stream, .pending)
    | none, none, answer =>
      if stream.current then
        match answer with
        | .item (some (.ok event)) =>
          if stream.isDuplicate event then (stream, .continue)
          else
            ({ stream with
                lastSeq := if stream.perWorkflow then some event.seq else stream.lastSeq
                deliveredAny := true },
              .ready (some (.ok event)))
        | .item (some (.error error)) =>
          if stream.reattaches error then ({ stream with current := false }, .continue)
          else ({ stream with current := false, terminalError := some error }, .continue)
        | .item none => ({ stream with current := false, finished := true }, .ready none)
        | _ => (stream, .pending)
      else (stream.startSubscribe, .continue)

end ResumingEventStream

/-! ### Polls -/

/-- A stream, and what the polls of it have returned. -/
structure Polled where
  stream : ResumingEventStream
  returned : List (Option (Except ClientError Event))

namespace Polled

variable (p : Polled)

/-- A stream that has not been polled. -/
def start (stream : ResumingEventStream) : Polled := ⟨stream, []⟩

/-- A round, with what its poll returns. -/
def round (answer : Answer) : Polled :=
  let rounded := p.stream.round answer
  ⟨rounded.1, p.returned ++ rounded.2.items⟩

/-- The events that have been returned. -/
def events : List Event := p.returned.filterMap fun item => item.bind Except.toOption

/-- Every answer may come. -/
def step (answer : Answer) : Option Polled := some (p.round answer)

/-- What a round can do with an answer. -/
inductive Goes (answer : Answer) : Polled → Prop where
  | stays (hfin : p.stream.finished = true) : Goes answer ⟨p.stream, p.returned ++ [none]⟩
  | fails (error : ClientError) (hopen : p.stream.finished = false)
    (herr : p.stream.terminalError = some error) :
    Goes answer ⟨{ p.stream with terminalError := none, finished := true }, p.returned ++ [some (.error error)]⟩
  | waits (hans : p.stream.pendingSubscribe ≠ none ∨ ∀ item, answer ≠ .item item) : Goes answer p
  | attaches (cursor : Option ℕ) (hans : answer = .attempt (.ok ()))
    (hopen : p.stream.finished = false)
    (hnone : p.stream.terminalError = none) (hpend : p.stream.pendingSubscribe = some cursor) :
    Goes answer ⟨{ p.stream with pendingSubscribe := none, current := true }, p.returned⟩
  | retries (cursor : Option ℕ) (error : ClientError) (hans : answer = .attempt (.error error))
    (hpend : p.stream.pendingSubscribe = some cursor) (hreatt : p.stream.reattaches error = true) :
    Goes answer ⟨{ p.stream with pendingSubscribe := none }, p.returned⟩
  | refused (cursor : Option ℕ) (error : ClientError) (hans : answer = .attempt (.error error))
    (hopen : p.stream.finished = false) (hpend : p.stream.pendingSubscribe = some cursor)
    (hreatt : p.stream.reattaches error = false) :
    Goes answer ⟨{ p.stream with pendingSubscribe := none, finished := true }, p.returned ++ [some (.error error)]⟩
  | drops (event : Event) (hans : answer = .item (some (.ok event)))
    (hdup : p.stream.isDuplicate event = true) :
    Goes answer p
  | returns (event : Event) (hans : answer = .item (some (.ok event)))
    (hopen : p.stream.finished = false)
    (hnone : p.stream.terminalError = none) (hpend : p.stream.pendingSubscribe = none)
    (hcur : p.stream.current = true) (hnew : p.stream.isDuplicate event = false) :
    Goes answer ⟨{ p.stream with
        lastSeq := if p.stream.perWorkflow then some event.seq else p.stream.lastSeq
        deliveredAny := true }, p.returned ++ [some (.ok event)]⟩
  | breaks (error : ClientError) (hans : answer = .item (some (.error error)))
    (hpend : p.stream.pendingSubscribe = none) (hreatt : p.stream.reattaches error = true) :
    Goes answer ⟨{ p.stream with current := false }, p.returned⟩
  | gives (error : ClientError) (hans : answer = .item (some (.error error)))
    (hopen : p.stream.finished = false)
    (hpend : p.stream.pendingSubscribe = none) (hreatt : p.stream.reattaches error = false) :
    Goes answer ⟨{ p.stream with current := false, terminalError := some error }, p.returned⟩
  | closes (hans : answer = .item none) (hopen : p.stream.finished = false)
    (hcur : p.stream.current = true) :
    Goes answer ⟨{ p.stream with current := false, finished := true }, p.returned ++ [none]⟩
  | subscribes (hopen : p.stream.finished = false) (hnone : p.stream.terminalError = none)
    (hpend : p.stream.pendingSubscribe = none) (hcur : p.stream.current = false) :
    Goes answer ⟨p.stream.startSubscribe, p.returned⟩

theorem round_goes (answer : Answer) : p.Goes answer (p.round answer) := by
  have hquiet (stream : ResumingEventStream) (h : p.Goes answer ⟨stream, p.returned⟩) :
      p.Goes answer ⟨stream, p.returned ++ []⟩ := by
    rwa [List.append_nil]
  cases hround : p.stream.round answer with
  | mk stream' round' =>
  simp only [round, hround]
  unfold ResumingEventStream.round at hround
  by_cases hfin : p.stream.finished = true
  · rw [if_pos hfin] at hround
    cases hround
    exact .stays hfin
  · rw [if_neg hfin] at hround
    have hopen : p.stream.finished = false := by simpa using hfin
    split at hround
    · rename_i error herr
      cases hround
      exact .fails error hopen herr
    · rename_i cursor hnone hpend
      cases hround
      exact hquiet _ (.attaches cursor rfl hopen hnone hpend)
    · rename_i cursor error hnone hpend
      split at hround <;> rename_i hreatt <;> cases hround
      · exact hquiet _ (.retries cursor error rfl hpend hreatt)
      · exact .refused cursor error rfl hopen hpend (by simpa using hreatt)
    · rename_i cursor _ hpend _ _
      cases hround
      exact hquiet _ (.waits (.inl (by simp [hpend])))
    · rename_i hnone hpend
      by_cases hcur : p.stream.current = true
      · rw [if_pos hcur] at hround
        split at hround
        · rename_i event
          split at hround <;> rename_i hdup <;> cases hround
          · exact hquiet _ (.drops event rfl hdup)
          · exact .returns event rfl hopen hnone hpend hcur (by simpa using hdup)
        · rename_i error
          split at hround <;> rename_i hreatt <;> cases hround
          · exact hquiet _ (.breaks error rfl hpend hreatt)
          · exact hquiet _ (.gives error rfl hopen hpend (by simpa using hreatt))
        · cases hround
          exact .closes rfl hopen hcur
        · rename_i hev herr hend
          cases hround
          refine hquiet _ (.waits (.inr fun item hitem => ?_))
          rcases item with - | error | event
          · exact hend hitem
          · exact herr error hitem
          · exact hev event hitem
      · rw [if_neg hcur] at hround
        cases hround
        exact hquiet _ (.subscribes hopen hnone hpend (by simpa using hcur))

/-! ### What is returned -/

/-- The number a stream starts after, if there is one, and those of the events that it has
returned. -/
def seen (first : Option ℕ) : List ℕ := first.toList ++ p.events.map Event.seq

/-- What a stream returns, whatever it is answered. -/
structure InOrder (perWorkflow : Bool) (first : Option ℕ) (p : Polled) : Prop where
  /-- Events, and then one error at most, and the end from there on. -/
  shape : ∃ (error : Option ClientError) (ends : ℕ), p.returned =
    p.events.map (fun event => some (.ok event)) ++ error.toList.map
      (fun error => some (.error error)) ++ List.replicate ends none
  increasing : perWorkflow = true → (p.seen first).Pairwise (· < ·)
  /-- An attachment asks for the number after the last. -/
  asks : ∀ cursor, p.stream.pendingSubscribe = some cursor →
    cursor = if perWorkflow then (p.seen first).getLast?.map saturatingSucc else none
  /-- Without a cursor there is no attachment after the first event. -/
  once : perWorkflow = false → p.events ≠ [] → p.stream.pendingSubscribe = none

/-- The invariant. -/
structure Ordered (perWorkflow : Bool) (first : Option ℕ) (p : Polled) :
    Prop extends p.InOrder perWorkflow first where
  kind : p.stream.perWorkflow = perWorkflow
  last : perWorkflow = true → p.stream.lastSeq = (p.seen first).getLast?
  delivered : p.stream.deliveredAny = true ↔ p.events ≠ []
  opened : p.stream.finished = false → p.returned = p.events.map fun event => some (.ok event)
  /-- A stream without a cursor that has returned an event keeps its subscription, or is done. -/
  attached : perWorkflow = false → p.events ≠ [] → p.stream.finished = false →
    p.stream.terminalError = none →
    p.stream.current = true
  connected : p.stream.current = true →
    p.stream.finished = false ∧ p.stream.terminalError = none ∧ p.stream.pendingSubscribe = none

variable {p} {perWorkflow : Bool} {first : Option ℕ} {stream : ResumingEventStream}

theorem ordered_start : (start (.startingAfter perWorkflow first)).Ordered perWorkflow first where
  shape := ⟨none, 0, rfl⟩
  increasing _ := by cases first <;> simp [seen, events, start]
  asks cursor hcursor := by cases hcursor
  once _ _ := rfl
  kind := rfl
  last _ := by cases first <;> simp [seen, events, start, ResumingEventStream.startingAfter]
  delivered := by simp [start, ResumingEventStream.startingAfter, events]
  opened _ := rfl
  attached _ hevs := absurd rfl hevs
  connected hcur := by cases hcur

variable (p stream) in
/-- The stream goes on, and no event is returned. -/
structure Quiet : Prop where
  keeps : stream.perWorkflow = p.stream.perWorkflow ∧ stream.lastSeq = p.stream.lastSeq ∧
    stream.deliveredAny = p.stream.deliveredAny
  asks : ∀ cursor, stream.pendingSubscribe = some cursor → p.stream.pendingSubscribe = some cursor ∨
    cursor = (if p.stream.perWorkflow then p.stream.lastSeq.map saturatingSucc else none) ∧
      (p.stream.perWorkflow = false → p.events = [])
  attached : p.stream.perWorkflow = false → p.events ≠ [] → stream.finished = false →
    stream.terminalError = none →
    stream.current = true
  connected : stream.current = true → stream.finished = false ∧ stream.terminalError = none ∧
    stream.pendingSubscribe = none

theorem Ordered.of_quiet (h : p.Ordered perWorkflow first)
    (more : List (Option (Except ClientError Event)))
    (hmore : more.filterMap (fun item => item.bind Except.toOption) = [])
    (hshape : ∃ (error : Option ClientError) (ends : ℕ),
        p.returned ++ more = p.events.map (fun event => some (.ok event)) ++ error.toList.map
      (fun error => some (.error error)) ++ List.replicate ends none)
    (hopened : stream.finished = false → p.stream.finished = false ∧ more = [])
    (hquiet : p.Quiet stream) : Ordered perWorkflow first ⟨stream, p.returned ++ more⟩ := by
  have hevs : events ⟨stream, p.returned ++ more⟩ = p.events := by
    simp [events, hmore]
  have hseen : seen ⟨stream, p.returned ++ more⟩ first = p.seen first := by rw [seen, hevs, seen]
  obtain ⟨⟨hkind, hlast, hdeliv⟩, hasks, hattached, hconnected⟩ := hquiet
  refine ⟨⟨?_, ?_, ?_, ?_⟩, ?_, ?_, ?_, ?_, ?_, hconnected⟩
  · rwa [hevs]
  · rw [hseen]
    exact h.increasing
  · intro cursor hcursor
    rw [hseen]
    rcases hasks cursor hcursor with hpend | ⟨rfl, -⟩
    · exact h.asks cursor hpend
    · rw [h.kind]
      cases perWorkflow with
      | false => rfl
      | true => rw [if_pos rfl, if_pos rfl, h.last rfl]
  · intro hlive hsome
    rw [hevs] at hsome
    refine Option.eq_none_iff_forall_ne_some.mpr fun cursor hcursor => ?_
    rcases hasks cursor hcursor with hpend | ⟨-, hnone⟩
    · rw [h.once hlive hsome] at hpend
      cases hpend
    · exact hsome (hnone (h.kind.trans hlive))
  · exact hkind.trans h.kind
  · intro hper
    rw [hseen]
    exact hlast.trans (h.last hper)
  · rw [hevs]
    show stream.deliveredAny = true ↔ p.events ≠ []
    rw [hdeliv]
    exact h.delivered
  · intro hopen
    obtain ⟨hopen', rfl⟩ := hopened hopen
    rw [hevs]
    exact (List.append_nil _).trans (h.opened hopen')
  · intro hlive hsome
    rw [hevs] at hsome
    exact hattached (h.kind.trans hlive) hsome

variable {event : Event}

/-- An event that is not dropped is beyond what has been seen. -/
theorem Ordered.lt_of_new (h : p.Ordered perWorkflow first) (hper : perWorkflow = true)
    (hnew : p.stream.isDuplicate event = false) {seq : ℕ} (hseq : seq ∈ p.seen first) :
    seq < event.seq := by
  cases hlast : (p.seen first).getLast? with
  | none =>
    rw [List.getLast?_eq_none_iff.mp hlast] at hseq
    cases hseq
  | some last =>
    have hlt : last < event.seq := by
      simpa [ResumingEventStream.isDuplicate, h.kind.trans hper, h.last hper, hlast] using hnew
    obtain ⟨before, hbef⟩ := List.getLast?_eq_some_iff.mp hlast
    have hincreasing := h.increasing hper
    rw [hbef] at hseq hincreasing
    rcases List.mem_append.mp hseq with hseq | hseq
    · exact ((List.pairwise_append.mp hincreasing).2.2 seq hseq last (List.mem_singleton_self _)).trans hlt
    · rwa [List.mem_singleton.mp hseq]

/-- An event is returned. -/
theorem Ordered.returns (h : p.Ordered perWorkflow first) (hopen : p.stream.finished = false)
    (hpend : p.stream.pendingSubscribe = none) (hcur : p.stream.current = true)
    (hnew : p.stream.isDuplicate event = false) :
    Ordered perWorkflow first ⟨{ p.stream with
        lastSeq := if p.stream.perWorkflow then some event.seq else p.stream.lastSeq
        deliveredAny := true }, p.returned ++ [some (.ok event)]⟩ := by
  have hevs : ∀ stream, events ⟨stream, p.returned ++ [some (.ok event)]⟩ = p.events ++ [event] :=
    fun stream => by
    simp [events, Except.toOption]
  have hseen : ∀ stream, seen ⟨stream, p.returned ++ [some (.ok event)]⟩ first = p.seen first ++ [event.seq] := fun stream => by
    simp [seen, hevs]
  have hret : p.returned ++ [some (.ok event)] = (p.events ++ [event]).map fun event => some (.ok event) := by
    rw [h.opened hopen, List.map_append, List.map_singleton]
  refine ⟨⟨⟨none, 0, ?_⟩, fun hper => ?_, ?_, ?_⟩, h.kind, fun hper => ?_, ?_, fun _ =>
      ?_, fun _ _ _ _ => hcur,
    h.connected⟩
  · rw [hevs, hret]
    simp
  · rw [hseen, List.pairwise_append]
    refine ⟨h.increasing hper, List.pairwise_singleton _ _, fun seq hseq _ hlast => ?_⟩
    rw [List.mem_singleton.mp hlast]
    exact h.lt_of_new hper hnew hseq
  · simp [hpend]
  · intro _ _
    exact hpend
  · rw [hseen, List.getLast?_concat]
    exact if_pos (h.kind.trans hper)
  · simp [hevs]
  · rw [hevs]
    exact hret

/-- A round that returns nothing. -/
theorem Ordered.of_silent (h : p.Ordered perWorkflow first)
    (hopened : stream.finished = false → p.stream.finished = false)
    (hquiet : p.Quiet stream) : Ordered perWorkflow first ⟨stream, p.returned⟩ := by
  have hsilent := h.of_quiet [] rfl (by rw [List.append_nil]; exact h.shape) (fun hopen => ⟨hopened hopen, rfl⟩) hquiet
  rwa [List.append_nil] at hsilent

theorem InOrder.shape_end (h : p.InOrder perWorkflow first) :
    ∃ (error : Option ClientError) (ends : ℕ),
    p.returned ++ [none] = p.events.map (fun event => some (.ok event)) ++ error.toList.map
      (fun error => some (.error error)) ++
      List.replicate ends none := by
  obtain ⟨error, ends, hshape⟩ := h.shape
  refine ⟨error, ends + 1, ?_⟩
  rw [List.replicate_succ', ← List.append_assoc, ← hshape]

theorem Ordered.shape_error (h : p.Ordered perWorkflow first) (hopen : p.stream.finished = false)
    (error : ClientError) :
    ∃ (error' : Option ClientError) (ends : ℕ), p.returned ++ [some (.error error)] =
      p.events.map (fun event => some (.ok event)) ++ error'.toList.map
        (fun error => some (.error error)) ++
        List.replicate ends none := by
  refine ⟨some error, 0, ?_⟩
  rw [h.opened hopen]
  simp

theorem Ordered.goes {p' : Polled} {answer : Answer} (h : p.Ordered perWorkflow first)
    (hgoes : p.Goes answer p') : p'.Ordered perWorkflow first := by
  cases hgoes with
  | stays hfin =>
    exact h.of_quiet [none] rfl h.shape_end (by simp [hfin]) ⟨⟨rfl, rfl, rfl⟩, fun _ => .inl, by simp [hfin], h.connected⟩
  | fails error hopen herr =>
    refine h.of_quiet [some (.error error)] rfl (h.shape_error hopen error) (by simp)
      ⟨⟨rfl, rfl, rfl⟩, fun _ => .inl, by simp, ?_⟩
    intro hcur
    rw [(h.connected hcur).2.1] at herr
    cases herr
  | waits hans => exact h
  | drops event hans hdup => exact h
  | attaches cursor hans hopen hnone hpend =>
    exact h.of_silent id ⟨⟨rfl, rfl, rfl⟩, by simp, fun _ _ _ _ => rfl, fun _ => ⟨hopen, hnone, rfl⟩⟩
  | retries cursor error hans hpend hreatt =>
    refine h.of_silent id ⟨⟨rfl, rfl, rfl⟩, by simp, fun hlive hsome => ?_, fun hcur => ?_⟩
    -- A stream that has returned an event without a cursor has not asked for a subscription.
    · rw [h.once (h.kind.symm.trans hlive) hsome] at hpend
      cases hpend
    · rw [(h.connected hcur).2.2] at hpend
      cases hpend
  | refused cursor error hans hopen hpend hreatt =>
    refine h.of_quiet [some (.error error)] rfl (h.shape_error hopen error) (by simp)
      ⟨⟨rfl, rfl, rfl⟩, by simp, by simp, ?_⟩
    intro hcur
    rw [(h.connected hcur).2.2] at hpend
    cases hpend
  | breaks error hans hpend hreatt =>
    refine h.of_silent id ⟨⟨rfl, rfl, rfl⟩, fun _ => .inl, fun hlive hsome => ?_, by simp⟩
    simp [ResumingEventStream.reattaches, hlive, h.delivered.mpr hsome] at hreatt
  | gives error hans hopen hpend hreatt =>
    exact h.of_silent id ⟨⟨rfl, rfl, rfl⟩, fun _ => .inl, by simp, by simp⟩
  | closes hans hopen hcur =>
    exact h.of_quiet [none] rfl h.shape_end (by simp) ⟨⟨rfl, rfl, rfl⟩, fun _ => .inl, by simp, by simp⟩
  | subscribes hopen hnone hpend hcur =>
    have hevs (hlive : p.stream.perWorkflow = false) : p.events = [] := by
      by_contra hsome
      rw [h.attached (h.kind.symm.trans hlive) hsome hopen hnone] at hcur
      cases hcur
    refine h.of_silent id ⟨⟨rfl, rfl, rfl⟩, fun cursor hcursor => .inr ⟨(Option.some.inj hcursor).symm, hevs⟩, ?_, ?_⟩
    · exact fun hlive hsome => absurd (hevs hlive) hsome
    · intro hcur'
      rw [show p.stream.current = true from hcur'] at hcur
      cases hcur
  | returns event hans hopen hnone hpend hcur hnew => exact h.returns hopen hpend hcur hnew

theorem Ordered.step {p' : Polled} {answer : Answer} (h : p.Ordered perWorkflow first)
    (hstep : p.step answer = some p') : p'.Ordered perWorkflow first :=
  Option.some.inj hstep ▸ h.goes (p.round_goes answer)

end Polled

/-- **Returned in order**: whatever the subscriptions answer, the numbers of the events that a
stream of one workflow returns increase and go on after the number it starts after; it always asks
for the number after the last of them. A stream without a cursor does not attach again after its
first event. Nothing follows an error or the end. -/
theorem returned_in_order {perWorkflow : Bool} {first : Option ℕ} {p : Polled}
    (h : Reachable Polled.step Always (Polled.start (.startingAfter perWorkflow first)) p) :
    p.InOrder perWorkflow first := by
  have hord : p.Ordered perWorkflow first :=
    h.invariant (fun hord _ hstep => hord.step hstep) Polled.ordered_start
  exact hord.toInOrder

/-- The second event comes again after a break. -/
def answersAcrossBreak : List Answer :=
  let events :=
    numbered [.signalReceived "a" .empty, .signalReceived "b" .empty, .signalReceived "c" .empty]
  let received (event : Event) : Answer := .item (some (.ok event))
  [.pending, .attempt (.ok ())] ++ (events.take 2).map received ++
    [.item (some (.error ⟨.unavailable, ⟨"websocket closed without a close frame", none⟩⟩)), .pending, .attempt (.ok ())] ++
    (events.drop 1).map received ++ [.item none, .pending]

/-- It is returned once, and the stream ends after the third. -/
theorem returned_in_order_across_break :
    ∃ p : Polled, p.InOrder true (some 0) ∧ p.events.map Event.seq = [1, 2, 3] ∧
    p.returned.length = 5 := by
  obtain ⟨p, hp⟩ : ∃ p, run Polled.step Always (.start (.startingAfter true (some 0))) answersAcrossBreak = some p := ⟨_, rfl⟩
  refine ⟨p, returned_in_order (reachable_of_run hp), ?_⟩
  obtain rfl := Option.some.inj hp
  exact ⟨rfl, rfl⟩

end Aion
