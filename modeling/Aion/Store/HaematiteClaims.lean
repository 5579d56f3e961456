import Aion.Store.HaematiteCalls

/-!
# Concurrent claims on the haematite outbox

A claim scans the shards and then rewrites the rows it selected one by one; nothing holds
the other calls off between the scan and the rewrites.

A run is undisturbed when every rewrite of a claim finds the row as the scan read it, and
no row is made pending again before the claim that took it has returned. In an undisturbed
run claims are exclusive: between two returns of a row it becomes pending again, and no
claim overwrites a row that has reached its end (`claims_exclusive_of_undisturbed`). Two
claims that scan before either rewrites both return the row (`both_claims_return_the_row`).
-/

namespace Aion.Haematite

open DbM Interleaving

variable {Bytes : Type} {sharding : Sharding} {db : HaematiteDatabase Bytes sharding}

/-! ### What claims promise -/

/-- The status token of a stored value. -/
def token (codec : OutboxCodec Bytes) (value : Bytes) : Option String :=
  match codec.rowFromSlice value with
  | .ok stored => some stored.status
  | .error _ => none

/-- The status token of what is stored. -/
def statusAt (codec : OutboxCodec Bytes) (database : Database Bytes) (row : RowId) :
    Option String :=
  ((database.shards row.shard).lookup row.key).bind fun entry => token codec entry.2

/-- The rows a claim returns in a step. -/
def returned (sharding : Sharding) : OutboxLabel Bytes → List RowId
  | .finished _ start _ (.ok (.rows rows)) _ =>
    if isClaim start then rows.map (rowId sharding) else []
  | _ => []

/-- The row written in a step and its value. -/
def written (sharding : Sharding) : OutboxLabel Bytes → Option (RowId × Bytes)
  | .called _ (.putRouted workflowId key value) _ =>
    some (⟨sharding.shardOf workflowId, key⟩, value)
  | _ => none

/-- The row becomes pending in the step. -/
def BecomesPending (codec : OutboxCodec Bytes) (db : HaematiteDatabase Bytes sharding)
    (step : OutboxStep db) (row : RowId) : Prop :=
  statusAt codec (db.kept step.1.store) row ≠ some "pending" ∧ ∃ i request reply,
    step.2 = .called i request reply ∧
    statusAt codec (db.kept (db.serve step.1.store request).2) row = some "pending"

/-- A claim is running, with a log. -/
def Claiming (s : OutboxSystem db) (i : ℕ) (log : List (Access Bytes)) : Prop :=
  ∃ start rest, s.clients i = some (.busy start log rest) ∧ isClaim start

/-- A claim returns the row in the step. -/
def Returns (sharding : Sharding) {db : HaematiteDatabase Bytes sharding} (step : OutboxStep db)
    (row : RowId) : Prop :=
  row ∈ returned sharding step.2

/-- Between two returns of a row by claims it becomes pending. -/
def Exclusive (codec : OutboxCodec Bytes) (db : HaematiteDatabase Bytes sharding)
    (steps : List (OutboxStep db)) : Prop :=
  Separated (Returns sharding) (BecomesPending codec db) steps

/-- No claim overwrites a row that is done, failed or cancelled. -/
def KeepsTerminal (codec : OutboxCodec Bytes) (db : HaematiteDatabase Bytes sharding)
    (steps : List (OutboxStep db)) : Prop :=
  ∀ step ∈ steps, ∀ i workflowId key value reply,
    step.2 = .called i (.putRouted workflowId key value) reply →
    ∀ log, Claiming step.1 i log → ∀ status : OutboxStatus,
      statusAt codec (db.kept step.1.store) ⟨sharding.shardOf workflowId, key⟩ = some status.asStr → status.isInflight

/-- The step does not fall between the scan of a claim and its rewrites: a claim's rewrite
finds what its scan read, and no row is made pending while a claim that took it runs. -/
def Undisturbed (codec : OutboxCodec Bytes) (db : HaematiteDatabase Bytes sharding)
    (step : OutboxStep db) : Prop :=
  ∀ i workflowId key value reply, step.2 = .called i (.putRouted workflowId key value) reply →
    (∀ log, Claiming step.1 i log → ∀ entries bytes, Access.read (sharding.shardOf workflowId) entries ∈ log →
        (key, bytes) ∈ entries → entryAt sharding (db.kept step.1.store) workflowId key = some bytes) ∧
      (token codec value = some "pending" → ∀ j log, Claiming step.1 j log →
        ∀ taken, Access.write (sharding.shardOf workflowId) key taken ∉ log)

/-! ### What is stored -/

variable {workflowId : WorkflowId} {key : String} {value bytes : Bytes} {shard i : ℕ}

section Stored

variable {codec : OutboxCodec Bytes}

theorem eq_asStr_of_parseToken {value : String} {status : OutboxStatus}
    (h : OutboxStatus.parseToken value = .ok status) : value = status.asStr := by
  unfold OutboxStatus.parseToken at h
  split_ifs at h <;> cases h <;> assumption

variable {row : OutboxRow}

/-- A row that is read has the status of its token. -/
theorem token_of_decode (h : decodeOutbox codec value = .ok row) :
    token codec value = some row.status.asStr := by
  unfold decodeOutbox at h
  obtain ⟨stored, hsto, h⟩ := Result.bind_eq_ok h
  obtain ⟨status, hstat, h⟩ := Result.bind_eq_ok h
  obtain ⟨visibleAfter, -, h⟩ := Result.bind_eq_ok h
  obtain ⟨claimedAt, -, h⟩ := Result.bind_eq_ok h
  cases h
  unfold token
  cases hslice : codec.rowFromSlice value with
  | error error =>
    rw [hslice] at hsto
    cases hsto
  | ok found =>
    rw [hslice] at hsto
    cases hsto
    exact congrArg some (eq_asStr_of_parseToken hstat)

variable (hrow : ∀ row, codec.rowFromSlice (codec.rowToVec row) = .ok row)
include hrow

theorem token_encodeOutbox (row : OutboxRow) :
    token codec (encodeOutbox codec row) = some row.status.asStr := by
  unfold token encodeOutbox
  rw [hrow]
  rfl

theorem wellPlaced_encodeOutbox (h : rowId sharding row = ⟨shard, key⟩) :
    WellPlaced codec sharding shard key (encodeOutbox codec row) := by
  intro found hfd
  rw [← h]
  unfold decodeOutbox encodeOutbox at hfd
  rw [hrow] at hfd
  obtain ⟨stored', hsto, hfd⟩ := Result.bind_eq_ok hfd
  obtain ⟨status, -, hfd⟩ := Result.bind_eq_ok hfd
  obtain ⟨visibleAfter, -, hfd⟩ := Result.bind_eq_ok hfd
  obtain ⟨claimedAt, -, hfd⟩ := Result.bind_eq_ok hfd
  cases hsto
  cases hfd
  rfl

end Stored

section Writes

variable {codec : OutboxCodec Bytes} {database : Database Bytes}

theorem lookup_put (workflowId : WorkflowId) (key : String) (value : Bytes) (row : RowId) :
    ((put sharding database workflowId key value).shards row.shard).lookup row.key =
      if row = ⟨sharding.shardOf workflowId, key⟩ then some (key, value)
      else (database.shards row.shard).lookup row.key := by
  obtain ⟨shard, key'⟩ := row
  simp only [put, Database.serve, RowId.mk.injEq]
  by_cases hshard : shard = sharding.shardOf workflowId
  · subst hshard
    rw [Function.update_self, KeyedTable.lookup_upsert]
    by_cases hkey : key = key'
    · subst hkey
      cases hfd : (database.shards (sharding.shardOf workflowId)).lookup key with
      | none => simp
      | some entry =>
        have hent : entry.1 = key := KeyedTable.key_of_lookup hfd
        simp [hent]
    · simp [hkey, Ne.symm hkey]
  · simp [hshard]

theorem statusAt_put (workflowId : WorkflowId) (key : String) (value : Bytes) (row : RowId) :
    statusAt codec (put sharding database workflowId key value) row =
      if row = ⟨sharding.shardOf workflowId, key⟩ then token codec value
      else statusAt codec database row := by
  unfold statusAt
  rw [lookup_put]
  split <;> rfl

theorem statusAt_of_entryAt (h : entryAt sharding database workflowId key = some bytes) :
    statusAt codec database ⟨sharding.shardOf workflowId, key⟩ = token codec bytes := by
  obtain ⟨entry, hent, rfl⟩ := Option.map_eq_some_iff.mp h
  unfold statusAt
  rw [hent]
  rfl

end Writes

section Replies

variable {state : db.State} {request : DbCall Bytes}

theorem answer_of_serve {answer : request.Answer} (h : (db.serve state request).1 = .ok answer) :
    ((db.kept state).serve sharding request).1 = answer := congrArg Prod.fst (db.serve_ok h)

/-- A call changes nothing, or what it changes when it is answered. -/
theorem kept_serve (db : HaematiteDatabase Bytes sharding) (state : db.State)
    (request : DbCall Bytes) :
    db.kept (db.serve state request).2 = db.kept state ∨
      db.kept (db.serve state request).2 = ((db.kept state).serve sharding request).2 := by
  cases hreply : (db.serve state request).1 with
  | error error => exact db.serve_error hreply
  | ok answer => exact .inr (congrArg Prod.snd (db.serve_ok hreply)).symm

theorem kept_serve_of_reads (h : ((db.kept state).serve sharding request).2 = db.kept state) :
    db.kept (db.serve state request).2 = db.kept state :=
  (kept_serve db state request).elim id fun hkept => hkept.trans h

/-- What holds of all that an answer adds to the log holds of all that is added. -/
theorem added_of_reply {p : Access Bytes → Prop}
    (h : ∀ answer, (db.serve state request).1 = .ok answer →
        ∀ access ∈ accesses sharding request (.ok answer), p access) :
    ∀ access ∈ accesses sharding request (db.serve state request).1, p access := by
  cases hreply : (db.serve state request).1 with
  | error error =>
    intro access hacc
    cases request <;> cases hacc
  | ok answer => exact h answer hreply

/-- Only a put makes a row pending. -/
theorem written_of_becomesPending {codec : OutboxCodec Bytes} {step : OutboxStep db} {row : RowId}
    (h : BecomesPending codec db step row) :
    ∃ value, written sharding step.2 = some (row, value) ∧ token codec value = some "pending" := by
  obtain ⟨hbef, i, request, reply, hlabel, hafter⟩ := h
  rcases kept_serve db step.1.store request with hkept | hkept
  · rw [hkept] at hafter
    exact absurd hafter hbef
  · rw [hkept] at hafter
    cases request with
    | putRouted workflowId key value =>
      have hstat := (statusAt_put workflowId key value row).symm.trans hafter
      split at hstat
      · rename_i hrow
        exact ⟨value, by rw [hlabel, written, hrow], hstat⟩
      · exact absurd hstat hbef
    | appendBatch workflowId events expectedSeq =>
      refine absurd ?_ hbef
      simp only [Database.serve] at hafter
      split at hafter <;> exact hafter
    | _ => exact absurd hafter hbef

end Replies

/-! ### Undisturbed runs -/

section Invariant

variable {codec : OutboxCodec Bytes}
  {steps : List (OutboxStep db)} {s : OutboxSystem db}

/-- What an undisturbed run keeps: stored rows are where they belong, and a row that a
claim has taken is not pending, is taken by no other, and was not returned since it last
became pending. -/
structure Inv (codec : OutboxCodec Bytes) (db : HaematiteDatabase Bytes sharding)
    (steps : List (OutboxStep db)) (s : OutboxSystem db) : Prop where
  /-- What is stored is where it belongs. -/
  placed : ∀ shard key bytes, ((db.kept s.store).shards shard).lookup key = some (key, bytes) →
    WellPlaced codec sharding shard key bytes
  /-- What was read was where it belongs. -/
  read : ∀ i start log rest, s.clients i = some (.busy start log rest) → WellRead codec sharding log
  /-- A row that a running claim has taken. -/
  taken : ∀ i log row, Claiming s i log → WrittenIn log row →
    statusAt codec (db.kept s.store) row ≠ some "pending" ∧
      ¬ Since (Returns sharding) (BecomesPending codec db) steps row
  /-- One claim has taken it. -/
  unique : ∀ i j log log' row, Claiming s i log → Claiming s j log' → WrittenIn log row →
    WrittenIn log' row → i = j
  /-- A row that was returned. -/
  returned : ∀ row, Since (Returns sharding) (BecomesPending codec db) steps row →
    statusAt codec (db.kept s.store) row ≠ some "pending"

variable {added : List (Access Bytes)} {state : db.State}

theorem inv_noCalls (hempty : db.kept state = .empty) :
    Inv codec db [] (noCalls state) where
  placed := by
    intro shard key bytes h
    rw [noCalls, hempty] at h
    cases h
  read := by
    rintro i start log rest ⟨⟩
  taken := by
    rintro i log row ⟨_, _, ⟨⟩, _⟩
  unique := by
    rintro i j log log' row ⟨_, _, ⟨⟩, _⟩
  returned := fun row h => absurd h not_since_nil

variable
  {client : Option (Client OutboxOperation (Except StoreError OutboxAnswer)
      (DbCall Bytes) DbCall.Reply (Access Bytes))}
  {next : DbCall.Reply (.putRouted workflowId key value) → OutboxTask Bytes}
  {rest : OutboxTask Bytes}
  {log : List (Access Bytes)} {label : OutboxLabel Bytes} {start : OutboxOperation}
  {store : db.State} {row : RowId} {reply : DbCall.Reply (.putRouted workflowId key value)}

theorem claiming_update {j : ℕ} (h : Claiming ⟨store, Function.update s.clients i client⟩ j log) :
    (j = i ∧ ∃ start rest, client = some (.busy start log rest) ∧ isClaim start) ∨ j ≠ i ∧
      Claiming s j log := by
  obtain ⟨start, rest, hcli, hclaim⟩ := h
  by_cases hij : j = i
  · subst hij
    exact .inl ⟨rfl, start, rest, by simpa using hcli, hclaim⟩
  · exact .inr ⟨hij, start, rest, by simpa [Function.update_of_ne hij] using hcli, hclaim⟩

/-- What the calls have read stays where it belongs when one of them goes on. -/
theorem Inv.wellRead_update (h : Inv codec db steps s)
    (hcli : ∀ start log rest, client = some (.busy start log rest) → WellRead codec sharding log)
    (j : ℕ) (start : OutboxOperation) (log : List (Access Bytes)) (rest : OutboxTask Bytes)
    (hbusy : Function.update s.clients i client j = some (.busy start log rest)) :
    WellRead codec sharding log := by
  by_cases hij : j = i
  · subst hij
    exact hcli start log rest (by simpa using hbusy)
  · exact h.read j start log rest (by simpa [Function.update_of_ne hij] using hbusy)

/-- A step that returns nothing. -/
theorem since_of_returned_nil (hret : Haematite.returned sharding label = [])
    (hrow : Since (Returns sharding) (BecomesPending codec db) (steps ++ [(s, label)]) row) :
    Since (Returns sharding) (BecomesPending codec db) steps row ∧
      ¬ BecomesPending codec db (s, label) row := by
  rcases since_concat.mp hrow with hlast | hrow
  · simp [Returns, hret] at hlast
  · exact hrow

/-- A step that neither calls nor returns. -/
theorem Inv.quiet (h : Inv codec db steps s) (hret : Haematite.returned sharding label = [])
    (hcli : ∀ start log rest, client = some (.busy start log rest) → log = []) :
    Inv codec db (steps ++ [(s, label)]) (s.setClient i client) := by
  have hsince : ∀ row, Since (Returns sharding) (BecomesPending codec db)
    (steps ++ [(s, label)]) row →
      Since (Returns sharding) (BecomesPending codec db) steps row := fun row hrow =>
    (since_of_returned_nil hret hrow).1
  have hclaiming : ∀ j log row, Claiming (s.setClient i client) j log → WrittenIn log row → Claiming s j log := by
    intro j log row hclaiming hrow
    rcases claiming_update hclaiming with ⟨-, start, rest, hbusy, -⟩ | ⟨-, hclaiming⟩
    · obtain ⟨value, hval⟩ := hrow
      rw [hcli start log rest hbusy] at hval
      cases hval
    · exact hclaiming
  refine ⟨h.placed, ?_, ?_, ?_, fun row hrow => h.returned row (hsince row hrow)⟩
  · refine h.wellRead_update fun start log rest hbusy => ?_
    rw [hcli start log rest hbusy]
    intro shard entries hread
    cases hread
  · intro j log row hj hrow
    obtain ⟨hstat, hnot⟩ := h.taken j log row (hclaiming j log row hj hrow) hrow
    exact ⟨hstat, fun hrow => hnot (hsince row hrow)⟩
  · intro j j' log log' row hj hj' hrow hrow'
    exact h.unique j j' log log' row (hclaiming j log row hj hrow)
      (hclaiming j' log' row hj' hrow') hrow hrow'

/-- A claim returns what it has taken. -/
theorem Inv.finished (h : Inv codec db steps s) {state : OutboxOperation}
    {outcome : Except StoreError OutboxAnswer}
    (hbusy : s.clients i = some (.busy start log (.done (outcome, state))))
    (hans : ∀ answer, outcome = .ok answer → AnswerWritten sharding start log answer) :
    (∀ row, Returns sharding (s, .finished i start log outcome state) row →
      ¬ Since (Returns sharding) (BecomesPending codec db) steps row) ∧
      Inv codec db (steps ++ [(s, .finished i start log outcome state)])
        (s.setClient i (some (.idle state))) := by
  -- The rows that are returned were taken by the claim.
  have hret : ∀ row, Returns sharding (s, .finished i start log outcome state) row →
      Claiming s i log ∧ WrittenIn log row := by
    intro row hrow
    unfold Returns Haematite.returned at hrow
    split at hrow
    · rename_i rows _ heq
      cases heq
      split at hrow
      · rename_i hclaim
        obtain ⟨found, hfd, rfl⟩ := List.mem_map.mp hrow
        exact ⟨⟨start, _, hbusy, hclaim⟩, hans _ rfl hclaim rows rfl found hfd⟩
      · cases hrow
    · cases hrow
  have hclaiming : ∀ j log', Claiming (s.setClient i (some (.idle state))) j log' → j ≠ i ∧ Claiming s j log' := by
    intro j log' hj
    rcases claiming_update hj with ⟨-, _, _, ⟨⟩, -⟩ | hj
    exact hj
  refine ⟨fun row hrow => ?_, h.placed, ?_, ?_, ?_, ?_⟩
  · obtain ⟨hclaim, hlog⟩ := hret row hrow
    exact (h.taken i log row hclaim hlog).2
  · exact h.wellRead_update fun start log rest hidle => by cases hidle
  · intro j log' row hj hrow
    obtain ⟨hij, hj⟩ := hclaiming j log' hj
    obtain ⟨hstat, hnot⟩ := h.taken j log' row hj hrow
    refine ⟨hstat, fun hsince => ?_⟩
    rcases since_concat.mp hsince with hlast | ⟨hsince, -⟩
    · obtain ⟨hclaim, hlog⟩ := hret row hlast
      exact hij (h.unique j i log' log row hj hclaim hrow hlog)
    · exact hnot hsince
  · intro j j' log₁ log₂ row hj hj'
    exact h.unique j j' log₁ log₂ row (hclaiming j log₁ hj).2 (hclaiming j' log₂ hj').2
  · intro row hsince
    rcases since_concat.mp hsince with hlast | ⟨hsince, -⟩
    · obtain ⟨hclaim, hlog⟩ := hret row hlast
      exact (h.taken i log row hclaim hlog).1
    · exact h.returned row hsince

/-- A call that writes nothing. -/
theorem Inv.readOnly (h : Inv codec db steps s)
    {rest' : OutboxTask Bytes} (hbusy : s.clients i = some (.busy start log rest))
    (hret : Haematite.returned sharding label = []) (hkept : db.kept store = db.kept s.store)
    (hadd : ∀ access ∈ added, ∃ shard entries, access = .read shard entries ∧ ∀ entry ∈ entries,
        WellPlaced codec sharding shard entry.1 entry.2) :
    Inv codec db (steps ++ [(s, label)])
      ⟨store, Function.update s.clients i (some (.busy start (log ++ added) rest'))⟩ := by
  have hsince : ∀ row, Since (Returns sharding) (BecomesPending codec db)
    (steps ++ [(s, label)]) row →
      Since (Returns sharding) (BecomesPending codec db) steps row := fun row hrow =>
    (since_of_returned_nil hret hrow).1
  have hclaiming : ∀ j log' row, Claiming
    ⟨store, Function.update s.clients i (some (.busy start (log ++ added) rest'))⟩
      j log' → WrittenIn log' row → ∃ log'', Claiming s j log'' ∧ WrittenIn log'' row := by
    rintro j log' row hj ⟨value, hval⟩
    rcases claiming_update hj with ⟨rfl, _, _, ⟨⟩, hclaim⟩ | ⟨-, hj⟩
    · refine ⟨log, ⟨start, rest, hbusy, hclaim⟩, value, ?_⟩
      rcases List.mem_append.mp hval with hval | hval
      · exact hval
      · obtain ⟨shard, entries, ⟨⟩, -⟩ := hadd _ hval
    · exact ⟨log', hj, value, hval⟩
  refine ⟨by rw [hkept]; exact h.placed, ?_, ?_, ?_,
      fun row hrow => by rw [hkept]; exact h.returned row (hsince row hrow)⟩
  · refine h.wellRead_update ?_
    rintro _ _ _ ⟨⟩ shard entries hread
    rcases List.mem_append.mp hread with hread | hread
    · exact h.read i start log rest hbusy shard entries hread
    · obtain ⟨_, _, ⟨⟩, hplaced⟩ := hadd _ hread
      exact hplaced
  · intro j log' row hj hrow
    obtain ⟨log'', hj, hrow⟩ := hclaiming j log' row hj hrow
    obtain ⟨hstat, hnot⟩ := h.taken j log'' row hj hrow
    exact ⟨by rwa [hkept], fun hrow => hnot (hsince row hrow)⟩
  · intro j j' log₁ log₂ row hj hj' hrow hrow'
    obtain ⟨log₁, hj, hrow⟩ := hclaiming j log₁ row hj hrow
    obtain ⟨log₂, hj', hrow'⟩ := hclaiming j' log₂ row hj' hrow'
    exact h.unique j j' log₁ log₂ row hj hj' hrow hrow'

theorem Inv.wellPlaced_of_mem (h : Inv codec db steps s) {entry : String × Bytes}
    (hent : entry ∈ ((db.kept s.store).shards shard).rows) :
    WellPlaced codec sharding shard entry.1 entry.2 :=
  h.placed shard entry.1 entry.2 (KeyedTable.lookup_of_mem hent)

/-- A claim's rewrite in an undisturbed run finds the row pending. -/
theorem Inv.pending_of_claim (h : Inv codec db steps s)
    (hbusy : s.clients i = some (.busy start log (.call (.putRouted workflowId key value) next)))
    (hclaim : isClaim start) (hmay : May codec sharding start log (.putRouted workflowId key value))
    (hundisturbed : Undisturbed codec db (s, .called i (.putRouted workflowId key value) reply)) :
    statusAt codec (db.kept s.store) ⟨sharding.shardOf workflowId, key⟩ = some "pending" := by
  obtain ⟨row, -, -, hclmd⟩ := hmay
  obtain ⟨-, source, ⟨shard, entries, entry, hread, hent, hsrc⟩, hpend, hplace⟩ := hclmd hclaim
  -- The row was read where it is written, and is there as it was read.
  have hread' := h.read i start log _ hbusy shard entries hread entry hent source hsrc
  rw [hplace] at hread'
  obtain ⟨rfl, rfl⟩ := RowId.mk.inj hread'
  have hent' := (hundisturbed i workflowId entry.1 value reply rfl).1 log ⟨start, _, hbusy, hclaim⟩ entries entry.2
    hread hent
  rw [statusAt_of_entryAt hent', token_of_decode hsrc, hpend]
  rfl

/-- Who has taken a row after a put: the putting claim the row it wrote, the others what they
had. -/
theorem claiming_put {next : OutboxTask Bytes}
    (hadd : ∀ access ∈ added, access = .write shard key bytes)
    (hbusy : s.clients i = some (.busy start log rest)) {j : ℕ} {log' : List (Access Bytes)}
    (hj : Claiming ⟨store, Function.update s.clients i (some (.busy start (log ++ added) next))⟩ j
        log') (hwrit : WrittenIn log' row) :
    (j = i ∧ row = ⟨shard, key⟩ ∧ isClaim start) ∨ ∃ log'', Claiming s j log'' ∧
      WrittenIn log'' row := by
  obtain ⟨value, hval⟩ := hwrit
  rcases claiming_update hj with ⟨rfl, _, _, ⟨⟩, hclaim⟩ | ⟨-, hj⟩
  · rcases List.mem_append.mp hval with hval | hval
    · exact .inr ⟨log, ⟨start, _, hbusy, hclaim⟩, value, hval⟩
    · obtain ⟨hshard, hkey, -⟩ := Access.write.inj (hadd _ hval)
      exact .inl ⟨rfl, by rw [← hshard, ← hkey], hclaim⟩
  · exact .inr ⟨log', hj, value, hval⟩

/-- A put in an undisturbed run that changes what is kept, whether it is answered or fails. -/
theorem Inv.put (hrow : ∀ row, codec.rowFromSlice (codec.rowToVec row) = .ok row)
    (h : Inv codec db steps s)
    (hbusy : s.clients i = some (.busy start log (.call (.putRouted workflowId key value) next)))
    (hmay : May codec sharding start log (.putRouted workflowId key value))
    (hundisturbed : Undisturbed codec db (s, .called i (.putRouted workflowId key value) reply))
    (hkept : db.kept (db.serve s.store (.putRouted workflowId key value)).2 =
        Haematite.put sharding (db.kept s.store) workflowId key value)
    (hadd : ∀ access ∈ added, access = .write (sharding.shardOf workflowId) key value) :
    Inv codec db (steps ++ [(s, .called i (.putRouted workflowId key value) reply)])
      ⟨(db.serve s.store (.putRouted workflowId key value)).2,
        Function.update s.clients i (some (.busy start (log ++ added) (next reply)))⟩ := by
  set here : RowId := ⟨sharding.shardOf workflowId, key⟩ with hhere
  have hmay' := hmay
  obtain ⟨row, rfl, hplace, hclmd⟩ := hmay'
  have hwell := h.read i start log _ hbusy
  have htok := token_encodeOutbox hrow row
  have hnotPending : isClaim start → token codec (encodeOutbox codec row) ≠ some "pending" := by
    intro hclaim
    rw [htok, (hclmd hclaim).1]
    decide
  have hbef := fun hclaim => h.pending_of_claim hbusy hclaim hmay hundisturbed
  have hsince : ∀ row', Since (Returns sharding) (BecomesPending codec db)
      (steps ++ [(s, .called i (.putRouted workflowId key (encodeOutbox codec row)) reply)]) row' →
      Since (Returns sharding) (BecomesPending codec db) steps row' ∧
        ¬ BecomesPending codec db (s, .called i (.putRouted workflowId key (encodeOutbox codec row)) reply) row' :=
    fun row' hrow' => since_of_returned_nil rfl hrow'
  -- Nobody has taken a row that a put finds pending or makes pending.
  have hfree : (isClaim start = true ∨ token codec (encodeOutbox codec row) = some "pending") →
      ∀ j log', Claiming s j log' → ¬ WrittenIn log' here := by
    rintro (hclaim | hpend) j log' hj hwrit
    · exact (h.taken j log' here hj hwrit).1 (hbef hclaim)
    · obtain ⟨value, hval⟩ := hwrit
      exact (hundisturbed i workflowId key _ reply rfl).2 hpend j log' hj value hval
  have hstat : ∀ row', (∃ j log', Claiming s j log' ∧ WrittenIn log' row') ∨
      Since (Returns sharding) (BecomesPending codec db)
        (steps ++ [(s, .called i (.putRouted workflowId key (encodeOutbox codec row)) reply)]) row' →
      statusAt codec (db.kept (db.serve s.store (.putRouted workflowId key (encodeOutbox codec row))).2) row' ≠
        some "pending" := by
    rintro row' hheld hpend
    have hafter := hpend
    rw [hkept, statusAt_put] at hpend
    split at hpend
    · rename_i heq
      subst heq
      rcases hheld with ⟨j, log', hj, hwrit⟩ | hheld
      · exact hfree (.inr hpend) j log' hj hwrit
      · obtain ⟨hheld, hnot⟩ := hsince _ hheld
        exact hnot ⟨h.returned _ hheld, i, _, reply, rfl, hafter⟩
    · rcases hheld with ⟨j, log', hj, hwrit⟩ | hheld
      · exact (h.taken j log' row' hj hwrit).1 hpend
      · exact h.returned row' (hsince row' hheld).1 hpend
  refine ⟨?_, ?_, ?_, ?_, fun row' hrow' => hstat row' (.inr hrow')⟩
  · intro shard key' bytes hfd
    rw [hkept] at hfd
    have hlook := hfd.symm.trans (lookup_put workflowId key (encodeOutbox codec row) ⟨shard, key'⟩)
    split at hlook
    · rename_i heq
      obtain ⟨rfl, rfl⟩ := RowId.mk.inj heq
      obtain ⟨-, rfl⟩ := Prod.mk.inj (Option.some.inj hlook)
      exact wellPlaced_encodeOutbox hrow (hplace hwell)
    · exact h.placed shard key' bytes hlook.symm
  · refine h.wellRead_update ?_
    rintro _ _ _ ⟨⟩ shard entries hread
    rcases List.mem_append.mp hread with hread | hread
    · exact hwell shard entries hread
    · cases hadd _ hread
  · intro j log' row' hj hwrit
    rcases claiming_put hadd hbusy hj hwrit with ⟨rfl, rfl, hclaim⟩ | ⟨log'', hj, hwrit⟩
    · refine ⟨?_, fun hrow' => ?_⟩
      · rw [hkept, statusAt_put, if_pos rfl]
        exact hnotPending hclaim
      · exact h.returned here (hsince here hrow').1 (hbef hclaim)
    · exact ⟨hstat row' (.inl ⟨j, log'', hj, hwrit⟩), fun hrow' => (h.taken j log'' row' hj hwrit).2
        (hsince row' hrow').1⟩
  · intro j j' log₁ log₂ row' hj hj' hwrit hwrit'
    rcases claiming_put hadd hbusy hj hwrit with ⟨rfl, rfl, hclaim⟩ | ⟨log₃, hold, hold_written⟩
    · rcases claiming_put hadd hbusy hj' hwrit' with ⟨rfl, -, -⟩ | ⟨log₄, hold', hold_written'⟩
      · rfl
      · exact absurd hold_written' (hfree (.inl hclaim) j' log₄ hold')
    · rcases claiming_put hadd hbusy hj' hwrit' with ⟨rfl, rfl, hclaim⟩ | ⟨log₄, hold', hold_written'⟩
      · exact absurd hold_written (hfree (.inl hclaim) j log₃ hold)
      · exact h.unique j j' log₃ log₄ row' hold hold' hold_written hold_written'

/-- A put in an undisturbed run: it changes what is kept, or it fails and nothing is logged. -/
theorem Inv.putOrFailed (hrow : ∀ row, codec.rowFromSlice (codec.rowToVec row) = .ok row)
    (h : Inv codec db steps s)
    (hbusy : s.clients i = some (.busy start log (.call (.putRouted workflowId key value) next)))
    (hmay : May codec sharding start log (.putRouted workflowId key value))
    (hundisturbed : Undisturbed codec db (s, .called i (.putRouted workflowId key value) reply))
    (hreply : reply = (db.serve s.store (.putRouted workflowId key value)).1) :
    Inv codec db (steps ++ [(s, .called i (.putRouted workflowId key value) reply)])
      ⟨(db.serve s.store (.putRouted workflowId key value)).2, Function.update s.clients i
        (some (.busy start (log ++ accesses sharding (.putRouted workflowId key value) reply)
            (next reply)))⟩ := by
  cases reply with
  | ok answer =>
    refine h.put hrow hbusy hmay hundisturbed (congrArg Prod.snd (db.serve_ok hreply.symm)).symm
      fun access hacc => ?_
    exact List.mem_singleton.mp hacc
  | error error =>
    rcases db.serve_error hreply.symm with hkept | hkept
    · exact h.readOnly hbusy rfl hkept (by rintro access ⟨⟩)
    · exact h.put hrow hbusy hmay hundisturbed hkept (by rintro access ⟨⟩)

/-- Every running call is at a point of its program. -/
theorem obeys_of_run (run : OutboxRun codec db (noCalls state) steps s) :
    AllObey (watched db) (May codec sharding) (fun start log result =>
      ∀ answer, result.1 = .ok answer → AnswerWritten sharding start log answer) s := by
  refine obeys_of_reachable ?_ run.reachable ?_
  · rintro start _ ⟨shards, rfl⟩
    exact Service.Obeys.bind (follows_program shards start db) fun log outcome hans => hans
  · rintro i start log rest ⟨⟩

theorem keepsTerminal_concat (h : KeepsTerminal codec db steps)
    (hlast : ∀ i workflowId key value reply,
        label = .called i (.putRouted workflowId key value) reply → (∃ log, Claiming s i log) →
      statusAt codec (db.kept s.store) ⟨sharding.shardOf workflowId, key⟩ = some "pending") :
    KeepsTerminal codec db (steps ++ [(s, label)]) := by
  intro step hstep i workflowId key value reply hlabel log hclaiming status hstat
  rcases List.mem_append.mp hstep with hstep | hstep
  · exact h step hstep i workflowId key value reply hlabel log hclaiming status hstat
  · obtain rfl := List.mem_singleton.mp hstep
    rw [hlast i workflowId key value reply hlabel ⟨log, hclaiming⟩] at hstat
    obtain rfl : OutboxStatus.pending = status :=
      OutboxStatus.asStr_injective (Option.some.inj hstat)
    rfl

/-- One step of an undisturbed run. -/
theorem Inv.step (hrow : ∀ row, codec.rowFromSlice (codec.rowToVec row) = .ok row)
    (h : Inv codec db steps s) (hexclusive : Exclusive codec db steps)
    (hterm : KeepsTerminal codec db steps)
    (hobeys : AllObey (watched db) (May codec sharding) (fun start log result =>
        ∀ answer, result.1 = .ok answer → AnswerWritten sharding start log answer) s)
    {s' : OutboxSystem db} (hstep : Step (watched db) (tasks codec) s label s')
    (hundisturbed : Undisturbed codec db (s, label)) :
    Inv codec db (steps ++ [(s, label)]) s' ∧ Exclusive codec db (steps ++ [(s, label)]) ∧
      KeepsTerminal codec db (steps ++ [(s, label)]) := by
  have hquiet : Haematite.returned sharding label = [] → Exclusive codec db (steps ++ [(s, label)]) := by
    intro hret
    refine hexclusive.concat fun row hlast => ?_
    simp [Returns, hret] at hlast
  cases hstep with
  | opened _ =>
    exact ⟨h.quiet rfl (by rintro _ _ _ ⟨⟩), hquiet rfl, keepsTerminal_concat hterm (by rintro _ _ _ _ _ ⟨⟩)⟩
  | began _ _ =>
    exact ⟨h.quiet rfl (by rintro _ _ _ ⟨⟩; rfl), hquiet rfl,
      keepsTerminal_concat hterm (by rintro _ _ _ _ _ ⟨⟩)⟩
  | finished hbusy =>
    obtain ⟨hnot, hinv⟩ := h.finished hbusy (hobeys _ _ _ _ hbusy)
    exact ⟨hinv, hexclusive.concat hnot, keepsTerminal_concat hterm (by rintro _ _ _ _ _ ⟨⟩)⟩
  | closed =>
    exact ⟨h.quiet rfl (by rintro _ _ _ ⟨⟩), hquiet rfl, keepsTerminal_concat hterm (by rintro _ _ _ _ _ ⟨⟩)⟩
  | @called i start log request next hbusy =>
    have hmay := (hobeys i start log _ hbusy).1
    cases request with
    | rangePerShard shard =>
      refine ⟨h.readOnly hbusy rfl (kept_serve_of_reads rfl) (added_of_reply fun entries hreply => ?_), hquiet rfl,
        keepsTerminal_concat hterm (by rintro _ _ _ _ _ ⟨⟩)⟩
      obtain rfl := answer_of_serve hreply
      intro access hacc
      obtain rfl := List.mem_singleton.mp hacc
      exact ⟨shard, _, rfl, fun entry hent => h.wellPlaced_of_mem ((List.mem_insertionSort _).mp hent)⟩
    | getRouted workflowId key =>
      refine ⟨h.readOnly hbusy rfl (kept_serve_of_reads rfl) (added_of_reply fun found hreply => ?_), hquiet rfl,
        keepsTerminal_concat hterm (by rintro _ _ _ _ _ ⟨⟩)⟩
      obtain rfl := answer_of_serve hreply
      intro access hacc
      obtain rfl := List.mem_singleton.mp hacc
      refine ⟨sharding.shardOf workflowId, _, rfl, fun entry hent => ?_⟩
      obtain ⟨value, hval, rfl⟩ := List.mem_map.mp hent
      obtain ⟨found, hfd, rfl⟩ := Option.map_eq_some_iff.mp (Option.mem_toList.mp hval)
      exact h.placed _ key found.2 (by rw [hfd, ← KeyedTable.key_of_lookup hfd])
    | putRouted workflowId key value =>
      refine ⟨h.putOrFailed hrow hbusy hmay hundisturbed rfl, hquiet rfl, keepsTerminal_concat hterm ?_⟩
      rintro _ _ _ _ _ ⟨⟩ ⟨log', start', rest', hbusy', hclaim⟩
      rw [hbusy] at hbusy'
      cases hbusy'
      exact h.pending_of_claim hbusy hclaim hmay hundisturbed
    | commit =>
      exact ⟨h.readOnly hbusy rfl (kept_serve_of_reads rfl) (added_of_reply fun _ _ _ hacc => nomatch hacc),
        hquiet rfl, keepsTerminal_concat hterm (by rintro _ _ _ _ _ ⟨⟩)⟩
    | readFrom workflowId => exact hmay.elim
    | appendBatch workflowId events expectedSeq => exact hmay.elim

end Invariant

/-! ### Exclusivity -/

/-- **Claims are exclusive in undisturbed runs** from an empty database: between two returns of a
row by claims it becomes pending, and no claim overwrites a row at its end. -/
theorem claims_exclusive_of_undisturbed {Bytes : Type} (codec : OutboxCodec Bytes)
    {sharding : Sharding} (db : HaematiteDatabase Bytes sharding)
    (hrow : ∀ row, codec.rowFromSlice (codec.rowToVec row) = .ok row) (state : db.State)
    (hempty : db.kept state = .empty) (steps : List (OutboxStep db)) (s : OutboxSystem db)
    (run : OutboxRun codec db (noCalls state) steps s)
    (hundisturbed : ∀ step ∈ steps, Undisturbed codec db step) :
    Exclusive codec db steps ∧ KeepsTerminal codec db steps := by
  have hall : Inv codec db steps s ∧ Exclusive codec db steps ∧ KeepsTerminal codec db steps := by
    induction run with
    | nil => exact ⟨inv_noCalls hempty, separated_nil, by simp [KeepsTerminal]⟩
    | snoc earlier last ih =>
      obtain ⟨hinv, hexclusive, hterm⟩ := ih fun step hstep => hundisturbed step (List.mem_append_left _ hstep)
      exact hinv.step hrow hexclusive hterm (obeys_of_run earlier) last (hundisturbed _ (by simp))
  exact hall.2

/-! ### Schedules -/

/-- What a step returns and writes, with the token of the value. -/
def observe (codec : OutboxCodec Bytes) (step : OutboxStep db) :
    List RowId × Option (RowId × Option String) :=
  (returned sharding step.2, (written sharding step.2).map fun entry =>
      (entry.1, token codec entry.2))

theorem separated_observe {codec : OutboxCodec Bytes} {steps : List (OutboxStep db)}
    (h : Exclusive codec db steps) :
    Separated (fun seen row => row ∈ seen.1) (fun seen row => seen.2 = some (row, some "pending"))
      (steps.map (observe codec)) := by
  refine h.map _ (fun _ _ hrets => hrets) fun step row hends => ?_
  obtain ⟨value, hwrit, htok⟩ := written_of_becomesPending hends
  simp [observe, hwrit, htok]

/-- A row of workflow 0. -/
def pendingRow : OutboxRow := OutboxRow.pending ⟨0⟩ 0 "activity" .empty 0

/-- The codec of the schedules. -/
abbrev scheduleCodec : OutboxCodec (Payload ⊕ StoredOutboxRow) := OutboxCodec.known [0] [0]

/-- The database of the schedules: one shard, and no call fails. -/
abbrev scheduleDatabase : HaematiteDatabase (Payload ⊕ StoredOutboxRow) oneShard := .sound _ _

/-- Runs a schedule on an empty database. -/
def runSchedule (actions : List (Action OutboxOperation)) :
    Option (List (OutboxStep scheduleDatabase) × OutboxSystem scheduleDatabase) :=
  System.exec (watched scheduleDatabase) (task scheduleCodec [0]) (noCalls Database.empty) actions

/-- The row is staged; then two claims scan before either rewrites. -/
def racingClaims : List (Action OutboxOperation) :=
  [.opened 0 (.appendOutboxBatch [pendingRow]), .advance 0, .advance 0, .advance 0, .advance 0,
      .advance 0,
    .opened 1 (.claimOutboxRows 0 1), .opened 2 (.claimOutboxRows 0 1), .advance 1, .advance 2,
      .advance 1, .advance 2,
    .advance 1, .advance 1, .advance 1, .advance 2, .advance 2, .advance 2]

/-- Both claims return the row, which is not pending in between. -/
theorem both_claims_return_the_row :
    ∃ steps s, OutboxRun scheduleCodec scheduleDatabase (noCalls Database.empty) steps s ∧
      ¬ Exclusive scheduleCodec scheduleDatabase steps := by
  have hseen : (runSchedule racingClaims).map (fun ran => ran.1.map (observe scheduleCodec)) =
      some [([], none), ([], none), ([], none), ([], some (⟨0, pendingRow.dispatchKey⟩, some "pending")), ([], none),
        ([], none), ([], none), ([], none), ([], none), ([], none), ([], none), ([], none),
        ([], some (⟨0, pendingRow.dispatchKey⟩, some "claimed")), ([], none), ([⟨0, pendingRow.dispatchKey⟩], none),
        ([], some (⟨0, pendingRow.dispatchKey⟩, some "claimed")), ([], none), ([⟨0, pendingRow.dispatchKey⟩], none)] := by
    decide +kernel
  obtain ⟨⟨steps, s⟩, hran, hseen⟩ := Option.map_eq_some_iff.mp hseen
  refine ⟨steps, s, System.run_of_exec (fun state => ⟨[0], rfl⟩) hran, fun hexclusive => ?_⟩
  have hsep := separated_observe hexclusive
  rw [hseen] at hsep
  obtain ⟨seen, hmid, hpend⟩ := hsep
    [([], none), ([], none), ([], none), ([], some (⟨0, pendingRow.dispatchKey⟩, some "pending")), ([], none),
      ([], none), ([], none), ([], none), ([], none), ([], none), ([], none), ([], none),
      ([], some (⟨0, pendingRow.dispatchKey⟩, some "claimed")), ([], none)]
    ([⟨0, pendingRow.dispatchKey⟩], none)
    [([], some (⟨0, pendingRow.dispatchKey⟩, some "claimed")), ([], none)]
    ([⟨0, pendingRow.dispatchKey⟩], none) [] rfl ⟨0, pendingRow.dispatchKey⟩ (by simp) (by simp)
  simp only [List.mem_cons, List.not_mem_nil, or_false] at hmid
  rcases hmid with rfl | rfl
  · exact absurd hpend (by decide)
  · cases hpend

/-- `Undisturbed`, for the calls numbered below `n`. -/
def undisturbedBelow (n : ℕ) (step : OutboxStep scheduleDatabase) : Bool :=
  match step.2 with
  | .called i (.putRouted workflowId key value) _ =>
    (claimLog step.1 i).all (fun
      | .read shard entries => shard ≠ oneShard.shardOf workflowId || entries.all fun entry =>
          entry.1 ≠ key || decide (entryAt oneShard (scheduleDatabase.kept step.1.store) workflowId key = some entry.2)
      | .write _ _ _ => true) &&
    (token scheduleCodec value != some "pending" || (List.range n).all fun j => (claimLog step.1 j).all (fun
      | .read _ _ => true
      | .write shard taken _ => shard ≠ oneShard.shardOf workflowId || taken ≠ key))
  | _ => true
where
  /-- The log of a running claim. -/
  claimLog (s : OutboxSystem scheduleDatabase) (i : ℕ) : List
    (Access (Payload ⊕ StoredOutboxRow)) :=
    match s.clients i with
    | some (.busy start log _) => if isClaim start then log else []
    | _ => []

theorem claimLog_eq {s : OutboxSystem scheduleDatabase} {i : ℕ}
    {log : List (Access (Payload ⊕ StoredOutboxRow))} (h : Claiming s i log) :
    undisturbedBelow.claimLog s i = log := by
  obtain ⟨start, rest, hbusy, hclaim⟩ := h
  rw [undisturbedBelow.claimLog, hbusy]
  exact if_pos hclaim

theorem undisturbed_of_below {n : ℕ} {step : OutboxStep scheduleDatabase}
    (hclients : ∀ j ≥ n, step.1.clients j = none) (h : undisturbedBelow n step) :
    Undisturbed scheduleCodec scheduleDatabase step := by
  intro i workflowId key value reply hlabel
  rw [undisturbedBelow, hlabel] at h
  simp only [Bool.and_eq_true, List.all_eq_true, Bool.or_eq_true, List.mem_range] at h
  obtain ⟨hread, hwrite⟩ := h
  refine ⟨fun log hclaiming entries bytes hacc hent =>
      ?_, fun hpend j log hclaiming taken hacc => ?_⟩
  · have hents := hread _ (claimLog_eq hclaiming ▸ hacc)
    simp only [Bool.or_eq_true, List.all_eq_true, decide_eq_true_eq, ne_eq, not_true_eq_false,
      false_or] at hents
    simpa using hents (key, bytes) hent
  · have hj : j < n := by
      by_contra hj
      obtain ⟨start, rest, hbusy, -⟩ := hclaiming
      rw [hclients j (by omega)] at hbusy
      cases hbusy
    rcases hwrite with hwrite | hwrite
    · simp [hpend] at hwrite
    · have haccesses := hwrite j hj _ (claimLog_eq hclaiming ▸ hacc)
      simp at haccesses

/-- The row is staged, claimed, retried and claimed again, one call after the other. -/
def serialClaims : List (Action OutboxOperation) :=
  [.opened 0 (.appendOutboxBatch [pendingRow]), .advance 0, .advance 0, .advance 0, .advance 0,
      .advance 0,
    .opened 1 (.claimOutboxRows 0 1), .advance 1, .advance 1, .advance 1, .advance 1, .advance 1,
    .opened 2 (.retryOutboxRow pendingRow.dispatchKey 1 0), .advance 2, .advance 2, .advance 2,
      .advance 2, .advance 2,
    .advance 1, .advance 1, .advance 1, .advance 1, .advance 1]

/-- One call after the other is undisturbed, and the row is returned twice. -/
theorem serial_claims_exclusive :
    ∃ steps s, OutboxRun scheduleCodec scheduleDatabase (noCalls Database.empty) steps s ∧
      (steps.map fun step => returned oneShard step.2).flatten =
        [⟨0, pendingRow.dispatchKey⟩, ⟨0, pendingRow.dispatchKey⟩] ∧
      Exclusive scheduleCodec scheduleDatabase steps ∧
        KeepsTerminal scheduleCodec scheduleDatabase steps := by
  have hran : (runSchedule serialClaims).map
    (fun ran => ((ran.1.map fun step => returned oneShard step.2).flatten,
      ran.1.all (undisturbedBelow 3))) =
      some ([⟨0, pendingRow.dispatchKey⟩, ⟨0, pendingRow.dispatchKey⟩], true) := by decide +kernel
  obtain ⟨⟨steps, s⟩, hran, hseen⟩ := Option.map_eq_some_iff.mp hran
  obtain ⟨hret, hbelow⟩ := Prod.mk.inj hseen
  have hrun : OutboxRun scheduleCodec scheduleDatabase (noCalls Database.empty) steps s :=
    System.run_of_exec (fun state => ⟨[0], rfl⟩) hran
  have hopen : ∀ i state, Action.opened i state ∈ serialClaims → i < 3 := by
    intro i state hmem
    simp [serialClaims] at hmem
    omega
  have hclients := System.clients_of_exec hopen (fun _ _ => rfl) hran
  refine ⟨steps, s, hrun, hret, claims_exclusive_of_undisturbed scheduleCodec scheduleDatabase
      (fun _ => rfl)
    Database.empty rfl steps s hrun ?_⟩
  intro step hstep
  exact undisturbed_of_below (hclients step hstep) (List.all_eq_true.mp hbelow step hstep)

end Aion.Haematite
