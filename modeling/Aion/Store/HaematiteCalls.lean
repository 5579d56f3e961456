import Aion.Library.Result
import Aion.Store.HaematiteOutbox

/-!
# Concurrent calls on the haematite outbox

Any number of outbox calls run on one database, each a thread of its own that makes one
database call at a time, and ends at the first that fails. The database logs for each call what
it was shown and what it put;
`follows_program` says, for every operation and whatever the others do in between, which
calls it makes given that log: it puts rows where they belong, and a claim puts claimed
what it read pending and returns what it has put.
-/

namespace Aion.Haematite

open DbM Interleaving

variable {Bytes : Type} {sharding : Sharding}

/-! ### The system -/

/-- What a call read or wrote on a shard. -/
inductive Access (Bytes : Type) where
  /-- Entries it was shown. -/
  | read (shard : ℕ) (entries : List (String × Bytes))
  /-- A value it put. -/
  | write (shard : ℕ) (key : String) (value : Bytes)

/-- What the answer to a call adds to its log. -/
def accesses (sharding : Sharding) : (request : DbCall Bytes) → request.Reply → List (Access Bytes)
  | _, .error _ => []
  | .rangePerShard shard, .ok entries => [.read shard entries]
  | .getRouted workflowId key, .ok (found : Option Bytes) =>
    [.read (sharding.shardOf workflowId) (found.toList.map fun value => (key, value))]
  | .putRouted workflowId key value, .ok _ => [.write (sharding.shardOf workflowId) key value]
  | .commit, .ok _ => []
  | .readFrom _, .ok _ => []
  | .appendBatch _ _ _, .ok _ => []

/-- The database as a service that logs what each call reads and writes. -/
def watched (db : HaematiteDatabase Bytes sharding) :
    Service db.State (DbCall Bytes) DbCall.Reply (Access Bytes) where
  serve := db.serve
  added := accesses sharding

/-- The rest of a call that is running. -/
abbrev OutboxTask (Bytes : Type) :=
  Prog (DbCall Bytes) DbCall.Reply (Except StoreError OutboxAnswer × OutboxOperation)

/-- A database and the calls that run on it; a call is known by its operation. -/
abbrev OutboxSystem (db : HaematiteDatabase Bytes sharding) :=
  System db.State OutboxOperation (Except StoreError OutboxAnswer) (DbCall Bytes) DbCall.Reply
    (Access Bytes)

/-- What happens in a step. -/
abbrev OutboxLabel (Bytes : Type) :=
  Label OutboxOperation (Except StoreError OutboxAnswer) (DbCall Bytes) DbCall.Reply (Access Bytes)

/-- A step, with the state before it. -/
abbrev OutboxStep (db : HaematiteDatabase Bytes sharding) := OutboxSystem db × OutboxLabel Bytes

/-- An operation on the shards the node owns, with the operation kept beside its outcome. -/
def task (codec : OutboxCodec Bytes) (shards : List ℕ) (operation : OutboxOperation) :
    OutboxTask Bytes :=
  Prog.bind (handled (program codec shards operation)) fun outcome => .done (outcome, operation)

/-- Every operation may be called, over any shards. -/
def tasks (codec : OutboxCodec Bytes) (operation : OutboxOperation) (program : OutboxTask Bytes) :
    Prop :=
  ∃ shards, program = task codec shards operation

/-- Steps of the calls on a database. -/
abbrev OutboxRun (codec : OutboxCodec Bytes) (db : HaematiteDatabase Bytes sharding) :
    OutboxSystem db → List (OutboxStep db) → OutboxSystem db → Prop :=
  Run (watched db) (tasks codec)

/-- No call runs on the database. -/
def noCalls {db : HaematiteDatabase Bytes sharding} (state : db.State) : OutboxSystem db :=
  ⟨state, fun _ => none⟩

/-- The claims among the operations. -/
def isClaim : OutboxOperation → Bool
  | .claimOutboxRows _ _ => true
  | .claimOutboxRowsExcluding _ _ _ => true
  | .claimOutboxRowsScoped _ _ _ => true
  | .claimOutboxRowsScopedExcluding _ _ _ _ => true
  | _ => false

/-- Where a row is kept. -/
structure RowId where
  /-- The shard of its workflow. -/
  shard : ℕ
  /-- Its dispatch key. -/
  key : String
  deriving DecidableEq

/-- Where a row is kept. -/
def rowId (sharding : Sharding) (row : OutboxRow) : RowId :=
  ⟨sharding.shardOf row.workflowId, row.dispatchKey⟩

/-! ### What each call reads and writes -/

section Specs

variable (codec : OutboxCodec Bytes) (sharding : Sharding)

/-- A value is where the row it stands for belongs. -/
def WellPlaced (shard : ℕ) (key : String) (value : Bytes) : Prop :=
  ∀ row, decodeOutbox codec value = .ok row → rowId sharding row = ⟨shard, key⟩

/-- Everything that was read was where it belongs. -/
def WellRead (log : List (Access Bytes)) : Prop :=
  ∀ shard entries, Access.read shard entries ∈ log → ∀ entry ∈ entries,
    WellPlaced codec sharding shard entry.1 entry.2

/-- The row was read. -/
def ReadIn (log : List (Access Bytes)) (row : OutboxRow) : Prop :=
  ∃ shard entries entry, Access.read shard entries ∈ log ∧ entry ∈ entries ∧
    decodeOutbox codec entry.2 = .ok row

/-- The row was written. -/
def WrittenIn (log : List (Access Bytes)) (row : RowId) : Prop :=
  ∃ value, Access.write row.shard row.key value ∈ log

/-- The calls an operation makes: what it puts is an encoded row, where the row belongs if
what was read was; and a claim puts claimed what it read pending. -/
def May (start : OutboxOperation) (log : List (Access Bytes)) : DbCall Bytes → Prop
  | .rangePerShard _ => True
  | .getRouted _ _ => True
  | .putRouted workflowId key value => ∃ row, value = encodeOutbox codec row ∧
    (WellRead codec sharding log → rowId sharding row = ⟨sharding.shardOf workflowId, key⟩) ∧
    (isClaim start → row.status = .claimed ∧ ∃ source, ReadIn codec log source ∧ source.status = .pending ∧
      rowId sharding source = ⟨sharding.shardOf workflowId, key⟩)
  | .commit => True
  | .readFrom _ => False
  | .appendBatch _ _ _ => False

/-- On every database the program makes calls the operation may make, and a value it ends with
satisfies `post`. -/
def Follows {α : Type} (start : OutboxOperation) (post : List (Access Bytes) → α → Prop)
    (log : List (Access Bytes)) (program : DbM Bytes α) : Prop :=
  ∀ db : HaematiteDatabase Bytes sharding, (watched db).Obeys (May codec sharding start)
    (fun log outcome => ∀ value, outcome = .ok value → post log value) log (handled program)

variable {codec sharding} {start : OutboxOperation} {log : List (Access Bytes)} {α β : Type}

variable {post : List (Access Bytes) → β → Prop} {mid : List (Access Bytes) → α → Prop}
  {log' : List (Access Bytes)} {selected : List OutboxRow} {f : α → β}

theorem ReadIn.mono {log : List (Access Bytes)} {row : OutboxRow} (h : ReadIn codec log row)
    (hsub : log ⊆ log') : ReadIn codec log' row := by
  obtain ⟨shard, entries, entry, hread, hent⟩ := h
  exact ⟨shard, entries, entry, hsub hread, hent⟩

theorem WrittenIn.mono {log : List (Access Bytes)} {row : RowId} (h : WrittenIn log row)
    (hsub : log ⊆ log') : WrittenIn log' row := by
  obtain ⟨value, hval⟩ := h
  exact ⟨value, hsub hval⟩

theorem Follows.pure {post : List (Access Bytes) → α → Prop} {value : α} (h : post log value) :
    Follows codec sharding start post log (Pure.pure value) := by
  rintro db _ ⟨⟩
  exact h

theorem Follows.lift {post : List (Access Bytes) → α → Prop} {result : Except StoreError α}
    (h : ∀ value, result = .ok value → post log value) :
    Follows codec sharding start post log (DbM.lift result) := fun _ => h

theorem handled_bind (first : DbM Bytes α) (f : α → DbM Bytes β) :
    handled (first >>= f) = (handled first).bind fun outcome =>
      match outcome with
      | .ok value => handled (f value)
      | .error error => .done (.error error) := by
  induction first with
  | done outcome => cases outcome <;> rfl
  | call request next ih =>
    change Prog.call request _ = Prog.call request _
    congr 1
    funext reply
    cases reply with
    | ok answer => exact ih answer
    | error error => rfl

/-- The second part goes on from a longer log. -/
theorem Follows.bind {first : DbM Bytes α} {f : α → DbM Bytes β}
    (h : Follows codec sharding start mid log first)
    (hf : ∀ log' value, log ⊆ log' → mid log' value →
        Follows codec sharding start post log' (f value)) :
    Follows codec sharding start post log (first >>= f) := by
  intro db
  rw [handled_bind]
  refine Service.Obeys.bind (Service.Obeys.extends (h db)) fun log' outcome hmid => ?_
  cases outcome with
  | ok value => exact hf log' value hmid.2 (hmid.1 value rfl) db
  | error error =>
    rintro _ ⟨⟩

theorem Follows.map {program : DbM Bytes α} (h : Follows codec sharding start mid log program)
    (hf : ∀ log' value, mid log' value → post log' (f value)) :
    Follows codec sharding start post log (f <$> program) :=
  Follows.bind h fun log' value _ hmid => Follows.pure (hf log' value hmid)

theorem Follows.map_any {program : DbM Bytes α}
    (h : Follows codec sharding start (fun _ _ => True) log program)
    (hf : ∀ log' value, post log' (f value)) :
    Follows codec sharding start post log (f <$> program) :=
  Follows.map h fun log' value _ => hf log' value

/-- A call that fails ends the program with an error; one that is answered logs its answer. -/
theorem follows_call (request : DbCall Bytes) {post : List (Access Bytes) → request.Answer → Prop}
    (hmay : May codec sharding start log request)
    (hpost : ∀ answer, post (log ++ accesses sharding request (.ok answer)) answer) :
    Follows codec sharding start post log (call request) := by
  intro db
  refine ⟨hmay, fun state => ?_⟩
  change (watched db).Obeys _ _ (log ++ accesses sharding request (db.serve state request).1)
    (handleReply (fun answer => .done (.ok answer)) (db.serve state request).1)
  cases (db.serve state request).1 with
  | error error => rintro _ ⟨⟩
  | ok answer =>
    rintro _ ⟨⟩
    exact hpost answer

theorem follows_rangePerShard (shard : ℕ) :
    Follows codec sharding start (fun log entries => Access.read shard entries ∈ log) log
      (rangePerShard shard) :=
  follows_call (.rangePerShard shard) trivial fun _ =>
    List.mem_append_right _ (List.mem_singleton_self _)

theorem follows_getRouted (workflowId : WorkflowId) (key : String) :
    Follows codec sharding start (fun log found => Access.read (sharding.shardOf workflowId)
      (found.toList.map fun value => (key, value)) ∈ log) log (getRouted workflowId key) :=
  follows_call (.getRouted workflowId key) trivial fun _ =>
    List.mem_append_right _ (List.mem_singleton_self _)

theorem follows_putRouted {workflowId : WorkflowId} {key : String} {value : Bytes}
    (hmay : May codec sharding start log (.putRouted workflowId key value)) :
    Follows codec sharding start (fun log _ => WrittenIn log ⟨sharding.shardOf workflowId, key⟩) log
      (putRouted workflowId key value) :=
  follows_call _ hmay fun _ => ⟨value, List.mem_append_right _ (List.mem_singleton_self _)⟩

theorem follows_commit : Follows codec sharding start (fun _ _ => True) log commit :=
  follows_call .commit trivial fun _ => trivial

/-- What a scan finds was read. -/
theorem follows_scanOutbox (shards : List ℕ) :
    Follows codec sharding start (fun log rows => ∀ row ∈ rows, ReadIn codec log row) log
      (scanOutbox codec shards) := by
  induction shards generalizing log with
  | nil => exact Follows.pure (by simp)
  | cons shard rest ih =>
    refine Follows.bind (follows_rangePerShard shard) fun log₁ entries _ hread => ?_
    have hdec : Follows codec sharding start (fun log rows => ∀ row ∈ rows, ReadIn codec log row) log₁
        (lift (entries.mapM fun entry => decodeOutbox codec entry.2)) := by
      refine Follows.lift fun rows hrows row hrow => ?_
      obtain ⟨entry, hent, hdecd⟩ := Result.mem_of_mapM_eq_ok hrows hrow
      exact ⟨shard, entries, entry, hread, hent, hdecd⟩
    refine Follows.bind hdec fun log₂ rows _ hrows => ?_
    refine Follows.bind ih fun log₃ later hsub hlat => Follows.pure fun row hrow => ?_
    rcases List.mem_append.mp hrow with hrow | hrow
    · exact (hrows row hrow).mono hsub
    · exact hlat row hrow

/-- The loop that rewrites rows it has read. -/
theorem follows_rewriteRows {f : OutboxRow → OutboxRow}
    (hf : ∀ row, rowId sharding (f row) = rowId sharding row)
    (hread : ∀ row ∈ selected, ReadIn codec log row)
    (hclaim : isClaim start → ∀ row ∈ selected, row.status = .pending ∧ (f row).status = .claimed) :
    Follows codec sharding start (fun log rows => ∀ row ∈ rows,
        WrittenIn log (rowId sharding row)) log
      (rewriteRows codec f selected) := by
  induction selected generalizing log with
  | nil => exact Follows.pure (by simp)
  | cons row rest ih =>
    obtain ⟨hrow, hrest⟩ := List.forall_mem_cons.mp hread
    refine Follows.bind (follows_putRouted ⟨f row, rfl, fun _ => rfl, fun hstart => ?_⟩)
      fun log₁ _ hsub hwrit => ?_
    · obtain ⟨hpend, hclmd⟩ := hclaim hstart row List.mem_cons_self
      exact ⟨hclmd, row, hrow, hpend, (hf row).symm⟩
    · refine Follows.bind (ih (fun row hrow => (hrest row hrow).mono hsub) fun hstart row hrow =>
        hclaim hstart row (List.mem_cons_of_mem _ hrow)) fun log₂ later hsub' hlat => Follows.pure ?_
      exact List.forall_mem_cons.mpr ⟨hwrit.mono hsub', hlat⟩

/-- A row decoded from what was read at a place belongs there. -/
theorem rowId_of_wellRead (hwell : WellRead codec sharding log) {shard : ℕ} {key : String}
    {found : Option Bytes}
    (hread : Access.read shard (found.toList.map fun value => (key, value)) ∈ log) {bytes : Bytes}
    (hfd : found = some bytes) {row : OutboxRow} (hrow : decodeOutbox codec bytes = .ok row) :
    rowId sharding row = ⟨shard, key⟩ := by
  subst hfd
  exact hwell _ _ hread (key, bytes) (by simp) row hrow

section Writers

variable (hstart : isClaim start = false)
include hstart

theorem not_claim {P : Prop} : isClaim start → P := by
  rw [hstart]
  exact Bool.false_ne_true.elim

theorem follows_insertRows (rows : List OutboxRow) :
    Follows codec sharding start (fun _ _ => True) log (insertRows codec rows) := by
  induction rows generalizing log with
  | nil => exact Follows.pure trivial
  | cons row rest ih =>
    refine Follows.bind (follows_getRouted row.workflowId row.dispatchKey) fun log₁ existing _ _ =>
      ?_
    cases existing with
    | none => exact Follows.bind (follows_putRouted ⟨row, rfl, fun _ => rfl, not_claim hstart⟩) fun _ _ _ _ => ih
    | some bytes => exact ih

theorem follows_rearmRows (rows : List OutboxRow) :
    Follows codec sharding start (fun _ _ => True) log (rearmRows codec rows) := by
  induction rows generalizing log with
  | nil => exact Follows.pure trivial
  | cons row rest ih =>
    refine Follows.bind (follows_getRouted row.workflowId row.dispatchKey)
      fun log₁ existing _ hread => ?_
    have hprior : Follows codec sharding start (fun log prior => WellRead codec sharding log →
        rowId sharding (rearmed row prior) = ⟨sharding.shardOf row.workflowId, row.dispatchKey⟩) log₁
        (lift (transposeOption (decodeOutbox codec) existing)) := by
      refine Follows.lift fun prior hprior hwell => ?_
      cases existing with
      | none =>
        cases hprior
        rfl
      | some bytes =>
        rw [transposeOption] at hprior
        cases hdecd : decodeOutbox codec bytes with
        | error error =>
          rw [hdecd] at hprior
          cases hprior
        | ok found =>
          rw [hdecd] at hprior
          cases hprior
          have hplace := rowId_of_wellRead hwell hread rfl hdecd
          exact hplace
    refine Follows.bind hprior fun log₂ prior _ hplace => ?_
    exact Follows.bind (follows_putRouted ⟨_, rfl, hplace, not_claim hstart⟩) fun _ _ _ _ => ih

theorem follows_transitionOutbox (key : String) {f : OutboxRow → OutboxRow}
    (hf : ∀ row, rowId sharding (f row) = rowId sharding row) :
    Follows codec sharding start (fun _ _ => True) log (transitionOutbox codec key f) := by
  have hroute : Follows codec sharding start (fun _ _ => True) log (lift (workflowOf codec key)) :=
    Follows.lift fun _ _ => trivial
  refine Follows.bind hroute fun log₁ workflowId _ _ => ?_
  refine Follows.bind (follows_getRouted workflowId key) fun log₂ existing _ hread => ?_
  cases existing with
  | none => exact Follows.pure trivial
  | some bytes =>
    have hrow : Follows codec sharding start (fun log row => WellRead codec sharding log →
        rowId sharding row = ⟨sharding.shardOf workflowId, key⟩) log₂ (lift (decodeOutbox codec bytes)) :=
      Follows.lift fun row hrow hwell => rowId_of_wellRead hwell hread rfl hrow
    refine Follows.bind hrow fun log₃ row _ hplace => ?_
    refine Follows.bind (follows_putRouted ⟨f row, rfl, fun hwell => ?_, not_claim hstart⟩)
      fun _ _ _ _ => follows_commit
    rw [hf]
    exact hplace hwell

/-- A rewrite of rows some filter selects from a scan. -/
theorem follows_rewriteScanned {f : OutboxRow → OutboxRow}
    (hf : ∀ row, rowId sharding (f row) = rowId sharding row) {scanned : List OutboxRow}
    (hscanned : ∀ row ∈ scanned, ReadIn codec log row) (hsel : ∀ row ∈ selected, row ∈ scanned) :
    Follows codec sharding start (fun log rows => ∀ row ∈ rows,
        WrittenIn log (rowId sharding row)) log
      (rewriteRows codec f selected) :=
  follows_rewriteRows hf (fun row hrow => hscanned row (hsel row hrow)) (not_claim hstart)

end Writers

/-- A claim returns rows it has written. -/
theorem follows_claim (shards : List ℕ) (now : Instant) (limit : ℕ) (admits : OutboxRow → Bool) :
    Follows codec sharding start (fun log rows => ∀ row ∈ rows,
        WrittenIn log (rowId sharding row)) log
      (claim codec shards now limit admits) := by
  unfold claim
  split
  · exact Follows.pure (by simp)
  · refine Follows.bind (follows_scanOutbox shards) fun log₁ scanned _ hscanned => ?_
    have hsel : ∀ row ∈ ((scanned.filter fun row => decide (row.status = .pending ∧ row.visibleAfter ≤ now ∧
        admits row)).insertionSort claimOrder).take limit, row ∈ scanned ∧ row.status = .pending := by
      intro row hrow
      obtain ⟨hmem, hfilter⟩ := List.mem_filter.mp ((List.mem_insertionSort _).mp (List.mem_of_mem_take hrow))
      exact ⟨hmem, (of_decide_eq_true hfilter).1⟩
    refine Follows.bind (follows_rewriteRows (f := (OutboxRow.claim · now)) (fun _ => rfl)
      (fun row hrow => hscanned row (hsel row hrow).1) fun _ row hrow => ⟨(hsel row hrow).2, rfl⟩)
      fun log₂ claimed _ hclmd => ?_
    exact Follows.bind follows_commit fun log₃ _ hsub _ => Follows.pure fun row hrow =>
      (hclmd row hrow).mono hsub

/-- What an answer of a claim returns was written. -/
def AnswerWritten (sharding : Sharding) (start : OutboxOperation) (log : List (Access Bytes))
    (answer : OutboxAnswer) : Prop :=
  isClaim start → ∀ rows, answer = .rows rows → ∀ row ∈ rows, WrittenIn log (rowId sharding row)

theorem answerWritten_rows {rows : List OutboxRow}
    (h : ∀ row ∈ rows, WrittenIn log (rowId sharding row)) :
    AnswerWritten sharding start log (.rows rows) := by
  rintro - _ ⟨⟩
  exact h

/-- **What the operations do**: each makes the calls it may make, and a claim returns what
it has written. -/
theorem follows_program (shards : List ℕ) (operation : OutboxOperation) :
    Follows codec sharding operation (AnswerWritten sharding operation) log
      (program codec shards operation) := by
  cases operation with
  | appendOutboxBatch rows =>
    unfold program
    dsimp only
    split
    · exact Follows.pure (not_claim rfl)
    · refine Follows.map_any ?_ fun _ _ => not_claim rfl
      exact Follows.bind (follows_insertRows rfl rows) fun _ _ _ _ => follows_commit
  | rearmOutboxPending rows =>
    refine Follows.map_any ?_ fun _ _ => not_claim rfl
    unfold rearmOutboxPending
    split
    · exact Follows.pure trivial
    · exact Follows.bind (follows_rearmRows rfl rows) fun _ _ _ _ => follows_commit
  | claimOutboxRows now limit =>
    exact Follows.map (follows_claim shards now limit _) fun _ _ => answerWritten_rows
  | claimOutboxRowsExcluding now limit held =>
    exact Follows.map (follows_claim shards now limit _) fun _ _ => answerWritten_rows
  | claimOutboxRowsScoped now scope limit =>
    exact Follows.map (follows_claim shards now limit _) fun _ _ => answerWritten_rows
  | claimOutboxRowsScopedExcluding now scope limit held =>
    exact Follows.map (follows_claim shards now limit _) fun _ _ => answerWritten_rows
  | completeOutboxRow key =>
    exact Follows.map_any (follows_transitionOutbox rfl key fun _ => rfl) fun _ _ => not_claim rfl
  | retryOutboxRow key nextAttempt visibleAfter =>
    exact Follows.map_any (follows_transitionOutbox rfl key fun _ => rfl) fun _ _ => not_claim rfl
  | failOutboxRow key =>
    exact Follows.map_any (follows_transitionOutbox rfl key fun _ => rfl) fun _ _ => not_claim rfl
  | settleOutboxRowCancelled key =>
    refine Follows.map_any (follows_transitionOutbox rfl key fun row => ?_) fun _ _ => not_claim rfl
    split <;> rfl
  | settleWorkflowOutboxRowsCancelled workflowId =>
    refine Follows.map_any ?_ fun _ _ => not_claim rfl
    refine Follows.bind (follows_scanOutbox shards) fun log₁ scanned _ hscanned => ?_
    refine Follows.bind (follows_rewriteScanned (f := cancelled) rfl (fun _ => rfl) hscanned fun row hrow =>
      List.mem_of_mem_filter ((List.mem_insertionSort _).mp hrow)) fun _ _ _ _ => ?_
    exact Follows.bind follows_commit fun _ _ _ _ => Follows.pure trivial
  | listStaleClaimedOutboxRows olderThan limit =>
    refine Follows.map_any ?_ fun _ _ => not_claim rfl
    unfold listStaleClaimedOutboxRows
    split
    · exact Follows.pure trivial
    · exact Follows.bind (follows_scanOutbox shards) fun _ _ _ _ => Follows.pure trivial
  | rearmStaleClaimedOutboxRows olderThan visibleAfter limit =>
    refine Follows.map_any ?_ fun _ _ => not_claim rfl
    unfold rearmStaleClaimedOutboxRows
    split
    · exact Follows.pure trivial
    · refine Follows.bind (follows_scanOutbox shards) fun log₁ scanned _ hscanned => ?_
      refine Follows.bind (follows_rewriteScanned (f := (OutboxRow.rearm · visibleAfter)) rfl (fun _ => rfl) hscanned
        fun row hrow => List.mem_of_mem_filter ((List.mem_insertionSort _).mp (List.mem_of_mem_take hrow)))
        fun _ _ _ _ => ?_
      exact Follows.bind follows_commit fun _ _ _ _ => Follows.pure trivial
  | listUnsettledOutboxWorkflowIds =>
    exact Follows.bind (follows_scanOutbox shards) fun _ _ _ _ => Follows.pure (not_claim rfl)
  | countInflightOutboxRows namespace_ =>
    exact Follows.bind (follows_scanOutbox shards) fun _ _ _ _ => Follows.pure (not_claim rfl)
  | countClaimedOutboxRows namespace_ =>
    exact Follows.bind (follows_scanOutbox shards) fun _ _ _ _ => Follows.pure (not_claim rfl)
  | countClaimedOutboxRowsByNamespace namespaces =>
    exact Follows.bind (follows_scanOutbox shards) fun _ _ _ _ => Follows.pure (not_claim rfl)
  | pendingOutboxRoutes now =>
    exact Follows.bind (follows_scanOutbox shards) fun _ _ _ _ => Follows.pure (not_claim rfl)

end Specs

end Aion.Haematite
