import Aion.Library.Interleaving
import Aion.Library.Result
import Aion.Store.Outbox
import Mathlib.Data.Finset.Basic

/-!
# The namespace registry of the haematite store

A namespace has one record, kept as JSON. In distributed mode every change of a record
reads it and writes the changed record with a compare-and-set on the hash of what was
read. The database, haematite's, is a parameter (`RegistryDatabase`). It is shared: between the
read and the write of one call any other call may write.

`keeps_program` says what each call reads and writes whatever the others do in between: it
reads its record once, and writes at most once, the record it read with its own change.
-/

namespace Aion.Namespaces

open Interleaving

/-! ### Records -/

/-- How a namespace came to exist in the registry. -/
inductive NamespaceOrigin where
  /-- Minted by a worker registering for it. -/
  | workerMint
  /-- Minted by a workflow start. -/
  | startMint
  /-- Created by an operator. -/
  | explicit
  /-- Inferred from durable state. -/
  | inferredFromState
  deriving DecidableEq

/-- Lifecycle state of a namespace record. -/
inductive NamespaceState where
  /-- In service. -/
  | active
  /-- Retired but retained. -/
  | deprecated
  deriving DecidableEq

/-- Whether an upsert brought the record into being. -/
inductive MintOutcome where
  /-- The call created the record. -/
  | created
  /-- A record already existed. -/
  | alreadyExisted
  deriving DecidableEq

/-- Reserved policy of a namespace. -/
structure NamespaceConfig where
  /-- Tenant discriminator. -/
  kind : Option String := none
  /-- Ceiling of activities in flight, cluster-wide. -/
  maxInFlightActivities : Option ℕ := none
  deriving DecidableEq

/-- Placement directive of a namespace. -/
inductive NamespacePlacement where
  /-- Any worker. -/
  | unplaced
  /-- Workers of these nodes first. -/
  | prefer (nodes : Finset String)
  /-- Workers of these nodes only. -/
  | pinned (nodes : Finset String)
  deriving DecidableEq

/-- One registry entry. -/
structure NamespaceRecord where
  /-- The name. -/
  name : String
  /-- When it was minted. -/
  createdAt : Instant
  /-- When it was last referenced. -/
  lastSeen : Instant
  /-- How it came to exist. -/
  origin : NamespaceOrigin
  /-- Its policy. -/
  config : NamespaceConfig
  /-- Its placement. -/
  placement : NamespacePlacement
  /-- Its lifecycle state. -/
  state : NamespaceState
  deriving DecidableEq

/-- `NamespaceRecord::new_minted`. -/
def NamespaceRecord.newMinted (name : String) (origin : NamespaceOrigin) (now : Instant) :
    NamespaceRecord where
  name := name
  createdAt := now
  lastSeen := now
  origin := origin
  config := {}
  placement := .unplaced
  state := .active

/-- `NamespaceRecord::bump_last_seen`. -/
def NamespaceRecord.bumpLastSeen (record : NamespaceRecord) (now : Instant) : NamespaceRecord :=
  { record with lastSeen := now }

/-- On-disk form of a record: the instants are texts. -/
structure StoredNamespace where
  /-- The name. -/
  name : String
  /-- Text of the instant at which it was minted. -/
  createdAt : String
  /-- Text of the instant at which it was last referenced. -/
  lastSeen : String
  /-- How it came to exist. -/
  origin : NamespaceOrigin
  /-- Tenant discriminator. -/
  kind : Option String
  /-- Ceiling of activities in flight. -/
  maxInFlightActivities : Option ℕ
  /-- Its placement. -/
  placement : NamespacePlacement
  /-- Its lifecycle state. -/
  state : NamespaceState
  deriving DecidableEq

/-- A failure of the database. -/
inductive DatabaseError where
  /-- The stored value is not the expected one. -/
  | casConflict
  /-- A higher ballot has deposed this node. -/
  | fenced
  /-- Any other failure. -/
  | other (message : String)
  deriving DecidableEq

/-- What the registry takes from `serde_json`, `chrono` and `haematite`. -/
structure NamespaceCodec (Bytes Hash : Type) where
  /-- `serde_json::to_vec`. -/
  toVec : StoredNamespace → Bytes
  /-- `serde_json::from_slice`. -/
  fromSlice : Bytes → Except String StoredNamespace
  /-- `DateTime::parse_from_rfc3339`, taken to UTC. -/
  parseFromRfc3339 : String → Except String Instant
  /-- `Hash::of`. -/
  hashOf : Bytes → Hash
  /-- `Database::shard_for`. -/
  shardFor : String → ℕ
  /-- The text of a database error. -/
  display : DatabaseError → String

/-- The readers read back what was written, and different values have different hashes. -/
structure NamespaceCodec.Lawful {Bytes Hash : Type} (codec : NamespaceCodec Bytes Hash) : Prop where
  /-- A stored record survives JSON. -/
  stored : ∀ stored, codec.fromSlice (codec.toVec stored) = .ok stored
  /-- The text of an instant is read as that instant or not at all. -/
  instant : ∀ instant found, codec.parseFromRfc3339 (encodeInstant instant) = .ok found →
    found = instant
  /-- No two values have one hash. -/
  hash : Function.Injective codec.hashOf

/-- A codec for runs on fixed inputs: stored records stand for their JSON and their hash,
and the reader knows the texts of the given instants. -/
def NamespaceCodec.known (instants : List Instant) :
    NamespaceCodec StoredNamespace StoredNamespace where
  toVec := id
  fromSlice := .ok
  parseFromRfc3339 := fun text =>
    (instants.find? fun instant => encodeInstant instant = text).elim (.error "invalid instant") .ok
  hashOf := id
  shardFor := fun _ => 0
  display := fun _ => "failure"

theorem NamespaceCodec.lawful_known {instants : List Instant}
    (h : ∀ instant ∈ instants, Rfc3339.FourDigitYear instant) :
    (NamespaceCodec.known instants).Lawful where
  stored := fun _ => rfl
  instant := by
    intro instant found hfd
    simp only [known] at hfd
    cases hfind : instants.find? fun known => encodeInstant known = encodeInstant instant with
    | none =>
      rw [hfind] at hfd
      cases hfd
    | some known =>
      rw [hfind] at hfd
      cases hfd
      have htext : encodeInstant found = encodeInstant instant := by simpa using List.find?_some hfind
      exact (Rfc3339.eq_of_toText_eq (h found (List.mem_of_find?_eq_some hfind)) htext.symm).symm
  hash := fun _ _ h => h

section Registry

variable {Bytes Hash : Type} (codec : NamespaceCodec Bytes Hash)

/-- The on-disk form of a record. -/
def NamespaceRecord.toStored (record : NamespaceRecord) : StoredNamespace where
  name := record.name
  createdAt := encodeInstant record.createdAt
  lastSeen := encodeInstant record.lastSeen
  origin := record.origin
  kind := record.config.kind
  maxInFlightActivities := record.config.maxInFlightActivities
  placement := record.placement
  state := record.state

/-- `NamespaceRecord::encode`. -/
def NamespaceRecord.encode (record : NamespaceRecord) : Bytes := codec.toVec record.toStored

/-- `decode_instant`. -/
def decodeInstant (text : String) : Except StoreError Instant :=
  (codec.parseFromRfc3339 text).mapError .serialization

/-- `NamespaceRecord::decode`. -/
def NamespaceRecord.decode (bytes : Bytes) : Except StoreError NamespaceRecord := do
  let stored ← (codec.fromSlice bytes).mapError .serialization
  let createdAt ← decodeInstant codec stored.createdAt
  let lastSeen ← decodeInstant codec stored.lastSeen
  return {
    name := stored.name
    createdAt := createdAt
    lastSeen := lastSeen
    origin := stored.origin
    config := { kind := stored.kind, maxInFlightActivities := stored.maxInFlightActivities }
    placement := stored.placement
    state := stored.state }

/-! ### The database -/

/-- `keyspace::namespace_key`. -/
def namespaceKey (name : String) : String := "n:" ++ name

theorem namespaceKey_injective : Function.Injective namespaceKey := by
  intro a b h
  have hlist := congrArg String.toList h
  simp only [namespaceKey, String.toList_append, List.append_cancel_left_eq] at hlist
  exact String.toList_inj.mp hlist

/-- A call of the database. -/
inductive RegistryCall (Bytes Hash : Type) where
  /-- `Database::get`. -/
  | get (key : String)
  /-- `Database::replicate_write`. -/
  | replicateWrite (key : String) (expected : Option Hash) (value : Bytes)

/-- The answer to a call. -/
abbrev RegistryCall.Answer : RegistryCall Bytes Hash → Type
  | .get _ => Except DatabaseError (Option Bytes)
  | .replicateWrite _ _ _ => Except DatabaseError Unit

/-- The shared database. Every call may fail, and a write that fails may have been made all the
same. -/
structure RegistryDatabase (codec : NamespaceCodec Bytes Hash) where
  /-- The states of the database. -/
  State : Type
  /-- The stored values. -/
  records : State → String → Option Bytes
  /-- What a call returns, and the state after it. -/
  serve : State → (request : RegistryCall Bytes Hash) → request.Answer × State
  /-- A read changes nothing. -/
  get_records : ∀ state key, records (serve state (.get key)).2 = records state
  /-- A read that does not fail finds what is stored. -/
  get_found : ∀ {state key} {found : Option Bytes}, (serve state (.get key)).1 = .ok found →
    found = records state key
  /-- The compare-and-set: a write is made where the stored value has the expected hash; when it
  loses, it does not. -/
  write_cases : ∀ state key expected value,
    ((records state key).map codec.hashOf = expected ∧
        records (serve state (.replicateWrite key expected value)).2 =
          Function.update (records state) key (some value) ∧
        (serve state (.replicateWrite key expected value)).1 ≠ .error .casConflict) ∨
      (records (serve state (.replicateWrite key expected value)).2 = records state ∧
        (serve state (.replicateWrite key expected value)).1 ≠ .ok () ∧
        ((serve state (.replicateWrite key expected value)).1 = .error .casConflict →
          (records state key).map codec.hashOf ≠ expected))

/-- What may go wrong in a call besides a lost compare-and-set. -/
inductive Fault where
  /-- The node is fenced off. -/
  | fenced
  /-- The call fails; a write may have been made all the same. -/
  | failed (message : String) (applied : Bool)

/-- A database for runs on fixed inputs: its values, how many calls it has answered, and which go
wrong. -/
structure Registry (Bytes : Type) where
  /-- The stored values. -/
  records : String → Option Bytes
  /-- The number of calls answered. -/
  calls : ℕ
  /-- What goes wrong in a call. -/
  faults : ℕ → Option Fault

/-- The database after a compare-and-set that succeeds. -/
def Registry.store (registry : Registry Bytes) (key : String) (value : Bytes) : Registry Bytes :=
  { registry with records := Function.update registry.records key (some value), calls :=
      registry.calls + 1 }

/-- The database after a call that changes nothing. -/
def Registry.skip (registry : Registry Bytes) : Registry Bytes :=
  { registry with calls := registry.calls + 1 }

section Known

variable [DecidableEq Hash]

/-- The answer to a call and the database after it. -/
def Registry.serve (registry : Registry Bytes) :
    (request : RegistryCall Bytes Hash) → request.Answer × Registry Bytes
  | .get key =>
    match registry.faults registry.calls with
    | none => (.ok (registry.records key), registry.skip)
    | some .fenced => (.error .fenced, registry.skip)
    | some (.failed message _) => (.error (.other message), registry.skip)
  | .replicateWrite key expected value =>
    match registry.faults registry.calls with
    | some .fenced => (.error .fenced, registry.skip)
    | some (.failed message applied) =>
      (.error (.other message),
        if applied ∧ (registry.records key).map codec.hashOf = expected then registry.store key value else registry.skip)
    | none =>
      if (registry.records key).map codec.hashOf = expected then (.ok (), registry.store key value)
      else (.error .casConflict, registry.skip)

/-- It is a database. -/
def Registry.database : RegistryDatabase codec where
  State := Registry Bytes
  records := Registry.records
  serve := Registry.serve codec
  get_records := by
    intro registry key
    simp only [Registry.serve]
    split <;> rfl
  get_found := by
    intro registry key found h
    simp only [Registry.serve] at h
    split at h <;> cases h
    rfl
  write_cases := by
    intro registry key expected value
    simp only [Registry.serve]
    split
    · exact .inr ⟨rfl, by simp, by simp⟩
    · split_ifs with happlied
      · exact .inl ⟨happlied.2, rfl, by simp⟩
      · exact .inr ⟨rfl, by simp, by simp⟩
    · split_ifs with hmatch
      · exact .inl ⟨hmatch, rfl, by simp⟩
      · exact .inr ⟨rfl, by simp, fun _ => hmatch⟩

end Known

/-! ### The calls of the registry -/

/-- A program on the database. -/
abbrev RegistryM (Bytes Hash α : Type) :=
  Prog (RegistryCall Bytes Hash) RegistryCall.Answer (Except StoreError α)

/-- `database_error`. -/
def databaseError (error : DatabaseError) : StoreError :=
  .backend s!"haematite database error: {codec.display error}"

/-- The value of a write that was made, and of one that lost its compare-and-set. -/
def settle {α : Type} (key : String) (won lost : α) :
    Except DatabaseError Unit → Except StoreError α
  | .ok _ => .ok won
  | .error .casConflict => .ok lost
  | .error .fenced => .error (.notOwner (codec.shardFor key))
  | .error error => .error (databaseError codec error)

/-- `register_namespace_record`; `now` is the clock when the record is touched. -/
def registerNamespaceRecord (record : NamespaceRecord) (now : Instant) :
    RegistryM Bytes Hash MintOutcome :=
  let key := namespaceKey record.name
  .call (.get key) fun (current : Except DatabaseError (Option Bytes)) =>
    match current with
    | .error error => .done (.error (databaseError codec error))
    | .ok (some bytes) =>
      match NamespaceRecord.decode codec bytes with
      | .error error => .done (.error error)
      | .ok existing =>
        .call (.replicateWrite key (some (codec.hashOf bytes)) ((existing.bumpLastSeen now).encode codec))
          fun (result : Except DatabaseError Unit) => .done (settle codec key .alreadyExisted .alreadyExisted result)
    | .ok none =>
      .call (.replicateWrite key none (record.encode codec))
        fun (result : Except DatabaseError Unit) => .done (settle codec key .created .alreadyExisted result)

/-- `deprecate_namespace_record`. -/
def deprecateNamespaceRecord (name : String) : RegistryM Bytes Hash Unit :=
  let key := namespaceKey name
  .call (.get key) fun (current : Except DatabaseError (Option Bytes)) =>
    match current with
    | .error error => .done (.error (databaseError codec error))
    | .ok none => .done (.ok ())
    | .ok (some bytes) =>
      match NamespaceRecord.decode codec bytes with
      | .error error => .done (.error error)
      | .ok record =>
        if record.state = .deprecated then .done (.ok ())
        else
          .call (.replicateWrite key (some (codec.hashOf bytes)) ({ record with state := .deprecated }.encode codec))
            fun (result : Except DatabaseError Unit) => .done (settle codec key () () result)

/-- `set_namespace_placement_record`; `now` is the clock after the read. -/
def setNamespacePlacementRecord (name : String) (placement : NamespacePlacement) (now : Instant) :
    RegistryM Bytes Hash (Option Unit) :=
  let key := namespaceKey name
  .call (.get key) fun (current : Except DatabaseError (Option Bytes)) =>
    match current with
    | .error error => .done (.error (databaseError codec error))
    | .ok none => .done (.ok none)
    | .ok (some bytes) =>
      match NamespaceRecord.decode codec bytes with
      | .error error => .done (.error error)
      | .ok record =>
        replicatePlacementWrite key bytes ({ record with placement := placement }.bumpLastSeen now)
where
  /-- `replicate_placement_write`. -/
  replicatePlacementWrite (key : String) (current : Bytes) (record : NamespaceRecord) :
      RegistryM Bytes Hash (Option Unit) :=
    .call (.replicateWrite key (some (codec.hashOf current)) (record.encode codec))
      fun (result : Except DatabaseError Unit) => .done (settle codec key (some ()) (some ()) result)

/-- A call of the registry that may change a record, with the readings of the clock. -/
inductive NamespaceOperation where
  /-- `put_namespace`. -/
  | putNamespace (record : NamespaceRecord) (now : Instant)
  /-- `register_namespace`, minted at `minted`. -/
  | registerNamespace (name : String) (origin : NamespaceOrigin) (minted now : Instant)
  /-- `set_namespace_placement`. -/
  | setNamespacePlacement (name : String) (placement : NamespacePlacement) (now : Instant)
  /-- `deprecate_namespace`. -/
  | deprecateNamespace (name : String)
  deriving DecidableEq

/-- What a call returns. -/
inductive NamespaceAnswer where
  /-- The outcome of an upsert. -/
  | minted (outcome : MintOutcome)
  /-- Whether there was a record to place. -/
  | placed (found : Option Unit)
  /-- Nothing. -/
  | unit
  deriving DecidableEq

/-- The program of a call, with the call kept beside its outcome. -/
def program (operation : NamespaceOperation) :
    Prog (RegistryCall Bytes Hash) RegistryCall.Answer
      (Except StoreError NamespaceAnswer × NamespaceOperation) :=
  match operation with
  | .putNamespace record now =>
    (registerNamespaceRecord codec record now).bind fun outcome =>
      .done (outcome.map .minted, operation)
  | .registerNamespace name origin minted now =>
    (registerNamespaceRecord codec (.newMinted name origin minted) now).bind fun outcome =>
      .done (outcome.map .minted, operation)
  | .setNamespacePlacement name placement now =>
    (setNamespacePlacementRecord codec name placement now).bind fun outcome =>
      .done (outcome.map .placed, operation)
  | .deprecateNamespace name =>
    (deprecateNamespaceRecord codec name).bind fun outcome =>
      .done (outcome.map fun _ => .unit, operation)

/-! ### The system -/

/-- What a call was shown or what became of its write. -/
inductive Access (Bytes : Type) where
  /-- The value it read. -/
  | read (found : Option Bytes)
  /-- The result of its write. -/
  | wrote (result : Except DatabaseError Unit)

/-- What an answer adds to the log of a call. -/
def accesses : (request : RegistryCall Bytes Hash) → request.Answer → List (Access Bytes)
  | .get _, .ok found => [.read found]
  | .get _, .error _ => []
  | .replicateWrite _ _ _, result => [.wrote result]

variable {codec} (db : RegistryDatabase codec)

/-- The database as a service. -/
def service : Service db.State (RegistryCall Bytes Hash) RegistryCall.Answer (Access Bytes) where
  serve := db.serve
  added := accesses

/-- A database and the calls that run on it. -/
abbrev RegistrySystem :=
  System db.State NamespaceOperation (Except StoreError NamespaceAnswer) (RegistryCall Bytes Hash)
    RegistryCall.Answer (Access Bytes)

/-- What happens in a step. -/
abbrev RegistryLabel (Bytes Hash : Type) :=
  Label NamespaceOperation (Except StoreError NamespaceAnswer)
    (RegistryCall Bytes Hash) RegistryCall.Answer
    (Access Bytes)

/-- A step, with the state before it. -/
abbrev RegistryStep := RegistrySystem db × RegistryLabel Bytes Hash

/-- Steps of calls of any kind on a database. -/
abbrev RegistryRun : RegistrySystem db → List (RegistryStep db) → RegistrySystem db → Prop :=
  Run (service db) fun operation task => task = program codec operation

/-! ### What each call reads and writes -/

section Specs

variable (codec)

/-- The name a call is about. -/
def NamespaceOperation.name : NamespaceOperation → String
  | .putNamespace record _ => record.name
  | .registerNamespace name _ _ _ => name
  | .setNamespacePlacement name _ _ => name
  | .deprecateNamespace name => name

/-- What a call changes in a record that exists. -/
def NamespaceOperation.change : NamespaceOperation → NamespaceRecord → NamespaceRecord
  | .putNamespace _ now, record => record.bumpLastSeen now
  | .registerNamespace _ _ _ now, record => record.bumpLastSeen now
  | .setNamespacePlacement _ placement now, record =>
    { record with placement := placement }.bumpLastSeen now
  | .deprecateNamespace _, record => { record with state := .deprecated }

/-- The calls an operation makes: it reads its record first; then it writes the record it
read with its change, or a new one where it read none. -/
def May (operation : NamespaceOperation) (log : List (Access Bytes)) :
    RegistryCall Bytes Hash → Prop
  | .get key => key = namespaceKey operation.name ∧ log = []
  | .replicateWrite key expected value => key = namespaceKey operation.name ∧
    (log = [.read none] ∧ expected = none ∨ ∃ bytes record, log = [.read (some bytes)] ∧
      NamespaceRecord.decode codec bytes = .ok record ∧ expected = some (codec.hashOf bytes) ∧
      value = (operation.change record).encode codec)

/-- A write after which a call reports success: it was made, or it lost. -/
def Settles (result : Except DatabaseError Unit) : Prop :=
  result = .ok () ∨ result = .error .casConflict

/-- The call read its record, and its write was made or lost. -/
def Settled (log : List (Access Bytes)) : Prop :=
  ∃ bytes result, log = [.read (some bytes), .wrote result] ∧ Settles result

/-- A deprecation that succeeds found no record, found a deprecated one, or has settled. -/
def DeprecationSeen (log : List (Access Bytes)) : Prop :=
  log = [.read none] ∨ (∃ bytes record, log = [.read (some bytes)] ∧
      NamespaceRecord.decode codec bytes = .ok record ∧
    record.state = .deprecated) ∨ Settled log

/-- What a call has seen when it succeeds. -/
def Seen (operation : NamespaceOperation) (log : List (Access Bytes))
    (result : Except StoreError NamespaceAnswer × NamespaceOperation) : Prop :=
  (∀ name answer, operation = .deprecateNamespace name → result.1 = .ok answer →
      DeprecationSeen codec log) ∧
    ∀ name placement now, operation = .setNamespacePlacement name placement now →
      result.1 = .ok (.placed (some ())) → Settled log

variable {codec} {db} {key : String}

theorem settles_of_settle {α : Type} {won lost value : α} {result : Except DatabaseError Unit}
    (h : settle codec key won lost result = .ok value) : Settles result := by
  cases result with
  | ok value => exact .inl rfl
  | error error =>
    cases error with
    | casConflict => exact .inr rfl
    | fenced => cases h
    | other message => cases h

variable {operation : NamespaceOperation} {α : Type} {post : List (Access Bytes) → α → Prop}

theorem obeys_get
    {next : Except DatabaseError (Option Bytes) →
        Prog (RegistryCall Bytes Hash) RegistryCall.Answer α}
    (hkey : key = namespaceKey operation.name)
    (herr : ∀ error, (service db).Obeys (May codec operation) post [] (next (.error error)))
    (hfd : ∀ found, (service db).Obeys (May codec operation) post [.read found]
        (next (.ok found))) :
    (service db).Obeys (May codec operation) post [] (.call (.get key) next) := by
  refine ⟨⟨hkey, rfl⟩, fun state => ?_⟩
  change (service db).Obeys _ _ ([] ++ accesses (.get key) (db.serve state (.get key)).1)
    (next (db.serve state (.get key)).1)
  generalize (db.serve state (.get key)).1 = answer
  cases answer with
  | error error => exact herr error
  | ok found => exact hfd found

theorem obeys_write {expected : Option Hash} {value : Bytes} {log : List (Access Bytes)}
    {next : Except DatabaseError Unit → Prog (RegistryCall Bytes Hash) RegistryCall.Answer α}
    (hmay : May codec operation log (.replicateWrite key expected value))
    (hnext : ∀ result, (service db).Obeys (May codec operation) post (log ++ [.wrote result])
        (next result)) :
    (service db).Obeys (May codec operation) post log
      (.call (.replicateWrite key expected value) next) :=
  ⟨hmay, fun _ => hnext _⟩

/-- An upsert reads its record and touches it, or mints one. -/
theorem obeys_register {record : NamespaceRecord} {now : Instant}
    (hname : record.name = operation.name)
    (hchange : ∀ existing, operation.change existing = existing.bumpLastSeen now) :
    (service db).Obeys (May codec operation) (fun _ _ => True) []
      (registerNamespaceRecord codec record now) := by
  have hkey : namespaceKey record.name = namespaceKey operation.name := by rw [hname]
  refine obeys_get hkey (fun error => trivial) fun found => ?_
  cases found with
  | none => exact obeys_write ⟨hkey, .inl ⟨rfl, rfl⟩⟩ fun result => trivial
  | some bytes =>
    dsimp only
    cases hdec : NamespaceRecord.decode codec bytes with
    | error error => trivial
    | ok existing =>
      exact obeys_write ⟨hkey, .inr ⟨bytes, existing, rfl, hdec, rfl, by rw [hchange]⟩⟩ fun result => trivial

theorem obeys_setPlacement (name : String) (placement : NamespacePlacement) (now : Instant) :
    (service db).Obeys (May codec (.setNamespacePlacement name placement now))
      (fun log outcome => outcome = .ok (some ()) → Settled log) []
        (setNamespacePlacementRecord codec name placement now) := by
  refine obeys_get rfl (fun error => ?_) fun found => ?_
  · rintro ⟨⟩
  · cases found with
    | none => rintro ⟨⟩
    | some bytes =>
      dsimp only
      cases hdec : NamespaceRecord.decode codec bytes with
      | error error => rintro ⟨⟩
      | ok record =>
        refine obeys_write ⟨rfl, .inr ⟨bytes, record, rfl, hdec, rfl, rfl⟩⟩ fun result hres => ?_
        exact ⟨bytes, result, rfl, settles_of_settle hres⟩

theorem obeys_deprecate (name : String) :
    (service db).Obeys (May codec (.deprecateNamespace name))
      (fun log outcome => outcome = .ok () → DeprecationSeen codec log) []
        (deprecateNamespaceRecord codec name) := by
  refine obeys_get rfl (fun error => ?_) fun found => ?_
  · rintro ⟨⟩
  · cases found with
    | none => exact fun _ => .inl rfl
    | some bytes =>
      dsimp only
      cases hdec : NamespaceRecord.decode codec bytes with
      | error error => rintro ⟨⟩
      | ok record =>
        dsimp only
        split_ifs with hst
        · exact fun _ => .inr (.inl ⟨bytes, record, rfl, hdec, hst⟩)
        · refine obeys_write ⟨rfl, .inr ⟨bytes, record, rfl, hdec, rfl, rfl⟩⟩ fun result hres => ?_
          exact .inr (.inr ⟨bytes, result, rfl, settles_of_settle hres⟩)

/-- **What the calls do**: each reads its record, writes it with its own change, and has
seen what it reports. -/
theorem keeps_program (operation : NamespaceOperation) :
    (service db).Obeys (May codec operation) (Seen codec operation) []
      (program codec operation) := by
  cases operation with
  | putNamespace record now =>
    refine Service.Obeys.bind (obeys_register rfl fun _ => rfl) fun log outcome _ => ⟨?_, ?_⟩
    · rintro _ _ ⟨⟩
    · rintro _ _ _ ⟨⟩
  | registerNamespace name origin minted now =>
    refine Service.Obeys.bind (obeys_register rfl fun _ => rfl) fun log outcome _ => ⟨?_, ?_⟩
    · rintro _ _ ⟨⟩
    · rintro _ _ _ ⟨⟩
  | setNamespacePlacement name placement now =>
    refine Service.Obeys.bind (obeys_setPlacement name placement now) fun log outcome hsett =>
      ⟨?_, ?_⟩
    · rintro _ _ ⟨⟩
    · rintro _ _ _ ⟨⟩ hplaced
      cases outcome with
      | error error => cases hplaced
      | ok found =>
        cases hplaced
        exact hsett rfl
  | deprecateNamespace name =>
    refine Service.Obeys.bind (obeys_deprecate name) fun log outcome hseen => ⟨?_, ?_⟩
    · rintro _ answer ⟨⟩ hok
      cases outcome with
      | error error => cases hok
      | ok value => exact hseen rfl
    · rintro _ _ _ ⟨⟩

end Specs

end Registry

end Aion.Namespaces
