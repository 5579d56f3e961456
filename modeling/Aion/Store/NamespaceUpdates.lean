import Aion.Store.NamespaceRegistry

/-!
# Concurrent updates of a namespace record

Every change of a record is a read and a compare-and-set, and a compare-and-set that loses
is reported as a success. That is harmless when the winner made the same change. When the
winner only touched the record, the change is lost (`touch_swallows_deprecation`).

A run is undisturbed when each deprecation writes over what it read or over a deprecated
record, and each placement over what it read, over its own placement or over one that
another call has set since. In an undisturbed run no update is lost
(`updates_kept_of_undisturbed`): a deprecated record stays so, and its placement is the one
last reported or one of a concurrent or later call. What a record was born with never
changes.
-/

namespace Aion.Namespaces

open Interleaving

variable {Bytes Hash : Type} {codec : NamespaceCodec Bytes Hash} {db : RegistryDatabase codec}

/-! ### What the registry promises -/

/-- The record read from a value. -/
def readStored (codec : NamespaceCodec Bytes Hash) (bytes : Bytes) : Option StoredNamespace :=
  (codec.fromSlice bytes).toOption

/-- The stored record of a name. -/
def storedAt (codec : NamespaceCodec Bytes Hash) (records : String → Option Bytes) (name : String) :
    Option StoredNamespace :=
  (records (namespaceKey name)).bind (readStored codec)

/-- The stored record of the name is deprecated. -/
def Deprecated (codec : NamespaceCodec Bytes Hash) (records : String → Option Bytes)
    (name : String) : Prop :=
  ∃ stored, storedAt codec records name = some stored ∧ stored.state = .deprecated

/-- The stored form has what the record was born with. -/
def Born (record : NamespaceRecord) (stored : StoredNamespace) : Prop :=
  stored.createdAt = encodeInstant record.createdAt ∧ stored.origin = record.origin ∧
    stored.kind = record.config.kind ∧
      stored.maxInFlightActivities = record.config.maxInFlightActivities

/-- A call is running, with a log. -/
def Running (s : RegistrySystem db) (i : ℕ) (operation : NamespaceOperation)
    (log : List (Access Bytes)) : Prop :=
  ∃ rest, s.clients i = some (.busy operation log rest)

/-- Client `i` writes the record of the name in the step. -/
def Writes (step : RegistryStep db) (i : ℕ) (name : String) : Prop :=
  ∃ expected value answer, step.2 = .called i
    (.replicateWrite (namespaceKey name) expected value) answer

/-- A call to place the name writes in the step. -/
def Places (name : String) (step : RegistryStep db) (placement : NamespacePlacement) : Prop :=
  ∃ i now log, Writes step i name ∧ Running step.1 i (.setNamespacePlacement name placement now) log

/-- No update is lost: once a deprecation has returned the record is deprecated; once a
placement has returned, which began in the step `begun`, the record has that placement or
one of a call that wrote since; and the record keeps what it was born with. -/
structure UpdatesKept (codec : NamespaceCodec Bytes Hash) (name : String) (record : NamespaceRecord)
    (steps : List (RegistryStep db)) (final : RegistrySystem db) : Prop where
  /-- Deprecations stay. -/
  deprecated : ∀ step ∈ steps, ∀ i log answer state,
    step.2 = .finished i (.deprecateNamespace name) log (.ok answer) state →
      Deprecated codec (db.records final.store) name
  /-- Placements stay until the next. -/
  placed : ∀ before begun mid finished after i placement now log state,
    steps = before ++ begun :: (mid ++ finished :: after) → begun.2 = .began i →
      (∀ step ∈ mid, step.2 ≠ .began i) →
    finished.2 = .finished i (.setNamespacePlacement name placement now) log
      (.ok (.placed (some ()))) state →
    ∃ stored, storedAt codec (db.records final.store) name = some stored ∧
      (stored.placement = placement ∨ ∃ step ∈ mid ++ after, Places name step stored.placement)
  /-- What it was born with stays. -/
  born : ∃ stored, storedAt codec (db.records final.store) name = some stored ∧ Born record stored

/-- A write of the step finds what the call read, or a record that has the change already,
or, for a placement, one that another call has placed since. -/
def Undisturbed (codec : NamespaceCodec Bytes Hash) (name : String) (step : RegistryStep db) :
    Prop :=
  ∀ i operation log bytes, Writes step i name → Running step.1 i operation log →
    Access.read (some bytes) ∈ log →
    db.records step.1.store (namespaceKey name) = some bytes ∨
      match operation with
      | .deprecateNamespace _ => Deprecated codec (db.records step.1.store) name
      | .setNamespacePlacement _ placement _ => ∃ stored, storedAt codec (db.records step.1.store) name = some stored ∧
          (stored.placement = placement ∨ ∀ was, readStored codec bytes = some was → stored.placement ≠ was.placement)
      | _ => True

/-! ### What a write changes -/

variable {operation : NamespaceOperation} {records records' : String → Option Bytes}

section Changes

variable {record : NamespaceRecord}

variable {found : NamespaceRecord} {was : StoredNamespace} {bytes : Bytes}

theorem storedAt_of_records {name : String} (h : records (namespaceKey name) = some bytes) :
    storedAt codec records name = readStored codec bytes := by
  rw [storedAt, h]
  rfl

theorem readStored_encode (lawful : codec.Lawful) :
    readStored codec (record.encode codec) = some record.toStored := by
  rw [readStored, NamespaceRecord.encode, lawful.stored]
  rfl

/-- What the change of a call does to a stored record. -/
structure Changes (record : NamespaceRecord) (operation : NamespaceOperation)
    (was now : StoredNamespace) : Prop where
  /-- What the record was born with stays. -/
  born : Born record now
  /-- A deprecated record stays so. -/
  state : was.state = .deprecated → now.state = .deprecated
  /-- A deprecation deprecates. -/
  deprecates : ∀ name, operation = .deprecateNamespace name → now.state = .deprecated
  /-- A placement places. -/
  places : ∀ name placement instant, operation = .setNamespacePlacement name placement instant →
    now.placement = placement
  /-- The other calls keep the placement. -/
  placement : (∀ name placement instant,
      operation ≠ .setNamespacePlacement name placement instant) →
    now.placement = was.placement

/-- What is decoded of a value that is read. -/
theorem decode_eq_ok (hread : readStored codec bytes = some was)
    (hdec : NamespaceRecord.decode codec bytes = .ok found) :
    ∃ createdAt lastSeen, decodeInstant codec was.createdAt = .ok createdAt ∧
      found = {
        name := was.name
        createdAt := createdAt
        lastSeen := lastSeen
        origin := was.origin
        config := { kind := was.kind, maxInFlightActivities := was.maxInFlightActivities }
        placement := was.placement
        state := was.state } := by
  unfold NamespaceRecord.decode at hdec
  obtain ⟨stored, hsto, hdec⟩ := Result.bind_eq_ok hdec
  obtain ⟨createdAt, hcreatedAt, hdec⟩ := Result.bind_eq_ok hdec
  obtain ⟨lastSeen, -, hdec⟩ := Result.bind_eq_ok hdec
  unfold readStored at hread
  cases hslice : codec.fromSlice bytes with
  | error error =>
    rw [hslice] at hsto
    cases hsto
  | ok value =>
    rw [hslice] at hsto hread
    cases hsto
    cases hread
    cases hdec
    exact ⟨createdAt, lastSeen, hcreatedAt, rfl⟩

theorem state_of_decode (hread : readStored codec bytes = some was)
    (hdec : NamespaceRecord.decode codec bytes = .ok found) : found.state = was.state := by
  obtain ⟨createdAt, lastSeen, -, rfl⟩ := decode_eq_ok hread hdec
  rfl

theorem changes_of_decode (lawful : codec.Lawful) (hread : readStored codec bytes = some was)
    (hdec : NamespaceRecord.decode codec bytes = .ok found) (hborn : Born record was) :
    Changes record operation was (operation.change found).toStored := by
  obtain ⟨createdAt, lastSeen, hcreatedAt, rfl⟩ := decode_eq_ok hread hdec
  obtain ⟨hcrtd, horigin, hkind, hmax⟩ := hborn
  -- The text of the birth instant is read as that instant.
  have hinstant : createdAt = record.createdAt := by
    rw [hcrtd, decodeInstant] at hcreatedAt
    cases hparse : codec.parseFromRfc3339 (encodeInstant record.createdAt) with
    | error error =>
      rw [hparse] at hcreatedAt
      cases hcreatedAt
    | ok value =>
      rw [hparse] at hcreatedAt
      cases hcreatedAt
      exact lawful.instant _ _ hparse
  subst hinstant
  cases operation with
  | putNamespace given now =>
    exact ⟨⟨rfl, horigin, hkind, hmax⟩, fun h => h, by rintro _ ⟨⟩, by rintro _ _ _ ⟨⟩, fun _ => rfl⟩
  | registerNamespace name origin minted now =>
    exact ⟨⟨rfl, horigin, hkind, hmax⟩, fun h => h, by rintro _ ⟨⟩, by rintro _ _ _ ⟨⟩, fun _ => rfl⟩
  | setNamespacePlacement name placement now =>
    exact ⟨⟨rfl, horigin, hkind, hmax⟩, fun h => h, by rintro _ ⟨⟩, by rintro _ _ _ ⟨⟩; rfl,
      fun h => absurd rfl (h name placement now)⟩
  | deprecateNamespace name =>
    exact ⟨⟨rfl, horigin, hkind, hmax⟩, fun _ => rfl, fun _ _ => rfl, by rintro _ _ _ ⟨⟩, fun _ => rfl⟩

end Changes

/-! ### Undisturbed runs -/

section Invariant

variable {name : String} {record : NamespaceRecord} {s s' : RegistrySystem db}
  {label : RegistryLabel Bytes Hash}

/-- What an undisturbed run keeps: the record is there with what it was born with, it is
deprecated if a call has read it so, and if a deprecation has settled. -/
structure Inv (codec : NamespaceCodec Bytes Hash) (name : String) (record : NamespaceRecord)
    (s : RegistrySystem db) : Prop where
  /-- The record is there. -/
  stored : ∃ stored, storedAt codec (db.records s.store) name = some stored ∧ Born record stored
  /-- What the calls have read. -/
  read : ∀ i operation log found, Running s i operation log → operation.name = name →
    Access.read found ∈ log →
    ∃ bytes was, found = some bytes ∧ readStored codec bytes = some was ∧ Born record was ∧
      (was.state = .deprecated → Deprecated codec (db.records s.store) name)
  /-- What the deprecations have written. -/
  wrote : ∀ i log result, Running s i (.deprecateNamespace name) log → Access.wrote result ∈ log →
    Settles result →
    Deprecated codec (db.records s.store) name

/-- Every running call is at a point of its program. -/
abbrev AllKeep (codec : NamespaceCodec Bytes Hash) (s : RegistrySystem db) : Prop :=
  AllObey (service db) (May codec) (Seen codec) s

variable {log : List (Access Bytes)} {state : NamespaceOperation} {now : Instant}
  {expected : Option Hash} {key : String} {value : Bytes} {i : ℕ}

theorem running_update {j : ℕ} {store : db.State}
    {client : Option (Client NamespaceOperation (Except StoreError NamespaceAnswer)
        (RegistryCall Bytes Hash) RegistryCall.Answer (Access Bytes))}
    (h : Running ⟨store, Function.update s.clients i client⟩ j operation log) :
    (j = i ∧ ∃ rest, client = some (.busy operation log rest)) ∨ j ≠ i ∧
      Running s j operation log := by
  obtain ⟨rest, hcli⟩ := h
  by_cases hij : j = i
  · subst hij
    exact .inl ⟨rfl, rest, by simpa using hcli⟩
  · exact .inr ⟨hij, rest, by simpa [Function.update_of_ne hij] using hcli⟩

/-- What a write finds and leaves, when its call is about the name. -/
theorem Inv.write_cases (lawful : codec.Lawful) (h : Inv codec name record s)
    (hrunning : Running s i operation log) (hname : operation.name = name)
    (hmay : May codec operation log (.replicateWrite key expected value)) :
    ∃ bytes was, key = namespaceKey name ∧ log = [.read (some bytes)] ∧
      readStored codec bytes = some was ∧
      ((∃ now, db.records s.store key = some bytes ∧ Changes record operation was now ∧
          storedAt codec (db.records (db.serve s.store (.replicateWrite key expected value)).2)
            name = some now ∧
          (db.serve s.store (.replicateWrite key expected value)).1 ≠ .error .casConflict) ∨
        (storedAt codec (db.records (db.serve s.store (.replicateWrite key expected value)).2)
            name =
            storedAt codec (db.records s.store) name ∧
          (db.serve s.store (.replicateWrite key expected value)).1 ≠ .ok () ∧
          ((db.serve s.store (.replicateWrite key expected value)).1 = .error .casConflict →
            db.records s.store key ≠ some bytes))) := by
  obtain ⟨rfl, hlog⟩ := hmay
  rcases hlog with ⟨rfl, -⟩ | ⟨bytes, found, rfl, hdec, rfl, rfl⟩
  · -- The record is there, so no call has read that it is not.
    obtain ⟨bytes, _, ⟨⟩, -⟩ := h.read i operation _ none hrunning hname (by simp)
  · obtain ⟨_, was, ⟨⟩, hread, hborn, -⟩ :=
      h.read i operation _ (some bytes) hrunning hname (by simp)
    refine ⟨bytes, was, by rw [hname], rfl, hread, ?_⟩
    rcases db.write_cases s.store (namespaceKey operation.name) (some (codec.hashOf bytes))
      ((operation.change found).encode codec) with ⟨hmatch, hrecs, hans⟩ | ⟨hrecs, hans, hlost⟩
    · obtain ⟨current, hcur, hhash⟩ := Option.map_eq_some_iff.mp hmatch
      obtain rfl := lawful.hash hhash
      refine .inl ⟨_, hcur, changes_of_decode lawful hread hdec hborn, ?_, hans⟩
      rw [storedAt_of_records (by rw [hrecs, ← hname, Function.update_self]), readStored_encode lawful]
    · refine .inr ⟨by rw [storedAt, storedAt, hrecs], hans, fun hconflict hsame => ?_⟩
      exact hlost hconflict (by rw [hsame]; rfl)

theorem storedAt_congr (h : records' (namespaceKey name) = records (namespaceKey name)) :
    storedAt codec records' name = storedAt codec records name := by
  rw [storedAt, storedAt, h]

/-- A write of another name. -/
theorem storedAt_of_ne (store : db.State) (hname : operation.name ≠ name)
    (hmay : May codec operation log (.replicateWrite key expected value)) :
    storedAt codec (db.records (db.serve store (.replicateWrite key expected value)).2) name =
      storedAt codec (db.records store) name := by
  obtain ⟨rfl, -⟩ := hmay
  refine storedAt_congr ?_
  rcases db.write_cases store (namespaceKey operation.name) expected value with
    ⟨-, hrecs, -⟩ | ⟨hrecs, -⟩
  · rw [hrecs, Function.update_of_ne fun h => hname (namespaceKey_injective h).symm]
  · rw [hrecs]

/-- **What a step does to the record**: it stays, or a call about the name writes it with
its change. -/
theorem Inv.stored_step (lawful : codec.Lawful) (h : Inv codec name record s)
    (hkeep : AllKeep codec s)
    (hstep : Step (service db) (fun operation task => task = program codec operation) s label s') :
    storedAt codec (db.records s'.store) name = storedAt codec (db.records s.store) name ∨
      ∃ i operation log was now, Writes (s, label) i name ∧ Running s i operation log ∧
        operation.name = name ∧
        storedAt codec (db.records s.store) name = some was ∧
          storedAt codec (db.records s'.store) name = some now ∧
        Changes record operation was now := by
  cases hstep with
  | opened _ => exact .inl rfl
  | began _ _ => exact .inl rfl
  | finished _ => exact .inl rfl
  | closed => exact .inl rfl
  | @called i operation log request next hbusy =>
    have hmay := (hkeep i operation log _ hbusy).1
    cases request with
    | get key => exact .inl (congrArg (storedAt codec · name) (db.get_records s.store key))
    | replicateWrite key expected value =>
      by_cases hname : operation.name = name
      · have hrunning : Running s i operation log := ⟨_, hbusy⟩
        obtain ⟨bytes, was, rfl, -, hread, hwrite | ⟨hsame, -⟩⟩ := h.write_cases lawful hrunning hname hmay
        · obtain ⟨now, hrecs, hchgs, hnow, -⟩ := hwrite
          refine .inr ⟨i, operation, log, was, now, ⟨_, _, _, rfl⟩, hrunning, hname, ?_, hnow, hchgs⟩
          rw [storedAt_of_records hrecs, hread]
        · exact .inl hsame
      · exact .inl (storedAt_of_ne s.store hname hmay)

theorem Inv.deprecated_step (lawful : codec.Lawful) (h : Inv codec name record s)
    (hkeep : AllKeep codec s)
    (hstep : Step (service db) (fun operation task => task = program codec operation) s label s')
    (hdepr : Deprecated codec (db.records s.store) name) :
    Deprecated codec (db.records s'.store) name := by
  obtain ⟨stored, hsto, hst⟩ := hdepr
  rcases h.stored_step lawful hkeep hstep with hsame | ⟨_, _, _, was, now, -, -, -, hwas,
    hnow, hchgs⟩
  · exact ⟨stored, hsame.trans hsto, hst⟩
  · obtain rfl : was = stored := Option.some.inj (hwas.symm.trans hsto)
    exact ⟨now, hnow, hchgs.state hst⟩

/-- What a call has in its log after a step it had before, or was added by the step. -/
theorem running_step {access : Access Bytes}
    (hstep : Step (service db) (fun operation task => task = program codec operation) s label s')
    (h : Running s' i operation log) (hacc : access ∈ log) :
    (∃ log₀, Running s i operation log₀ ∧ access ∈ log₀) ∨
      ∃ log₀ request next, s.clients i = some (.busy operation log₀ (.call request next)) ∧
        label = .called i request (db.serve s.store request).1 ∧
        s'.store = (db.serve s.store request).2 ∧
          access ∈ accesses request (db.serve s.store request).1 := by
  cases hstep with
  | opened _ =>
    rcases running_update h with ⟨-, rest, ⟨⟩⟩ | ⟨-, hrunning⟩
    exact .inl ⟨log, hrunning, hacc⟩
  | began _ _ =>
    rcases running_update h with ⟨-, rest, ⟨⟩⟩ | ⟨-, hrunning⟩
    · cases hacc
    · exact .inl ⟨log, hrunning, hacc⟩
  | @called j start log₀ request next hbusy =>
    rcases running_update h with ⟨rfl, rest, hcli⟩ | ⟨-, hrunning⟩
    · cases hcli
      rcases List.mem_append.mp hacc with hmem | hmem
      · exact .inl ⟨log₀, ⟨_, hbusy⟩, hmem⟩
      · exact .inr ⟨log₀, request, next, hbusy, rfl, rfl, hmem⟩
    · exact .inl ⟨log, hrunning, hacc⟩
  | finished _ =>
    rcases running_update h with ⟨-, rest, ⟨⟩⟩ | ⟨-, hrunning⟩
    exact .inl ⟨log, hrunning, hacc⟩
  | closed =>
    rcases running_update h with ⟨-, rest, ⟨⟩⟩ | ⟨-, hrunning⟩
    exact .inl ⟨log, hrunning, hacc⟩

theorem wrote_notMem_get {answer : Except DatabaseError (Option Bytes)}
    {result : Except DatabaseError Unit} :
    Access.wrote result ∉ accesses (.get key : RegistryCall Bytes Hash) answer := by
  cases answer <;> simp [accesses]

/-- A read of the name finds the record. -/
theorem Inv.read_get (h : Inv codec name record s) {found : Option Bytes}
    (hfd : Access.read found ∈ accesses (.get (namespaceKey name) : RegistryCall Bytes Hash)
        (db.serve s.store (.get (namespaceKey name))).1) :
    ∃ bytes was, found = some bytes ∧ readStored codec bytes = some was ∧
      storedAt codec (db.records s.store) name = some was ∧
      Born record was := by
  obtain ⟨was, hwas, hborn⟩ := h.stored
  cases hans : (db.serve s.store (.get (namespaceKey name))).1 with
  | error error =>
    rw [hans] at hfd
    cases hfd
  | ok value =>
    rw [hans] at hfd
    obtain rfl : found = value := by simpa [accesses] using hfd
    obtain ⟨bytes, hbytes, hread⟩ := Option.bind_eq_some_iff.mp hwas
    exact ⟨bytes, was, (db.get_found hans).trans hbytes, hread, hwas, hborn⟩

/-- What a settled write of the name leaves: its change, or the record it lost to. -/
theorem Inv.settled (lawful : codec.Lawful) (h : Inv codec name record s) {i : ℕ}
    {operation : NamespaceOperation} {log : List (Access Bytes)} {key : String}
    {expected : Option Hash} {value : Bytes} (hrunning : Running s i operation log)
    (hname : operation.name = name)
    (hmay : May codec operation log (.replicateWrite key expected value))
    (hsets : Settles (db.serve s.store (.replicateWrite key expected value)).1) :
    ∃ bytes was, key = namespaceKey name ∧ log = [.read (some bytes)] ∧
      readStored codec bytes = some was ∧
      ((∃ now, Changes record operation was now ∧
          storedAt codec (db.records (db.serve s.store (.replicateWrite key expected value)).2)
            name = some now) ∨
        db.records s.store key ≠ some bytes) := by
  obtain ⟨bytes, was, hkey, hlog, hwas, ⟨now, -, hchgs, hnow, -⟩ | ⟨-, hnotOk, hlost⟩⟩ :=
    h.write_cases lawful hrunning hname hmay
  · exact ⟨bytes, was, hkey, hlog, hwas, .inl ⟨now, hchgs, hnow⟩⟩
  · exact ⟨bytes, was, hkey, hlog, hwas, .inr (hlost (hsets.resolve_left hnotOk))⟩

/-- One step of an undisturbed run. -/
theorem Inv.step (lawful : codec.Lawful) (h : Inv codec name record s) (hkeep : AllKeep codec s)
    (hstep : Step (service db) (fun operation task => task = program codec operation) s label s')
    (hundisturbed : Undisturbed codec name (s, label)) : Inv codec name record s' := by
  have hdepr := h.deprecated_step lawful hkeep hstep
  refine ⟨?_, ?_, ?_⟩
  · rcases h.stored_step lawful hkeep hstep with hsame | ⟨_, _, _, _, now, -, -, -, -, hnow, hchgs⟩
    · rw [hsame]
      exact h.stored
    · exact ⟨now, hnow, hchgs.born⟩
  · intro i operation log found hrunning hname hread
    rcases running_step hstep hrunning hread with ⟨log₀, hold, hmem⟩ | ⟨log₀, request, next, hbusy,
      -, -, hmem⟩
    · obtain ⟨bytes, was, hfd, hwas, hborn, hst⟩ := h.read i operation log₀ found hold hname hmem
      exact ⟨bytes, was, hfd, hwas, hborn, fun hw => hdepr (hst hw)⟩
    · cases request with
      | get key =>
        obtain ⟨rfl, -⟩ := (hkeep i operation log₀ _ hbusy).1
        rw [hname] at hmem
        obtain ⟨bytes, was, hfd, hwas, hsto, hborn⟩ := h.read_get hmem
        exact ⟨bytes, was, hfd, hwas, hborn, fun hw => hdepr ⟨was, hsto, hw⟩⟩
      | replicateWrite key expected value => simp [accesses] at hmem
  · intro i log result hrunning hwrote hsets
    rcases running_step hstep hrunning hwrote with ⟨log₀, hold, hmem⟩ | ⟨log₀, request, next, hbusy,
      rfl, hstore, hmem⟩
    · exact hdepr (h.wrote i log₀ result hold hmem hsets)
    · cases request with
      | get key => exact absurd hmem wrote_notMem_get
      | replicateWrite key expected value =>
        cases List.mem_singleton.mp hmem
        obtain ⟨bytes, was, rfl, rfl, -, ⟨now, hchgs, hnow⟩ | hlost⟩ :=
          h.settled lawful ⟨_, hbusy⟩ rfl (hkeep i _ log₀ _ hbusy).1 hsets
        · exact ⟨now, by rw [hstore, hnow], hchgs.deprecates name rfl⟩
        · -- The write lost to another value: a deprecated record.
          rcases hundisturbed i _ _ bytes ⟨_, _, _, rfl⟩ ⟨_, hbusy⟩ (by simp) with hsame | hst
          · exact absurd hsame hlost
          · exact hdepr hst

/-! ### Placements -/

/-- The record has the placement or one of a call that wrote among the steps. -/
def Covers (codec : NamespaceCodec Bytes Hash) (name : String) (placement : NamespacePlacement)
    (seen : List (RegistryStep db)) (records : String → Option Bytes) : Prop :=
  ∃ stored, storedAt codec records name = some stored ∧
    (stored.placement = placement ∨ ∃ step ∈ seen, Places name step stored.placement)

/-- What holds of a call to place the name: until it writes, the record has the placement it
read or one set since, and then its own or one set since it began. -/
def Pending (codec : NamespaceCodec Bytes Hash) (name : String) (i : ℕ)
    (placement : NamespacePlacement) (now : Instant) (seen : List (RegistryStep db))
    (s : RegistrySystem db) : Prop :=
  ∀ log, Running s i (.setNamespacePlacement name placement now) log →
    (∀ bytes was, Access.read (some bytes) ∈ log → readStored codec bytes = some was →
      Covers codec name was.placement seen (db.records s.store)) ∧
    ∀ result, Access.wrote result ∈ log → Settles result →
      Covers codec name placement seen (db.records s.store)

variable {placement : NamespacePlacement} {seen : List (RegistryStep db)}

theorem Inv.covers_step (lawful : codec.Lawful) (h : Inv codec name record s)
    (hkeep : AllKeep codec s)
    (hstep : Step (service db) (fun operation task => task = program codec operation) s label s')
    (hcov : Covers codec name placement seen (db.records s.store)) :
    Covers codec name placement (seen ++ [(s, label)]) (db.records s'.store) := by
  obtain ⟨stored, hsto, hplacement⟩ := hcov
  -- Whatever was the reason for the placement before the step is one after it.
  have hstill : stored.placement = placement ∨ ∃ step ∈ seen ++ [(s, label)], Places name step stored.placement := by
    rcases hplacement with hsame | ⟨step, hmem, hplaces⟩
    · exact .inl hsame
    · exact .inr ⟨step, List.mem_append_left _ hmem, hplaces⟩
  rcases h.stored_step lawful hkeep hstep with hsame | ⟨i, operation, log, was, now, hwrites,
    hrunning, hname, hwas, hnow, hchgs⟩
  · exact ⟨stored, hsame.trans hsto, hstill⟩
  · obtain rfl : was = stored := Option.some.inj (hwas.symm.trans hsto)
    refine ⟨now, hnow, ?_⟩
    by_cases hplaces : ∃ name placement instant,
      operation = .setNamespacePlacement name placement instant
    · obtain ⟨_, placement', instant, rfl⟩ := hplaces
      obtain rfl : _ = name := hname
      rw [hchgs.places _ placement' instant rfl]
      exact .inr ⟨_, List.mem_append_right _ (List.mem_singleton_self _), i, instant, log, hwrites, hrunning⟩
    · push Not at hplaces
      rw [hchgs.placement hplaces]
      exact hstill

/-- One step of an undisturbed run, for a call to place the name. -/
theorem Pending.step (lawful : codec.Lawful) (h : Inv codec name record s) (hkeep : AllKeep codec s)
    (hstep : Step (service db) (fun operation task => task = program codec operation) s label s')
    (hundisturbed : Undisturbed codec name (s, label))
    (hpend : Pending codec name i placement now seen s) :
    Pending codec name i placement now (seen ++ [(s, label)]) s' := by
  intro log hrunning
  refine ⟨fun bytes was hread hwas => ?_, fun result hwrote hsets => ?_⟩
  · rcases running_step hstep hrunning hread with ⟨log₀, hold, hmem⟩ | ⟨log₀, request, next, hbusy,
      -, -, hmem⟩
    · exact h.covers_step lawful hkeep hstep ((hpend log₀ hold).1 bytes was hmem hwas)
    · cases request with
      | get key =>
        obtain ⟨rfl, -⟩ := (hkeep i _ log₀ _ hbusy).1
        obtain ⟨_, was', ⟨⟩, hwas', hsto, -⟩ := h.read_get hmem
        obtain rfl : was = was' := Option.some.inj (hwas.symm.trans hwas')
        exact h.covers_step lawful hkeep hstep ⟨was, hsto, .inl rfl⟩
      | replicateWrite key expected value => simp [accesses] at hmem
  · rcases running_step hstep hrunning hwrote with ⟨log₀, hold, hmem⟩ | ⟨log₀, request, next, hbusy,
      rfl, hstore, hmem⟩
    · exact h.covers_step lawful hkeep hstep ((hpend log₀ hold).2 result hmem hsets)
    · cases request with
      | get key => exact absurd hmem wrote_notMem_get
      | replicateWrite key expected value =>
        cases List.mem_singleton.mp hmem
        obtain ⟨bytes, was, rfl, rfl, hwas, ⟨after, hchgs, hafter⟩ | hlost⟩ :=
          h.settled lawful ⟨_, hbusy⟩ rfl (hkeep i _ log₀ _ hbusy).1 hsets
        · exact ⟨after, by rw [hstore, hafter], .inl (hchgs.places name placement now rfl)⟩
        · -- The write lost to another value: one with its placement, or with one set since.
          refine h.covers_step lawful hkeep hstep ?_
          rcases hundisturbed i _ _ bytes ⟨_, _, _, rfl⟩ ⟨_, hbusy⟩ (by simp) with hsame | ⟨stored, hsto, hsame | hother⟩
          · exact absurd hsame hlost
          · exact ⟨stored, hsto, .inl hsame⟩
          · obtain ⟨stored', hsto', hread⟩ := (hpend _ ⟨_, hbusy⟩).1 bytes was (by simp) hwas
            obtain rfl : stored = stored' := Option.some.inj (hsto.symm.trans hsto')
            exact ⟨stored, hsto, .inr (hread.resolve_left (hother was hwas))⟩

/-! ### Runs -/

variable {steps : List (RegistryStep db)} {final : RegistrySystem db}

theorem keep_of_run (hkeep : AllKeep codec s) (run : RegistryRun db s steps final) :
    AllKeep codec final := by
  refine obeys_of_reachable ?_ run.reachable hkeep
  rintro operation _ rfl
  exact keeps_program operation

/-- What an undisturbed run keeps, with what each of its steps keeps of the steps seen. -/
theorem Inv.run (lawful : codec.Lawful) (h : Inv codec name record s) (hkeep : AllKeep codec s)
    (run : RegistryRun db s steps final)
    (hundisturbed : ∀ step ∈ steps, Undisturbed codec name step) (seen : List (RegistryStep db))
    (kept : List (RegistryStep db) → RegistrySystem db → Prop) (hkept : kept seen s)
    (hstep : ∀ seen mid label next, Inv codec name record mid → AllKeep codec mid →
        Undisturbed codec name (mid, label) →
      Step (service db) (fun operation task => task = program codec operation) mid label next →
      kept seen mid → kept (seen ++ [(mid, label)]) next) :
    Inv codec name record final ∧ kept (seen ++ steps) final := by
  induction run with
  | nil => exact ⟨h, by simpa using hkept⟩
  | @snoc steps mid final label earlier last ih =>
    obtain ⟨hinv, hmid⟩ := ih fun step hmem => hundisturbed step (List.mem_append_left _ hmem)
    have hlast : Undisturbed codec name (mid, label) := hundisturbed _ (by simp)
    refine ⟨hinv.step lawful (keep_of_run hkeep earlier) last hlast, ?_⟩
    rw [← List.append_assoc]
    exact hstep _ mid label _ hinv (keep_of_run hkeep earlier) hlast last hmid

theorem Inv.deprecated_run (lawful : codec.Lawful) (h : Inv codec name record s)
    (hkeep : AllKeep codec s) (run : RegistryRun db s steps final)
    (hundisturbed : ∀ step ∈ steps, Undisturbed codec name step)
    (hdepr : Deprecated codec (db.records s.store) name) :
    Deprecated codec (db.records final.store) name := by
  refine (h.run lawful hkeep run hundisturbed []
      (fun _ s => Deprecated codec (db.records s.store) name) hdepr ?_).2
  intro _ mid label next hinv hkeep _ hstep
  exact hinv.deprecated_step lawful hkeep hstep

theorem Inv.covers_run (lawful : codec.Lawful) (h : Inv codec name record s)
    (hkeep : AllKeep codec s) (run : RegistryRun db s steps final)
    (hundisturbed : ∀ step ∈ steps, Undisturbed codec name step)
    (hcov : Covers codec name placement seen (db.records s.store)) :
    Covers codec name placement (seen ++ steps) (db.records final.store) := by
  refine (h.run lawful hkeep run hundisturbed seen
      (fun seen s => Covers codec name placement seen (db.records s.store)) hcov ?_).2
  intro seen mid label next hinv hkeep _ hstep
  exact hinv.covers_step lawful hkeep hstep

theorem Inv.pending_run (lawful : codec.Lawful) (h : Inv codec name record s)
    (hkeep : AllKeep codec s) (run : RegistryRun db s steps final)
    (hundisturbed : ∀ step ∈ steps, Undisturbed codec name step)
    (hpend : Pending codec name i placement now seen s) :
    Inv codec name record final ∧ Pending codec name i placement now (seen ++ steps) final := by
  refine h.run lawful hkeep run hundisturbed seen (Pending codec name i placement now) hpend ?_
  intro seen mid label next hinv hkeep hlast hstep
  exact Pending.step lawful hinv hkeep hstep hlast

/-- A call that has just begun has seen nothing. -/
theorem pending_of_began
    (hstep : Step (service db) (fun operation task => task = program codec operation) s
        (.began i) s') : Pending codec name i placement now [] s' := by
  cases hstep with
  | began _ _ =>
    intro log hrunning
    rcases running_update hrunning with ⟨-, rest, ⟨⟩⟩ | ⟨hne, -⟩
    · exact ⟨by simp, by simp⟩
    · exact absurd rfl hne

/-- A deprecation that returns leaves the record deprecated. -/
theorem Inv.deprecated_of_finished (h : Inv codec name record s) (hkeep : AllKeep codec s)
    {answer : NamespaceAnswer}
    (hstep : Step (service db) (fun operation task => task = program codec operation) s
        (.finished i (.deprecateNamespace name) log (.ok answer) state) s') :
    Deprecated codec (db.records s'.store) name := by
  cases hstep with
  | finished hbusy =>
    have hrunning : Running s i (.deprecateNamespace name) log := ⟨_, hbusy⟩
    obtain ⟨hseen, -⟩ : Seen codec _ log _ := hkeep i _ log _ hbusy
    rcases hseen name answer rfl rfl with rfl | ⟨bytes, found, rfl, hdec, hst⟩ | ⟨bytes, result,
      rfl, hsets⟩
    · obtain ⟨_, _, ⟨⟩, -⟩ := h.read i _ _ none hrunning rfl (by simp)
    · obtain ⟨_, was, ⟨⟩, hwas, -, hdepr⟩ := h.read i _ _ (some bytes) hrunning rfl (by simp)
      refine hdepr ?_
      rw [← state_of_decode hwas hdec]
      exact hst
    · exact h.wrote i _ result hrunning (by simp) hsets

/-- A placement that returns leaves its placement or one set since it began. -/
theorem Pending.covers_of_finished (hkeep : AllKeep codec s)
    (hpend : Pending codec name i placement now seen s)
    (hstep : Step (service db) (fun operation task => task = program codec operation) s
        (.finished i (.setNamespacePlacement name placement now) log
      (.ok (.placed (some ()))) state) s') :
    Covers codec name placement seen (db.records s'.store) := by
  cases hstep with
  | finished hbusy =>
    obtain ⟨-, hseen⟩ : Seen codec _ log _ := hkeep i _ log _ hbusy
    obtain ⟨bytes, result, rfl, hsets⟩ := hseen name placement now rfl rfl
    exact (hpend _ ⟨_, hbusy⟩).2 result (by simp) hsets

end Invariant

/-! ### No update is lost -/

/-- **No update of a record is lost in an undisturbed run**: from a record that exists, and
whatever calls run on the registry and fail in it, a deprecation or a placement that has
returned is there, and the record keeps what it was born with. -/
theorem updates_kept_of_undisturbed {Bytes Hash : Type} (codec : NamespaceCodec Bytes Hash)
    (lawful : codec.Lawful) (db : RegistryDatabase codec) (name : String) (record : NamespaceRecord)
    (start : RegistrySystem db)
    (hexists : db.records start.store (namespaceKey name) = some (record.encode codec))
    (hidle : ∀ i, start.clients i = none) (steps : List (RegistryStep db))
    (final : RegistrySystem db) (run : RegistryRun db start steps final)
    (hundisturbed : ∀ step ∈ steps, Undisturbed codec name step) :
    UpdatesKept codec name record steps final := by
  have hbusy : ∀ i operation log, ¬ Running start i operation log := by
    rintro i operation log ⟨rest, hcli⟩
    rw [hidle] at hcli
    cases hcli
  have hinv : Inv codec name record start := by
    refine ⟨⟨record.toStored, ?_, rfl, rfl, rfl, rfl⟩, ?_, ?_⟩
    · rw [storedAt_of_records hexists, readStored_encode lawful]
    · exact fun i operation log _ hrunning => absurd hrunning (hbusy i operation log)
    · exact fun i log _ hrunning => absurd hrunning (hbusy i _ log)
  have hkeep : AllKeep codec start :=
    fun i operation log rest hcli => absurd ⟨rest, hcli⟩ (hbusy i operation log)
  -- An undisturbed part of the run keeps what the run keeps.
  have hreach : ∀ {part : List (RegistryStep db)} {mid : RegistrySystem db},
      RegistryRun db start part mid → (∀ step ∈ part, step ∈ steps) → Inv codec name record mid ∧ AllKeep codec mid := by
    intro part mid hpart hmem
    have hmid :=
      hinv.run lawful hkeep hpart (fun step hstep => hundisturbed step (hmem step hstep)) []
      (fun _ _ => True) trivial fun _ _ _ _ _ _ _ _ _ => trivial
    exact ⟨hmid.1, keep_of_run hkeep hpart⟩
  refine ⟨?_, ?_, (hreach run fun _ hstep => hstep).1.stored⟩
  · intro step hmem i log answer state hlabel
    obtain ⟨before, after, rfl⟩ := List.append_of_mem hmem
    rw [List.append_cons] at run
    obtain ⟨next, hfst, hafter⟩ := run.split
    obtain ⟨hbef, hstep⟩ := hfst.concat_inv
    rw [hlabel] at hstep
    obtain ⟨hinv', hkeep'⟩ := hreach hbef fun step hstep => List.mem_append_left _ hstep
    obtain ⟨hnext, hkeepNext⟩ := hreach hfst (by grind)
    exact hnext.deprecated_run lawful hkeepNext hafter
      (fun step hstep => hundisturbed step (by grind))
      (hinv'.deprecated_of_finished hkeep' hstep)
  · intro before begun mid finished after i placement now log state hsteps hbegan _ hfin
    subst hsteps
    rw [List.append_cons] at run
    obtain ⟨first, hfst, hrest⟩ := run.split
    obtain ⟨-, hbeganStep⟩ := hfst.concat_inv
    rw [hbegan] at hbeganStep
    obtain ⟨hinvFirst, hkeepFirst⟩ := hreach hfst (by grind)
    rw [List.append_cons] at hrest
    obtain ⟨next, hsnd, hafter⟩ := hrest.split
    obtain ⟨hmid, hfinishedStep⟩ := hsnd.concat_inv
    -- The call from its beginning to its return, then the rest of the run.
    obtain ⟨hinvMid, hpend⟩ := hinvFirst.pending_run lawful hkeepFirst hmid
      (fun step hstep => hundisturbed step (by grind)) (pending_of_began hbeganStep)
    have hkeepMid := keep_of_run hkeepFirst hmid
    have hinvNext := hinvMid.step lawful hkeepMid hfinishedStep (hundisturbed _ (by simp))
    rw [hfin] at hfinishedStep
    have hcov := hpend.covers_of_finished hkeepMid hfinishedStep
    exact hinvNext.covers_run lawful (keep_of_run hkeepFirst hsnd) hafter
      (fun step hstep => hundisturbed step (by grind)) hcov

/-! ### Schedules -/

/-- The codec of the schedules. -/
abbrev scheduleCodec : NamespaceCodec StoredNamespace StoredNamespace := NamespaceCodec.known [0, 1]

/-- The database of the schedules. -/
abbrev scheduleDatabase : RegistryDatabase scheduleCodec := Registry.database scheduleCodec

theorem lawful_scheduleCodec : scheduleCodec.Lawful := by
  refine NamespaceCodec.lawful_known fun instant hinstant => ?_
  simp only [List.mem_cons, List.not_mem_nil, or_false] at hinstant
  rcases hinstant with rfl | rfl
  · decide +kernel
  · decide +kernel

/-- A record of the name `orders`. -/
def ordersRecord : NamespaceRecord := .newMinted "orders" .explicit 0

/-- The registry has the record; nothing goes wrong, and no call is running. -/
def ordersMinted : RegistrySystem scheduleDatabase where
  store := {
    records := Function.update (fun _ => none) (namespaceKey "orders")
      (some (ordersRecord.encode scheduleCodec))
    calls := 0
    faults := fun _ => none }
  clients := fun _ => none

/-- Runs a schedule on the record. -/
def runSchedule (actions : List (Action NamespaceOperation)) :
    Option (List (RegistryStep scheduleDatabase) × RegistrySystem scheduleDatabase) :=
  ordersMinted.exec (service scheduleDatabase) (program scheduleCodec) actions

/-- A deprecation of the name returns in the step. -/
def returnsDeprecated (name : String) (step : RegistryStep scheduleDatabase) : Bool :=
  match step.2 with
  | .finished _ (.deprecateNamespace name') _ (.ok _) _ => name' = name
  | _ => false

theorem deprecated_of_returns {name : String} {record : NamespaceRecord}
    {steps : List (RegistryStep scheduleDatabase)} {final : RegistrySystem scheduleDatabase}
    (h : UpdatesKept scheduleCodec name record steps final)
    (hrets : steps.any (returnsDeprecated name)) :
    Deprecated scheduleCodec (scheduleDatabase.records final.store) name := by
  obtain ⟨step, hmem, hstep⟩ := List.any_eq_true.mp hrets
  unfold returnsDeprecated at hstep
  split at hstep
  · rename_i i name' log answer state hlabel
    obtain rfl := of_decide_eq_true hstep
    exact h.deprecated step hmem i log answer state hlabel
  · cases hstep

/-- A worker touches the record between the read and the write of a deprecation. -/
def touchedDeprecation : List (Action NamespaceOperation) :=
  [.opened 0 (.deprecateNamespace "orders"), .advance 0, .advance 0,
    .opened 1 (.registerNamespace "orders" .workerMint 1 1), .advance 1, .advance 1, .advance 1,
      .advance 1,
    .advance 0, .advance 0]

/-- The deprecation returns and the record is active. -/
theorem touch_swallows_deprecation :
    ∃ steps final, RegistryRun scheduleDatabase ordersMinted steps final ∧
      ¬ UpdatesKept scheduleCodec "orders" ordersRecord steps final := by
  have hseen : (runSchedule touchedDeprecation).map
    (fun ran => (ran.1.any (returnsDeprecated "orders"),
      (storedAt scheduleCodec (scheduleDatabase.records ran.2.store) "orders").map (·.state))) =
        some (true, some .active) := by decide +kernel
  obtain ⟨⟨steps, final⟩, hran, hseen⟩ := Option.map_eq_some_iff.mp hseen
  obtain ⟨hrets, hst⟩ := Prod.mk.inj hseen
  refine ⟨steps, final, System.run_of_exec (fun _ => rfl) hran, fun hkept => ?_⟩
  obtain ⟨stored, hsto, hdepr⟩ := deprecated_of_returns hkept hrets
  rw [hsto, Option.map_some, hdepr] at hst
  cases hst

/-- A write of the step finds what its call read. -/
def findsWhatItRead (step : RegistryStep scheduleDatabase) : Bool :=
  match step.2 with
  | .called i (.replicateWrite key _ _) _ =>
    match step.1.clients i with
    | some (.busy _ log _) => log.all fun
      | .read (some bytes) => decide (scheduleDatabase.records step.1.store key = some bytes)
      | _ => true
    | _ => true
  | _ => true

theorem undisturbed_of_findsWhatItRead {name : String} {step : RegistryStep scheduleDatabase}
    (h : findsWhatItRead step) : Undisturbed scheduleCodec name step := by
  rintro i operation log bytes ⟨expected, value, answer, hlabel⟩ ⟨rest, hbusy⟩ hread
  rw [findsWhatItRead, hlabel] at h
  dsimp only at h
  rw [hbusy] at h
  exact .inl (of_decide_eq_true (List.all_eq_true.mp h _ hread))

/-- The record is pinned, deprecated and touched, one call after the other. -/
def serialUpdates : List (Action NamespaceOperation) :=
  [.opened 0 (.setNamespacePlacement "orders" (.pinned {"box"}) 1), .advance 0, .advance 0,
      .advance 0, .advance 0,
    .opened 1 (.deprecateNamespace "orders"), .advance 1, .advance 1, .advance 1, .advance 1,
    .opened 2 (.registerNamespace "orders" .workerMint 1 1), .advance 2, .advance 2, .advance 2,
      .advance 2]

/-- One call after the other is undisturbed, and the updates are there. -/
theorem serial_updates_kept :
    ∃ steps final, RegistryRun scheduleDatabase ordersMinted steps final ∧
      (storedAt scheduleCodec (scheduleDatabase.records final.store) "orders").map
        (fun stored => (stored.placement, stored.state)) =
        some (.pinned {"box"}, .deprecated) ∧
          UpdatesKept scheduleCodec "orders" ordersRecord steps final := by
  have hseen : (runSchedule serialUpdates).map
    (fun ran => ((storedAt scheduleCodec (scheduleDatabase.records ran.2.store) "orders").map
      (fun stored => (stored.placement, stored.state)), ran.1.all findsWhatItRead)) =
      some (some (.pinned {"box"}, .deprecated), true) := by decide +kernel
  obtain ⟨⟨steps, final⟩, hran, hseen⟩ := Option.map_eq_some_iff.mp hseen
  obtain ⟨hsto, hfinds⟩ := Prod.mk.inj hseen
  have hrun : RegistryRun scheduleDatabase ordersMinted steps final :=
    System.run_of_exec (fun _ => rfl) hran
  have hexists : scheduleDatabase.records ordersMinted.store (namespaceKey "orders") =
      some (ordersRecord.encode scheduleCodec) := by
    decide +kernel
  refine ⟨steps, final, hrun, hsto, updates_kept_of_undisturbed scheduleCodec lawful_scheduleCodec
      scheduleDatabase
    "orders" ordersRecord ordersMinted hexists (fun _ => rfl) steps final hrun fun step hmem => ?_⟩
  exact undisturbed_of_findsWhatItRead (List.all_eq_true.mp hfinds step hmem)

end Aion.Namespaces
