import Aion.Core.Event
import Aion.Library.FiniteMaps
import Aion.Library.OrderedMap
import Aion.Library.Recency
import Mathlib.Algebra.Group.Nat.Defs

/-!
# The verdict cache of the namespace gate

The bounded least-recently-used cache of `namespace_filter.rs`: a table of verdicts by workflow, and
an order of access stamps, each with the workflow that it last touched. The clock that gives the
stamps is a `u64` that is incremented without a check; here it wraps, as it does in a release build.

Two invariants. Whatever the clock does, every stamp of the order is that of a table entry, and the
table is within its capacity (`Bounded`). As long as the clock has not wrapped, the entries and the
stamps also correspond to each other, and the workflows by descending stamps are the most recently
used ones: a hit of `get` and an `insert` are each one bounded use of the recency list
(`Paired.get_some`, `Paired.insert`).
-/

namespace Aion

open FiniteMaps Recency

/-! ### The cache -/

/-- Cached per-workflow verdict: namespace admission and recorded type. -/
structure CachedVerdict where
  permitted : Bool
  workflowType : Option String
  deriving DecidableEq

/-- A verdict with the stamp of its last access. -/
structure StampedVerdict where
  stamp : ℕ
  verdict : CachedVerdict
  deriving DecidableEq

/-- Bounded least-recently-used verdict cache. -/
structure VerdictCache where
  capacity : ℕ
  /-- The capacity is a `NonZeroUsize`. -/
  capacity_pos : 0 < capacity
  entries : Map WorkflowId StampedVerdict
  /-- The workflow that a stamp last touched. -/
  order : OrderedMap ℕ WorkflowId
  clock : ℕ

namespace VerdictCache

/-- `VerdictCache::new`. -/
def new (capacity : ℕ) (capacity_pos : 0 < capacity) : VerdictCache :=
  ⟨capacity, capacity_pos, ∅, .empty, 0⟩

/-- `next_stamp`: the clock goes on, and stands at the stamp it gives. -/
def nextStamp (cache : VerdictCache) : VerdictCache :=
  { cache with clock := (cache.clock + 1) % 2 ^ 64 }

/-- An entry that is there gets the stamp of the clock and this verdict. -/
def restamp (cache : VerdictCache) (workflowId : WorkflowId) (old : ℕ) (verdict : CachedVerdict) :
    VerdictCache :=
  { cache with
    entries := cache.entries.insert workflowId ⟨cache.clock, verdict⟩
    order := (cache.order.erase old).insert cache.clock workflowId }

/-- `get`. A miss uses up a stamp too. -/
def get (cache : VerdictCache) (workflowId : WorkflowId) : Option CachedVerdict × VerdictCache :=
  let cache := cache.nextStamp
  match cache.entries.lookup workflowId with
  | none => (none, cache)
  | some entry => (some entry.verdict, cache.restamp workflowId entry.stamp entry.verdict)

/-- The eviction of `insert`: the entry of the least stamp goes. -/
def evict (cache : VerdictCache) : VerdictCache :=
  match cache.order.first with
  | none => cache
  | some (oldest, evicted) =>
    { cache with entries := cache.entries.erase evicted, order := cache.order.erase oldest }

/-- The end of `insert`: an entry with the stamp of the clock. -/
def add (cache : VerdictCache) (workflowId : WorkflowId) (verdict : CachedVerdict) : VerdictCache :=
  { cache with
    entries := cache.entries.insert workflowId ⟨cache.clock, verdict⟩
    order := cache.order.insert cache.clock workflowId }

/-- `insert`. -/
def insert (cache : VerdictCache) (workflowId : WorkflowId) (verdict : CachedVerdict) :
    VerdictCache :=
  let cache := cache.nextStamp
  match cache.entries.lookup workflowId with
  | some existing => cache.restamp workflowId existing.stamp verdict
  | none =>
    let cache := if cache.capacity ≤ cache.entries.keys.length then cache.evict else cache
    cache.add workflowId verdict

/-- `refresh_type`. -/
def refreshType (cache : VerdictCache) (workflowId : WorkflowId) (workflowType : String) :
    VerdictCache :=
  match cache.entries.lookup workflowId with
  | none => cache
  | some entry =>
    { cache with
      entries := cache.entries.insert workflowId
        { entry with verdict := { entry.verdict with workflowType := some workflowType } } }

/-- The cached workflows, the most recently stamped first. -/
def byRecency (cache : VerdictCache) : List WorkflowId := (cache.order.entries.map Prod.snd).reverse

variable {cache : VerdictCache} {workflowId : WorkflowId} {verdict : CachedVerdict}
  {entry : StampedVerdict} {limit : ℕ}

theorem get_of_none (h : cache.entries.lookup workflowId = none) :
    cache.get workflowId = (none, cache.nextStamp) := by
  simp only [get, nextStamp, h]

theorem get_of_some (h : cache.entries.lookup workflowId = some entry) :
    cache.get workflowId = (some entry.verdict,
        cache.nextStamp.restamp workflowId entry.stamp entry.verdict) := by
  simp only [get, nextStamp, h]

theorem insert_of_some (h : cache.entries.lookup workflowId = some entry)
    (verdict : CachedVerdict) :
    cache.insert workflowId verdict = cache.nextStamp.restamp workflowId entry.stamp verdict := by
  simp only [insert, nextStamp, h]

theorem insert_of_full (h : cache.entries.lookup workflowId = none)
    (hfull : cache.capacity ≤ cache.entries.keys.length) (verdict : CachedVerdict) :
    cache.insert workflowId verdict = cache.nextStamp.evict.add workflowId verdict := by
  have hlook : cache.nextStamp.entries.lookup workflowId = none := h
  have hlen : cache.nextStamp.capacity ≤ cache.nextStamp.entries.keys.length := hfull
  simp only [insert, hlook, if_pos hlen]

theorem insert_of_room (h : cache.entries.lookup workflowId = none)
    (hroom : cache.entries.keys.length < cache.capacity) (verdict : CachedVerdict) :
    cache.insert workflowId verdict = cache.nextStamp.add workflowId verdict := by
  have hlook : cache.nextStamp.entries.lookup workflowId = none := h
  have hlen : ¬ cache.nextStamp.capacity ≤ cache.nextStamp.entries.keys.length := hroom.not_ge
  simp only [insert, hlook, if_neg hlen]

/-- All that `insert` can do. -/
theorem insert_cases (cache : VerdictCache) (workflowId : WorkflowId) (verdict : CachedVerdict) :
    (∃ existing, cache.entries.lookup workflowId = some existing ∧
      cache.insert workflowId verdict = cache.nextStamp.restamp workflowId existing.stamp verdict) ∨
    (cache.entries.lookup workflowId = none ∧ cache.capacity ≤ cache.entries.keys.length ∧
      cache.insert workflowId verdict = cache.nextStamp.evict.add workflowId verdict) ∨
    (cache.entries.lookup workflowId = none ∧ cache.entries.keys.length < cache.capacity ∧
      cache.insert workflowId verdict = cache.nextStamp.add workflowId verdict) := by
  cases hlook : cache.entries.lookup workflowId with
  | some existing => exact .inl ⟨existing, rfl, insert_of_some hlook verdict⟩
  | none =>
    rcases le_or_gt cache.capacity cache.entries.keys.length with hfull | hroom
    · exact .inr (.inl ⟨rfl, hfull, insert_of_full hlook hfull verdict⟩)
    · exact .inr (.inr ⟨rfl, hroom, insert_of_room hlook hroom verdict⟩)

/-- The second table is the first with this entry of the workflow. -/
structure Puts (cache cache' : VerdictCache) (workflowId : WorkflowId) (entry : StampedVerdict) :
    Prop where
  lookup : ∀ other, cache'.entries.lookup other = if other = workflowId then some entry else
    cache.entries.lookup other

theorem puts_restamp (cache : VerdictCache) (workflowId : WorkflowId) (old : ℕ)
    (verdict : CachedVerdict) :
    Puts cache (cache.restamp workflowId old verdict) workflowId ⟨cache.clock, verdict⟩ :=
  ⟨fun _ => lookup_insert_eq workflowId _⟩

theorem puts_add (cache : VerdictCache) (workflowId : WorkflowId) (verdict : CachedVerdict) :
    Puts cache (cache.add workflowId verdict) workflowId ⟨cache.clock, verdict⟩ :=
  ⟨fun _ => lookup_insert_eq workflowId _⟩

variable {cache' : VerdictCache} {use : ℕ × WorkflowId} {other : WorkflowId}

/-- An entry of the second table is the one put in, or one of the first. -/
theorem Puts.cases {entry' : StampedVerdict} (h : Puts cache cache' workflowId entry)
    (hent' : cache'.entries.lookup other = some entry') :
    other = workflowId ∧ entry' = entry ∨ other ≠ workflowId ∧
      cache.entries.lookup other = some entry' := by
  rw [h.lookup other] at hent'
  split at hent'
  · rename_i heq
    exact .inl ⟨heq, (Option.some.inj hent').symm⟩
  · rename_i hne
    exact .inr ⟨hne, hent'⟩

/-- An eviction leaves what it leaves as it was. -/
theorem lookup_of_lookup_evict (h : cache.evict.entries.lookup workflowId = some entry) :
    cache.entries.lookup workflowId = some entry := by
  unfold evict at h
  split at h
  · exact h
  · rw [lookup_erase_eq] at h
    split at h
    · cases h
    · exact h

theorem mem_keys_iff :
    workflowId ∈ cache.entries.keys ↔ (cache.entries.lookup workflowId).isSome := by
  rw [← AList.mem_keys, AList.lookup_isSome]

theorem mem_keys_of_lookup (h : cache.entries.lookup workflowId = some entry) :
    workflowId ∈ cache.entries.keys := by
  rw [mem_keys_iff, h]
  rfl

theorem length_keys_insert_of_mem (h : cache.entries.lookup workflowId = some entry)
    (entry' : StampedVerdict) :
    (cache.entries.insert workflowId entry').keys.length = cache.entries.keys.length := by
  have hmem := mem_keys_of_lookup h
  have hpos := List.length_pos_of_mem hmem
  rw [AList.keys_insert, List.length_cons, List.length_erase_of_mem hmem]
  omega

/-! ### Whatever the clock does -/

/-- Every stamp of the order is that of a table entry. -/
def Stamped (cache : VerdictCache) : Prop :=
  ∀ use ∈ cache.order.entries, ∃ verdict, cache.entries.lookup use.2 = some ⟨use.1, verdict⟩

/-- The table is within its capacity, and can be evicted from. -/
structure Bounded (cache : VerdictCache) : Prop where
  stamped : cache.Stamped
  size : cache.entries.keys.length ≤ cache.capacity
  evictable : cache.entries.keys ≠ [] → cache.order.entries ≠ []

theorem bounded_new (capacity : ℕ) (capacity_pos : 0 < capacity) :
    (new capacity capacity_pos).Bounded where
  stamped := by simp [Stamped, new, OrderedMap.empty]
  size := by simp [new]
  evictable := by simp [new]

theorem Bounded.nextStamp (h : cache.Bounded) : cache.nextStamp.Bounded :=
  ⟨h.stamped, h.size, h.evictable⟩

/-- One entry put in, with its stamp in the place of the workflow's earlier one. -/
theorem Stamped.put (h : cache.Stamped) (hputs : Puts cache cache' workflowId entry)
    (horder : ∀ use ∈ cache'.order.entries, use = (entry.stamp, workflowId) ∨
        use ∈ cache.order.entries ∧ use.2 ≠ workflowId) : cache'.Stamped := by
  intro use huse
  rw [hputs.lookup use.2]
  rcases horder use huse with rfl | ⟨huse, hne⟩
  · exact ⟨entry.verdict, if_pos rfl⟩
  · rw [if_neg hne]
    exact h use huse

/-- The uses of a cached workflow have the stamp of its entry. -/
theorem Stamped.stamp_eq (h : cache.Stamped) (huse : use ∈ cache.order.entries)
    (hent : cache.entries.lookup use.2 = some entry) : use.1 = entry.stamp := by
  obtain ⟨verdict, hlook⟩ := h use huse
  rw [hent] at hlook
  exact (congrArg StampedVerdict.stamp (Option.some.inj hlook)).symm

theorem Stamped.restamp (h : cache.Stamped) (hent : cache.entries.lookup workflowId = some entry) :
    (cache.restamp workflowId entry.stamp verdict).Stamped := by
  refine h.put (puts_restamp ..) fun use huse =>
    (OrderedMap.mem_insert.mp huse).imp_right fun hkept => ?_
  obtain ⟨hmem, hold⟩ := OrderedMap.mem_erase.mp hkept.1
  refine ⟨hmem, ?_⟩
  rintro rfl
  exact hold (h.stamp_eq hmem hent)

theorem Stamped.add (h : cache.Stamped) (hnone : cache.entries.lookup workflowId = none) :
    (cache.add workflowId verdict).Stamped := by
  refine h.put (puts_add ..) fun use huse => (OrderedMap.mem_insert.mp huse).imp_right fun hkept =>
    ⟨hkept.1, ?_⟩
  rintro rfl
  obtain ⟨verdict', hlook⟩ := h use hkept.1
  rw [hnone] at hlook
  cases hlook

/-- What is evicted, where there is something to evict. -/
theorem evict_eq {oldest : ℕ × WorkflowId} {rest : List (ℕ × WorkflowId)}
    (h : cache.order.entries = oldest :: rest) :
    cache.evict = { cache with
      entries := cache.entries.erase oldest.2, order := cache.order.erase oldest.1 } := by
  have hfst : cache.order.first = some oldest := by
    rw [OrderedMap.first, h]
    rfl
  rw [evict, hfst]

theorem Stamped.evict (h : cache.Stamped) : cache.evict.Stamped := by
  cases horder : cache.order.entries with
  | nil =>
    have hnone : cache.evict = cache := by
      simp [VerdictCache.evict, OrderedMap.first, horder]
    rwa [hnone]
  | cons oldest rest =>
    rw [evict_eq horder]
    intro use huse
    obtain ⟨huse, hne⟩ := OrderedMap.mem_erase.mp huse
    obtain ⟨verdict, hlook⟩ := h use huse
    obtain ⟨verdict', holdest⟩ := h oldest (by simp [horder])
    refine ⟨verdict, ?_⟩
    rw [lookup_erase_eq, if_neg, hlook]
    -- the evicted workflow has one stamp
    intro heq
    exact hne (h.stamp_eq huse (heq ▸ holdest))

/-- An eviction makes room for one. -/
theorem Bounded.length_evict (h : cache.Bounded) (hfull : cache.entries.keys ≠ []) :
    cache.evict.entries.keys.length + 1 = cache.entries.keys.length := by
  obtain ⟨oldest, rest, horder⟩ := List.exists_cons_of_ne_nil (h.evictable hfull)
  obtain ⟨verdict, holdest⟩ := h.stamped oldest (by simp [horder])
  have hmem := mem_keys_of_lookup holdest
  have hpos := List.length_pos_of_mem hmem
  rw [evict_eq horder]
  show (cache.entries.erase oldest.2).keys.length + 1 = _
  rw [AList.keys_erase, List.length_erase_of_mem hmem]
  omega

theorem Bounded.restamp (h : cache.Bounded) (hent : cache.entries.lookup workflowId = some entry) :
    (cache.restamp workflowId entry.stamp verdict).Bounded where
  stamped := h.stamped.restamp hent
  size := (length_keys_insert_of_mem hent _).trans_le h.size
  evictable := fun _ => List.ne_nil_of_mem (OrderedMap.mem_insert.mpr (.inl rfl))

theorem Bounded.add (h : cache.Stamped) (hroom : cache.entries.keys.length < cache.capacity)
    (hnone : cache.entries.lookup workflowId = none) : (cache.add workflowId verdict).Bounded where
  stamped := h.add hnone
  size := by
    show (cache.entries.insert workflowId _).keys.length ≤ cache.capacity
    rw [AList.keys_insert, List.length_cons, List.erase_of_not_mem (by simp [mem_keys_iff, hnone])]
    exact hroom
  evictable := fun _ => List.ne_nil_of_mem (OrderedMap.mem_insert.mpr (.inl rfl))

theorem Bounded.get (h : cache.Bounded) (workflowId : WorkflowId) :
    (cache.get workflowId).2.Bounded := by
  cases hlook : cache.entries.lookup workflowId with
  | none =>
    rw [get_of_none hlook]
    exact h.nextStamp
  | some entry =>
    rw [get_of_some hlook]
    exact h.nextStamp.restamp hlook

theorem capacity_evict (cache : VerdictCache) : cache.evict.capacity = cache.capacity := by
  unfold evict
  split <;> rfl

theorem lookup_evict_eq_none (h : cache.entries.lookup workflowId = none) :
    cache.evict.entries.lookup workflowId = none := by
  rw [Option.eq_none_iff_forall_ne_some] at h ⊢
  exact fun entry hent => h entry (lookup_of_lookup_evict hent)

theorem Bounded.insert (h : cache.Bounded) (workflowId : WorkflowId) (verdict : CachedVerdict) :
    (cache.insert workflowId verdict).Bounded := by
  rcases insert_cases cache workflowId verdict with ⟨existing, hlook, heq⟩ | ⟨hlook, hfull,
    heq⟩ | ⟨hlook, hroom, heq⟩
  · rw [heq]
    exact h.nextStamp.restamp hlook
  · have hlen :=
      h.nextStamp.length_evict (List.ne_nil_of_length_pos (cache.capacity_pos.trans_le hfull))
    have hsize := h.nextStamp.size
    rw [heq]
    apply Bounded.add h.nextStamp.stamped.evict _ (lookup_evict_eq_none hlook)
    rw [capacity_evict]
    omega
  · rw [heq]
    exact .add h.nextStamp.stamped hroom hlook

theorem refreshType_of_none (h : cache.entries.lookup workflowId = none) (workflowType : String) :
    cache.refreshType workflowId workflowType = cache := by
  simp only [refreshType, h]

theorem refreshType_of_some (h : cache.entries.lookup workflowId = some entry)
    (workflowType : String) :
    cache.refreshType workflowId workflowType =
      { cache with
        entries := cache.entries.insert workflowId
          ⟨entry.stamp, { entry.verdict with workflowType := some workflowType }⟩ } := by
  simp only [refreshType, h]

theorem puts_refreshType (h : cache.entries.lookup workflowId = some entry)
    (workflowType : String) :
    Puts cache (cache.refreshType workflowId workflowType) workflowId
      ⟨entry.stamp, { entry.verdict with workflowType := some workflowType }⟩ := by
  rw [refreshType_of_some h]
  exact ⟨fun _ => lookup_insert_eq workflowId _⟩

/-- A refreshed type leaves the stamps as they are. -/
theorem refreshType_fields (cache : VerdictCache) (workflowId : WorkflowId)
    (workflowType : String) :
    (cache.refreshType workflowId workflowType).order = cache.order ∧
    (cache.refreshType workflowId workflowType).clock = cache.clock ∧
    (cache.refreshType workflowId workflowType).capacity = cache.capacity := by
  unfold refreshType
  split <;> exact ⟨rfl, rfl, rfl⟩

theorem Bounded.refreshType (h : cache.Bounded) (workflowId : WorkflowId) (workflowType : String) :
    (cache.refreshType workflowId workflowType).Bounded := by
  cases hlook : cache.entries.lookup workflowId with
  | none => rwa [refreshType_of_none hlook]
  | some entry =>
    refine ⟨h.stamped.put (puts_refreshType hlook workflowType) fun use huse => ?_, ?_, fun _ => ?_⟩
    · rw [(refreshType_fields ..).1] at huse
      by_cases heq : use.2 = workflowId
      · exact .inl (Prod.ext (h.stamped.stamp_eq huse (heq ▸ hlook)) heq)
      · exact .inr ⟨huse, heq⟩
    · rw [refreshType_of_some hlook]
      exact (length_keys_insert_of_mem hlook _).trans_le h.size
    · rw [(refreshType_fields ..).1]
      exact h.evictable (List.ne_nil_of_mem (mem_keys_of_lookup hlook))

/-! ### What the cache knows -/

/-- Every cached verdict is as it should be. -/
def Holds (good : WorkflowId → CachedVerdict → Prop) (cache : VerdictCache) : Prop :=
  ∀ workflowId entry, cache.entries.lookup workflowId = some entry → good workflowId entry.verdict

variable {good : WorkflowId → CachedVerdict → Prop}

theorem holds_new (capacity : ℕ) (capacity_pos : 0 < capacity) :
    (new capacity capacity_pos).Holds good := by
  intro workflowId entry hent
  cases hent

theorem Holds.put (h : cache.Holds good) (hputs : Puts cache cache' workflowId entry)
    (hgood : good workflowId entry.verdict) : cache'.Holds good := by
  intro other entry' hent'
  rcases hputs.cases hent' with ⟨rfl, rfl⟩ | ⟨-, hent⟩
  · exact hgood
  · exact h other entry' hent

theorem Holds.evict (h : cache.Holds good) : cache.evict.Holds good :=
  fun other entry hent => h other entry (lookup_of_lookup_evict hent)

theorem Holds.nextStamp (h : cache.Holds good) : cache.nextStamp.Holds good := h

theorem Holds.get (h : cache.Holds good) (workflowId : WorkflowId) :
    (cache.get workflowId).2.Holds good := by
  cases hlook : cache.entries.lookup workflowId with
  | none =>
    rw [get_of_none hlook]
    exact h.nextStamp
  | some entry =>
    rw [get_of_some hlook]
    exact h.nextStamp.put (puts_restamp ..) (h workflowId entry hlook)

theorem Holds.insert (h : cache.Holds good) (hgood : good workflowId verdict) :
    (cache.insert workflowId verdict).Holds good := by
  rcases insert_cases cache workflowId verdict with ⟨existing, -, heq⟩ | ⟨-, -, heq⟩ | ⟨-, -,
    heq⟩ <;> rw [heq]
  · exact h.nextStamp.put (puts_restamp ..) hgood
  · exact h.nextStamp.evict.put (puts_add ..) hgood
  · exact h.nextStamp.put (puts_add ..) hgood

theorem Holds.refreshType (h : cache.Holds good)
    (htype : ∀ entry, cache.entries.lookup workflowId = some entry → ∀ workflowType,
        good workflowId { entry.verdict with workflowType := workflowType })
    (workflowType : String) : (cache.refreshType workflowId workflowType).Holds good := by
  cases hlook : cache.entries.lookup workflowId with
  | none => rwa [refreshType_of_none hlook]
  | some entry => exact h.put (puts_refreshType hlook workflowType) (htype entry hlook _)

theorem capacity_get (cache : VerdictCache) (workflowId : WorkflowId) :
    (cache.get workflowId).2.capacity = cache.capacity := by
  cases hlook : cache.entries.lookup workflowId with
  | none => rw [get_of_none hlook]; rfl
  | some entry => rw [get_of_some hlook]; rfl

theorem capacity_insert (cache : VerdictCache) (workflowId : WorkflowId) (verdict : CachedVerdict) :
    (cache.insert workflowId verdict).capacity = cache.capacity := by
  rcases insert_cases cache workflowId verdict with ⟨existing, -, heq⟩ | ⟨-, -, heq⟩ | ⟨-, -,
    heq⟩ <;> rw [heq]
  · rfl
  · exact capacity_evict cache.nextStamp
  · rfl

/-! ### Before the clock wraps -/

/-- The entries and the stamps correspond, and the stamps are below this limit. -/
structure Paired (limit : ℕ) (cache : VerdictCache) : Prop extends cache.Bounded where
  indexed : ∀ workflowId entry, cache.entries.lookup workflowId = some entry →
    (entry.stamp, workflowId) ∈ cache.order.entries
  below : ∀ use ∈ cache.order.entries, use.1 < limit

theorem paired_new (capacity : ℕ) (capacity_pos : 0 < capacity) :
    (new capacity capacity_pos).Paired 1 where
  toBounded := bounded_new capacity capacity_pos
  indexed := fun _ _ hent => by cases hent
  below := fun _ huse => by cases huse

/-- The stamps and the entries are in one-to-one correspondence. -/
theorem Paired.mem_order_iff (h : cache.Paired limit) (stamp : ℕ) :
    (stamp, workflowId) ∈ cache.order.entries ↔
      ∃ verdict, cache.entries.lookup workflowId = some ⟨stamp, verdict⟩ :=
  ⟨fun huse => h.stamped _ huse, fun ⟨_, hent⟩ => h.indexed _ _ hent⟩

theorem Stamped.eq_of_snd (h : cache.Stamped) {use' : ℕ × WorkflowId}
    (huse : use ∈ cache.order.entries) (huse' : use' ∈ cache.order.entries) (heq : use.2 = use'.2) :
    use = use' := by
  obtain ⟨verdict, hent⟩ := h use' huse'
  exact Prod.ext (h.stamp_eq huse (heq ▸ hent)) heq

theorem Stamped.nodup_byRecency (h : cache.Stamped) : cache.byRecency.Nodup := by
  have hnd : cache.order.entries.Nodup :=
    cache.order.ascending.imp fun hlt heq => by simp [heq] at hlt
  exact List.nodup_reverse.mpr (hnd.map_on fun use huse use' huse' heq =>
      h.eq_of_snd huse huse' heq)

theorem Paired.mem_byRecency (h : cache.Paired limit) :
    workflowId ∈ cache.byRecency ↔ (cache.entries.lookup workflowId).isSome := by
  rw [byRecency, List.mem_reverse, List.mem_map, Option.isSome_iff_exists]
  constructor
  · rintro ⟨use, huse, rfl⟩
    obtain ⟨verdict, hent⟩ := h.stamped use huse
    exact ⟨_, hent⟩
  · rintro ⟨entry, hent⟩
    exact ⟨_, h.indexed _ _ hent, rfl⟩

theorem Paired.length_byRecency (h : cache.Paired limit) :
    cache.byRecency.length = cache.entries.keys.length := by
  have hperm := (List.perm_ext_iff_of_nodup h.stamped.nodup_byRecency cache.entries.keys_nodup).mpr fun workflowId =>
    h.mem_byRecency.trans mem_keys_iff.symm
  exact hperm.length_eq

theorem Paired.nextStamp (h : cache.Paired limit) : cache.nextStamp.Paired limit :=
  ⟨h.toBounded.nextStamp, h.indexed, h.below⟩

/-- One entry put in, with its stamp. -/
theorem Paired.put {limit' : ℕ} (h : cache.Paired limit) (hbdd : cache'.Bounded)
    (hputs : Puts cache cache' workflowId entry)
    (hself : (entry.stamp, workflowId) ∈ cache'.order.entries)
    (hoths : ∀ use ∈ cache.order.entries, use.2 ≠ workflowId → use ∈ cache'.order.entries)
    (hbelow : ∀ use ∈ cache'.order.entries, use.1 < limit') : cache'.Paired limit' where
  toBounded := hbdd
  indexed := by
    intro other entry' hent'
    rcases hputs.cases hent' with ⟨rfl, rfl⟩ | ⟨hne, hent⟩
    · exact hself
    · exact hoths _ (h.indexed other entry' hent) hne
  below := hbelow

/-- An access to a cached workflow: its stamp is the last, the others stand as they did. -/
theorem Paired.restamp (h : cache.Paired cache.clock)
    (hent : cache.entries.lookup workflowId = some entry) :
    (cache.restamp workflowId entry.stamp verdict).Paired (cache.clock + 1) := by
  refine h.put (h.toBounded.restamp hent) (puts_restamp ..)
    (OrderedMap.mem_insert.mpr (.inl rfl)) ?_ ?_
  · intro use huse hne
    refine OrderedMap.mem_insert.mpr (.inr ⟨OrderedMap.mem_erase.mpr ⟨huse, fun hstamp => hne ?_⟩, (h.below use huse).ne⟩)
    exact congrArg Prod.snd (OrderedMap.eq_of_mem huse (h.indexed workflowId entry hent) hstamp)
  · intro use huse
    rcases OrderedMap.mem_insert.mp huse with rfl | ⟨huse, -⟩
    · exact Nat.lt_succ_self _
    · exact (h.below use (OrderedMap.mem_erase.mp huse).1).trans (Nat.lt_succ_self _)

theorem Paired.byRecency_restamp (h : cache.Paired cache.clock)
    (hent : cache.entries.lookup workflowId = some entry) :
    (cache.restamp workflowId entry.stamp verdict).byRecency =
      touch cache.byRecency workflowId := by
  have hlast : ∀ use ∈ (cache.order.erase entry.stamp).entries, use.1 < cache.clock :=
    fun use huse => h.below use (OrderedMap.mem_erase.mp huse).1
  -- the stamp that goes is the one of the workflow
  have herase : (cache.order.erase entry.stamp).entries = cache.order.entries.filter fun use => use.2 != workflowId := by
    refine List.filter_congr fun use huse => ?_
    have hstamp : use.1 = entry.stamp ↔ use.2 = workflowId := by
      have hold := h.indexed workflowId entry hent
      exact ⟨fun heq => congrArg Prod.snd (OrderedMap.eq_of_mem huse hold heq),
        fun heq => congrArg Prod.fst (h.stamped.eq_of_snd huse hold heq)⟩
    rw [Bool.eq_iff_iff]
    simp [hstamp]
  show (((cache.order.erase entry.stamp).insert cache.clock workflowId).entries.map
      Prod.snd).reverse = _
  rw [OrderedMap.entries_insert_of_lt workflowId hlast, herase, touch,
    h.stamped.nodup_byRecency.erase_eq_filter, byRecency]
  simp [List.filter_map, List.filter_reverse, Function.comp_def]

theorem Paired.add (h : cache.Paired cache.clock)
    (hroom : cache.entries.keys.length < cache.capacity)
    (hnone : cache.entries.lookup workflowId = none) :
    (cache.add workflowId verdict).Paired (cache.clock + 1) := by
  refine h.put (.add h.stamped hroom hnone) (puts_add ..)
    (OrderedMap.mem_insert.mpr (.inl rfl)) ?_ ?_
  · exact fun use huse _ => OrderedMap.mem_insert.mpr (.inr ⟨huse, (h.below use huse).ne⟩)
  · intro use huse
    rcases OrderedMap.mem_insert.mp huse with rfl | ⟨huse, -⟩
    · exact Nat.lt_succ_self _
    · exact (h.below use huse).trans (Nat.lt_succ_self _)

theorem Paired.byRecency_add (h : cache.Paired cache.clock) :
    (cache.add workflowId verdict).byRecency = workflowId :: cache.byRecency := by
  show ((cache.order.insert cache.clock workflowId).entries.map Prod.snd).reverse = _
  rw [OrderedMap.entries_insert_of_lt workflowId h.below, List.map_append, List.reverse_append]
  rfl

theorem Paired.evict (h : cache.Paired limit) (hfull : cache.entries.keys ≠ []) :
    cache.evict.Paired limit := by
  obtain ⟨oldest, rest, horder⟩ := List.exists_cons_of_ne_nil (h.evictable hfull)
  have hindexed : ∀ other entry, cache.evict.entries.lookup other = some entry →
      (entry.stamp, other) ∈ cache.evict.order.entries := by
    intro other entry hent
    have huse := h.indexed other entry (lookup_of_lookup_evict hent)
    rw [evict_eq horder] at hent ⊢
    refine OrderedMap.mem_erase.mpr ⟨huse, fun hstamp => ?_⟩
    have heq : other = oldest.2 :=
      congrArg Prod.snd (OrderedMap.eq_of_mem huse (by simp [horder]) hstamp)
    rw [heq, AList.lookup_erase] at hent
    cases hent
  refine ⟨⟨h.stamped.evict, ?_, fun hkeys => ?_⟩, hindexed, ?_⟩
  · have hlen := h.length_evict hfull
    have hsize := h.size
    rw [capacity_evict]
    omega
  · obtain ⟨other, hother⟩ := List.exists_mem_of_ne_nil _ hkeys
    obtain ⟨entry, hent⟩ := Option.isSome_iff_exists.mp (mem_keys_iff.mp hother)
    exact List.ne_nil_of_mem (hindexed other entry hent)
  · rw [evict_eq horder]
    exact fun use huse => h.below use (OrderedMap.mem_erase.mp huse).1

theorem clock_evict (cache : VerdictCache) : cache.evict.clock = cache.clock := by
  unfold evict
  split <;> rfl

theorem Bounded.byRecency_evict (h : cache.Bounded) (hfull : cache.entries.keys ≠ []) :
    cache.evict.byRecency = cache.byRecency.dropLast := by
  obtain ⟨oldest, rest, horder⟩ := List.exists_cons_of_ne_nil (h.evictable hfull)
  rw [evict_eq horder]
  show ((cache.order.erase oldest.1).entries.map Prod.snd).reverse = _
  rw [OrderedMap.entries_erase_first horder, byRecency, horder, List.map_cons, List.reverse_cons,
    List.dropLast_concat]

/-- The clock, where it does not wrap. -/
theorem clock_nextStamp (h : cache.clock + 1 < 2 ^ 64) : cache.nextStamp.clock = cache.clock + 1 :=
  Nat.mod_eq_of_lt h

/-- Before an access is stamped, all the stamps are below the clock. -/
theorem Paired.below_nextStamp (h : cache.Paired (cache.clock + 1))
    (hclock : cache.clock + 1 < 2 ^ 64) : cache.nextStamp.Paired cache.nextStamp.clock := by
  rw [clock_nextStamp hclock]
  exact h.nextStamp

/-- What an operation makes of a paired cache: the clock is at its stamp, and these are the cached
workflows. -/
structure Uses (cache cache' : VerdictCache) (workflows : List WorkflowId) : Prop where
  paired : cache'.Paired (cache'.clock + 1)
  clock : cache'.clock = cache.clock + 1
  capacity : cache'.capacity = cache.capacity
  byRecency : cache'.byRecency = workflows

/-- A miss of `get` uses nothing. -/
theorem Paired.get_none (h : cache.Paired (cache.clock + 1)) (hclock : cache.clock + 1 < 2 ^ 64)
    (hnone : cache.entries.lookup workflowId = none) :
    Uses cache (cache.get workflowId).2 cache.byRecency := by
  rw [get_of_none hnone]
  refine ⟨⟨h.toBounded.nextStamp, h.indexed, fun use huse => ?_⟩, clock_nextStamp hclock, rfl, rfl⟩
  have hbelow := h.below use huse
  rw [clock_nextStamp hclock]
  omega

theorem Paired.use_restamp (h : cache.Paired (cache.clock + 1)) (hclock : cache.clock + 1 < 2 ^ 64)
    (hent : cache.entries.lookup workflowId = some entry) :
    Uses cache (cache.nextStamp.restamp workflowId entry.stamp verdict)
      (touchWithin cache.capacity cache.byRecency workflowId) := by
  have hnext := h.below_nextStamp hclock
  have hcached : workflowId ∈ cache.byRecency := h.mem_byRecency.mpr (by simp [hent])
  refine ⟨hnext.restamp hent, clock_nextStamp hclock, rfl, ?_⟩
  rw [hnext.byRecency_restamp hent, touchWithin_of_mem hcached (h.length_byRecency.trans_le h.size)]
  rfl

/-- A hit of `get` is a use. -/
theorem Paired.get_some (h : cache.Paired (cache.clock + 1)) (hclock : cache.clock + 1 < 2 ^ 64)
    (hent : cache.entries.lookup workflowId = some entry) :
    Uses cache (cache.get workflowId).2
      (touchWithin cache.capacity cache.byRecency workflowId) := by
  rw [get_of_some hent]
  exact h.use_restamp hclock hent

/-- So is `insert`. -/
theorem Paired.insert (h : cache.Paired (cache.clock + 1)) (hclock : cache.clock + 1 < 2 ^ 64)
    (workflowId : WorkflowId) (verdict : CachedVerdict) :
    Uses cache (cache.insert workflowId verdict)
      (touchWithin cache.capacity cache.byRecency workflowId) := by
  have hnext := h.below_nextStamp hclock
  have hnew (hlook : cache.entries.lookup workflowId = none) : workflowId ∉ cache.byRecency := by
    simp [h.mem_byRecency, hlook]
  rcases insert_cases cache workflowId verdict with ⟨existing, hlook, heq⟩ | ⟨hlook, hfull,
    heq⟩ | ⟨hlook, hroom, heq⟩ <;>
    rw [heq]
  · exact h.use_restamp hclock hlook
  · have hkeys : cache.nextStamp.entries.keys ≠ [] :=
      List.ne_nil_of_length_pos (cache.capacity_pos.trans_le hfull)
    have hevicted : cache.nextStamp.evict.Paired cache.nextStamp.evict.clock := by
      rw [clock_evict]
      exact hnext.evict hkeys
    have hroom : cache.nextStamp.evict.entries.keys.length < cache.nextStamp.evict.capacity := by
      have hlen := hnext.length_evict hkeys
      have hsize := hnext.size
      rw [capacity_evict]
      omega
    have hlen : cache.byRecency.length = cache.capacity :=
      h.length_byRecency.trans (h.size.antisymm hfull)
    refine ⟨hevicted.add hroom (lookup_evict_eq_none hlook), ?_, capacity_evict _, ?_⟩
    · exact (clock_evict _).trans (clock_nextStamp hclock)
    · rw [hevicted.byRecency_add, hnext.byRecency_evict hkeys, touchWithin_of_full (hnew hlook) hlen cache.capacity_pos]
      rfl
  · refine ⟨hnext.add hroom hlook, clock_nextStamp hclock, rfl, ?_⟩
    rw [hnext.byRecency_add, touchWithin_of_room (hnew hlook) (h.length_byRecency.trans_lt hroom)]
    rfl

theorem Paired.refreshType (h : cache.Paired limit) (workflowId : WorkflowId)
    (workflowType : String) : (cache.refreshType workflowId workflowType).Paired limit := by
  cases hlook : cache.entries.lookup workflowId with
  | none => rwa [refreshType_of_none hlook]
  | some entry =>
    have horder := (refreshType_fields cache workflowId workflowType).1
    apply h.put (h.toBounded.refreshType workflowId workflowType)
      (puts_refreshType hlook workflowType) <;> rw [horder]
    · exact h.indexed workflowId entry hlook
    · exact fun use huse _ => huse
    · exact h.below

/-! ### When the clock wraps -/

/-- A workflow that comes into a full cache with the stamp zero is the next to go. -/
theorem Bounded.newest_evicted (h : cache.Bounded)
    (hfull : cache.capacity ≤ cache.entries.keys.length) (hclock : cache.nextStamp.clock = 0)
    (hnew : cache.entries.lookup workflowId = none) (hother : cache.entries.lookup other = none)
    (hne : workflowId ≠ other) (verdict' : CachedVerdict) :
    ((cache.insert workflowId verdict).insert other verdict').entries.lookup workflowId = none := by
  have hkeys : cache.nextStamp.entries.keys ≠ [] :=
    List.ne_nil_of_length_pos (cache.capacity_pos.trans_le hfull)
  obtain ⟨oldest, rest, horder⟩ := List.exists_cons_of_ne_nil (h.nextStamp.evictable hkeys)
  have hrest : cache.nextStamp.evict.order.entries = rest := by
    rw [evict_eq horder]
    exact OrderedMap.entries_erase_first horder
  have hpositive : ∀ use ∈ rest, 0 < use.1 := fun use huse => by
    have hlt := (List.pairwise_cons.mp (horder ▸ cache.nextStamp.order.ascending)).1 use huse
    omega
  -- the stamp zero comes before all others
  have hfst : (cache.insert workflowId verdict).order.entries = (0, workflowId) :: rest := by
    rw [insert_of_full hnew hfull]
    show OrderedMap.insertEntry cache.nextStamp.evict.clock workflowId
      cache.nextStamp.evict.order.entries = _
    rw [hrest, clock_evict, hclock]
    cases rest with
    | nil => rfl
    | cons use rest => rw [OrderedMap.insertEntry, if_pos (hpositive use List.mem_cons_self)]
  have hsome : (cache.insert workflowId verdict).entries.lookup other = none := by
    rw [insert_of_full hnew hfull, (puts_add ..).lookup, if_neg hne.symm]
    exact lookup_evict_eq_none hother
  have hagain : (cache.insert workflowId verdict).capacity ≤ (cache.insert workflowId verdict).entries.keys.length := by
    have hlen := h.nextStamp.length_evict hkeys
    rw [capacity_insert, insert_of_full hnew hfull]
    show _ ≤ (cache.nextStamp.evict.entries.insert workflowId _).keys.length
    have hnone : cache.nextStamp.evict.entries.lookup workflowId = none := lookup_evict_eq_none hnew
    rw [AList.keys_insert, List.length_cons,
      List.erase_of_not_mem (by simp [mem_keys_iff, hnone]), hlen]
    exact hfull
  have hnext : (cache.insert workflowId verdict).nextStamp.order.entries = (0, workflowId) :: rest := hfst
  rw [insert_of_full hsome hagain, (puts_add ..).lookup, if_neg hne, evict_eq hnext]
  exact AList.lookup_erase _ _

end VerdictCache

end Aion
