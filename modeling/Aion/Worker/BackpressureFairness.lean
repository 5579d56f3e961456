import Aion.Worker.Backpressure

/-!
# Fairness of the sweep

A slice goes to each namespace in turn, rounded up, out of one budget; within a namespace it is
dealt over the routes, and what a late route leaves of its share goes to no earlier one. So a
namespace may get less than an even part of the batch (`not_fair_threeNamespaces`).

`dealt` follows the rows: the routes come in the order listed, and a row that several of them admit
is the first one's that comes to it and has room. A sweep is fair when the first pass deals every
namespace what it is owed (`SharesSuffice`). It can only be fair otherwise where a share capped a
route in vain and left some of the batch to the second pass (`fair_sweeps`).

The rows that are due are taken to be due for the whole sweep (`Steady`).
-/

namespace Aion

open Interleaving OutboxTable

/-! ### Dealing out an allocation -/

/-- The first rows, in the order of the claim, that a route admits. -/
def firstAdmitted (route : ClaimScope) (limit : ℕ) (rows : List OutboxRow) : List OutboxRow :=
  ((rows.filter route.admits).insertionSort claimOrder).take limit

/-- The share of a route, with `left` routes to go. -/
def shareOf (left remaining : ℕ) : ℕ := min (max (divCeil remaining left) 1) remaining

/-- The rows that stay when a route has its share. -/
def afterRoute (route : ClaimScope) (left remaining : ℕ) (rows : List OutboxRow) : List OutboxRow :=
  rows.filter fun row => row ∉ firstAdmitted route (shareOf left remaining) rows

/-- What the rows taken leave of an allocation. -/
def roomAfter (remaining : ℕ) (rows rows' : List OutboxRow) : ℕ :=
  remaining - (rows.length - rows'.length)

/-- The rows that stay when every route, as listed, has had its share of what remains. -/
def dealt : List ClaimScope → ℕ → ℕ → List OutboxRow → List OutboxRow
  | [], _, _, rows => rows
  | route :: rest, left, remaining, rows =>
    let rows' := afterRoute route left remaining rows
    dealt rest (max (left - 1) 1) (roomAfter remaining rows rows') rows'

/-- The share caps a route in vain: it leaves a row that no later route admits, and the later routes
admit fewer rows than what remains for them. -/
def CappedInVain (route : ClaimScope) (rest : List ClaimScope) (left remaining : ℕ)
    (rows : List OutboxRow) : Prop :=
  let rows' := afterRoute route left remaining rows
  (rows'.countP fun row => rest.any (·.admits row)) < roomAfter remaining rows rows' ∧
    ∃ row ∈ rows', route.admits row ∧ ¬ rest.any (·.admits row)

/-- No route is capped in vain. -/
def NoneCapped : List ClaimScope → ℕ → ℕ → List OutboxRow → Prop
  | [], _, _, _ => True
  | route :: rest, left, remaining, rows =>
    let rows' := afterRoute route left remaining rows
    ¬ CappedInVain route rest left remaining rows ∧
      NoneCapped rest (max (left - 1) 1) (roomAfter remaining rows rows') rows'

instance (route : ClaimScope) (rest : List ClaimScope) (left remaining : ℕ)
    (rows : List OutboxRow) : Decidable (CappedInVain route rest left remaining rows) :=
  inferInstanceAs (Decidable (_ ∧ ∃ row ∈ afterRoute route left remaining rows, _))

instance decidableNoneCapped :
    (routes : List ClaimScope) → (left remaining : ℕ) → (rows : List OutboxRow) →
    Decidable (NoneCapped routes left remaining rows)
  | [], _, _, _ => isTrue trivial
  | _ :: rest, _, _, _ =>
    have := decidableNoneCapped rest
    inferInstanceAs (Decidable (_ ∧ _))

variable {row : OutboxRow} {reading : Instant} {plan' : SweepPlan} {other : String} {budget' : ℕ}

section Dealing

variable {route : ClaimScope} {routes rest : List ClaimScope} {left remaining : ℕ}
  {rows : List OutboxRow}

theorem of_mem_firstAdmitted {limit : ℕ} (h : row ∈ firstAdmitted route limit rows) :
    row ∈ rows ∧ route.admits row = true :=
  List.mem_filter.mp ((List.mem_insertionSort claimOrder).mp (List.mem_of_mem_take h))

theorem nodup_firstAdmitted (limit : ℕ) (h : rows.Nodup) : (firstAdmitted route limit rows).Nodup :=
  ((List.perm_insertionSort claimOrder _).nodup_iff.mpr (h.filter _)).take

theorem length_firstAdmitted (route : ClaimScope) (limit : ℕ) (rows : List OutboxRow) :
    (firstAdmitted route limit rows).length = min limit (rows.countP route.admits) := by
  rw [firstAdmitted, List.length_take, (List.perm_insertionSort _ _).length_eq,
    List.countP_eq_length_filter]

/-- Taking some of the rows leaves the others. -/
theorem length_filter_not_mem {taken : List OutboxRow} (hrows : rows.Nodup) (htaken : taken.Nodup)
    (hmem : ∀ row ∈ taken, row ∈ rows) :
    (rows.filter fun row => row ∉ taken).length + taken.length = rows.length := by
  have hperm : (rows.filter fun row => row ∈ taken).Perm taken := by
    refine (List.perm_ext_iff_of_nodup (hrows.filter _) htaken).mpr fun row => ?_
    simp only [List.mem_filter, decide_eq_true_eq, and_iff_right_iff_imp]
    exact hmem row
  have hspl := List.length_eq_length_filter_add (l := rows) fun row => decide (row ∉ taken)
  simp only [decide_not, Bool.not_not] at hspl
  rw [← hperm.length_eq]
  simpa using hspl.symm

theorem afterRoute_sublist : (afterRoute route left remaining rows).Sublist rows :=
  List.filter_sublist

/-- A route takes its share, or all it admits. -/
theorem length_afterRoute (route : ClaimScope) (left remaining : ℕ) (h : rows.Nodup) :
    (afterRoute route left remaining rows).length + min (shareOf left remaining)
      (rows.countP route.admits) =
      rows.length := by
  rw [← length_firstAdmitted]
  exact length_filter_not_mem h (nodup_firstAdmitted _ h) fun row hrow =>
    (of_mem_firstAdmitted hrow).1

theorem room_afterRoute (route : ClaimScope) (left remaining : ℕ) (h : rows.Nodup) :
    roomAfter remaining rows (afterRoute route left remaining rows) + rows.length =
      remaining + (afterRoute route left remaining rows).length := by
  have hlen := length_afterRoute route left remaining h
  have hshare : shareOf left remaining ≤ remaining := min_le_right _ _
  unfold roomAfter
  omega

/-- Rows that the route does not admit stay. -/
theorem mem_afterRoute (hrow : row ∈ rows) (hadms : route.admits row = false) :
    row ∈ afterRoute route left remaining rows := by
  refine List.mem_filter.mpr ⟨hrow, ?_⟩
  rw [decide_eq_true_eq]
  intro htaken
  rw [(of_mem_firstAdmitted htaken).2] at hadms
  cases hadms

theorem dealt_sublist : (dealt routes left remaining rows).Sublist rows := by
  induction routes generalizing left remaining rows with
  | nil => exact .refl _
  | cons route rest ih => exact ih.trans afterRoute_sublist

/-- Rows that no route admits stay. -/
theorem mem_dealt (hrow : row ∈ rows) (hadms : ∀ route ∈ routes, route.admits row = false) :
    row ∈ dealt routes left remaining rows := by
  induction routes generalizing left remaining rows with
  | nil => exact hrow
  | cons route rest ih =>
    exact ih (mem_afterRoute hrow (hadms route List.mem_cons_self)) fun other hother =>
      hadms other (List.mem_cons_of_mem _ hother)

/-- No more is taken than there is to deal out. -/
theorem length_le_dealt (routes : List ClaimScope) (left remaining : ℕ) (h : rows.Nodup) :
    rows.length ≤ (dealt routes left remaining rows).length + remaining := by
  induction routes generalizing left remaining rows with
  | nil => exact Nat.le_add_right _ _
  | cons route rest ih =>
    have hroom := room_afterRoute route left remaining h
    have hnd : (afterRoute route left remaining rows).Nodup := h.sublist afterRoute_sublist
    have hrest :=
      ih (max (left - 1) 1) (roomAfter remaining rows (afterRoute route left remaining rows)) hnd
    rw [dealt]
    omega

variable {p : OutboxRow → Bool}

/-- Of rows that no route admits none is taken. -/
theorem countP_dealt_of_apart (h : rows.Nodup)
    (hp : ∀ row, p row = true → ∀ route ∈ routes, route.admits row = false) :
    (dealt routes left remaining rows).countP p = rows.countP p := by
  refine le_antisymm (dealt_sublist.countP_le) ?_
  rw [List.countP_eq_length_filter, List.countP_eq_length_filter]
  refine List.Subperm.length_le (List.subperm_of_subset (h.filter _) fun row hrow => ?_)
  obtain ⟨hmem, hrow⟩ := List.mem_filter.mp hrow
  exact List.mem_filter.mpr ⟨mem_dealt hmem (hp row hrow), hrow⟩

/-- What is taken is taken of the rows that meet a condition, if every route admits only such
rows. -/
theorem countP_dealt (left remaining : ℕ) (h : rows.Nodup)
    (hp : ∀ route ∈ routes, ∀ row, route.admits row = true → p row = true) :
    (dealt routes left remaining rows).countP p + rows.length =
      rows.countP p + (dealt routes left remaining rows).length := by
  have hoths : (dealt routes left remaining rows).countP (fun row => !p row) = rows.countP fun row => !p row := by
    refine countP_dealt_of_apart h fun row hrow route hroute => ?_
    by_contra hadms
    rw [hp route hroute row (by simpa using hadms)] at hrow
    cases hrow
  have hrows := List.length_eq_countP_add_countP p (l := rows)
  have hleft := List.length_eq_countP_add_countP p (l := dealt routes left remaining rows)
  simp only [Bool.not_eq_true, Bool.decide_eq_false] at hrows hleft
  omega

/-- **No route is capped in vain** exactly when the allocation is used up or no row that a route
admits stays. -/
theorem noneCapped_iff (h : rows.Nodup) :
    NoneCapped routes left remaining rows ↔
      (dealt routes left remaining rows).length + remaining = rows.length ∨
        ∀ row ∈ dealt routes left remaining rows, routes.any (·.admits row) = false := by
  induction routes generalizing left remaining rows with
  | nil => simp [NoneCapped]
  | cons route rest ih =>
    have hnd : (afterRoute route left remaining rows).Nodup := h.sublist afterRoute_sublist
    have hroom := room_afterRoute route left remaining h
    have hof : ∀ other ∈ rest, ∀ row, other.admits row = true → rest.any (·.admits row) = true :=
      fun other hother row hrow => List.any_eq_true.mpr ⟨other, hother, hrow⟩
    have htaken := countP_dealt (max (left - 1) 1)
      (roomAfter remaining rows (afterRoute route left remaining rows)) hnd hof
    have hmost := length_le_dealt rest (max (left - 1) 1)
      (roomAfter remaining rows (afterRoute route left remaining rows)) hnd
    rw [NoneCapped, ih hnd, dealt]
    simp only [CappedInVain, not_and, not_exists, List.any_cons, Bool.or_eq_false_iff]
    generalize afterRoute route left remaining rows = rows' at *
    generalize roomAfter remaining rows rows' = room at *
    generalize hleft : dealt rest (max (left - 1) 1) room rows' = last at *
    constructor
    · rintro ⟨hvain, hused | hnone⟩
      · exact .inl (by omega)
      · rcases Nat.lt_or_ge (rows'.countP fun row => rest.any (·.admits row)) room with hless | hmore
        · refine .inr fun row hrow => ⟨Bool.eq_false_iff.mpr fun hadms => ?_, hnone row hrow⟩
          have hmem : row ∈ rows' := (hleft ▸ dealt_sublist).subset hrow
          exact hvain hless row hmem hadms (by rw [hnone row hrow]; exact Bool.false_ne_true)
        · have hzero : (last.countP fun row => rest.any (·.admits row)) = 0 :=
            List.countP_eq_zero.mpr fun row hrow => by rw [hnone row hrow]; exact Bool.false_ne_true
          exact .inl (by omega)
    · rintro (hused | hnone)
      · exact ⟨fun hless => absurd hless (by omega), .inl (by omega)⟩
      · refine ⟨fun hless row hrow hadms hrest => ?_, .inr fun row hrow => (hnone row hrow).2⟩
        have hmem : row ∈ last := hleft ▸ mem_dealt hrow fun other hother => by
          by_contra hother'
          exact hrest (hof other hother row (by simpa using hother'))
        rw [(hnone row hmem).1] at hadms
        cases hadms

/-- One route takes all it admits, up to the allocation. -/
theorem noneCapped_singleton (route : ClaimScope) (remaining : ℕ) (h : rows.Nodup) :
    NoneCapped [route] 1 remaining rows := by
  have hlen := length_afterRoute route 1 remaining h
  have htaken : (dealt [route] 1 remaining rows).countP route.admits + _ = _ :=
    countP_dealt 1 remaining h fun other hother row
      hadms => by rwa [List.mem_singleton.mp hother] at hadms
  have hshare : shareOf 1 remaining = remaining := by simp [shareOf, divCeil]
  change (dealt [route] 1 remaining rows).length + _ = _ at hlen
  rw [hshare] at hlen
  rw [noneCapped_iff h]
  rcases Nat.le_total remaining (rows.countP route.admits) with hless | hmore
  · exact .inl (by omega)
  · have hzero : (dealt [route] 1 remaining rows).countP route.admits = 0 := by omega
    refine .inr fun row hrow => ?_
    rw [List.any_cons, List.any_nil, Bool.or_false]
    exact Bool.eq_false_iff.mpr (List.countP_eq_zero.mp hzero row hrow)

end Dealing

/-! ### What there is to claim -/

/-- The rows that can be claimed: due, and of no held workflow. -/
def OutboxTable.claimable (now : Instant) (held : List WorkflowId) (table : OutboxTable) :
    List OutboxRow :=
  table.rows.filter fun row => isDue now row && !held.contains row.workflowId

/-- The readings of the clock find the same rows due. -/
def Steady (clock : Instant → Prop) (now : Instant) (table : OutboxTable) : Prop :=
  ∀ reading, clock reading → ∀ row ∈ table.rows, isDue reading row = isDue now row

/-- Whether a row is of a namespace. -/
def inNamespace (name : String) (row : OutboxRow) : Bool := row.namespace_ = name

theorem countP_inNamespace {rows : List OutboxRow} {name : String}
    (h : ∀ row ∈ rows, row.namespace_ = name) : rows.countP (inNamespace name) = rows.length :=
  List.countP_eq_length.mpr fun row hrow => decide_eq_true (h row hrow)

theorem countP_inNamespace_of_ne {rows : List OutboxRow} {name : String}
    (h : ∀ row ∈ rows, row.namespace_ = name) (hne : name ≠ other) :
    rows.countP (inNamespace other) = 0 :=
  List.countP_eq_zero.mpr fun row hrow hother =>
    hne ((h row hrow).symm.trans (of_decide_eq_true hother))

section Claims

variable {history : WorkflowId → List Event} {clock : Instant → Prop} {now : Instant}
  {held : List WorkflowId}
  {table table' : OutboxTable} {rows : List OutboxRow}

theorem nodup_claimable (now : Instant) (held : List WorkflowId) (table : OutboxTable) :
    (table.claimable now held).Nodup := table.nodup_rows.filter _

/-- **A scoped claim** takes the first rows of its scope. -/
theorem claimable_claim (hsteady : Steady clock now table) (hreading : clock reading)
    (route : ClaimScope) (limit : ℕ) (held : List WorkflowId) :
    Steady clock now (table.execute (.claimOutboxRowsScopedExcluding reading route limit held)).2 ∧
      (table.execute (.claimOutboxRowsScopedExcluding reading route limit held)).2.claimable now
        held =
        (table.claimable now held).filter
          (fun row => row ∉ firstAdmitted route limit (table.claimable now held)) ∧
      (table.execute (.claimOutboxRowsScopedExcluding reading route limit held)).1.toRows.length =
        (firstAdmitted route limit (table.claimable now held)).length := by
  simp only [execute, claim, OutboxAnswer.toRows]
  have hsel : table.select (fun row =>
      isDue reading row && (route.admits row && !held.contains row.workflowId))
      claimOrder limit = firstAdmitted route limit (table.claimable now held) := by
    rw [select, firstAdmitted, claimable, List.filter_filter]
    congr 2
    refine List.filter_congr fun row hrow => ?_
    rw [hsteady reading hreading row hrow, Bool.and_left_comm]
  rw [hsel]
  generalize hfst : firstAdmitted route limit (table.claimable now held) = taken
  refine ⟨fun reading' hreading' row hrow => ?_, ?_, List.length_map _⟩
  · change row ∈ table.rows.map fun row => if decide (row ∈ taken) = true then
      row.claim reading else row at hrow
    obtain ⟨before, hbef, rfl⟩ := List.mem_map.mp hrow
    split
    · rfl
    · exact hsteady reading' hreading' before hbef
  · change (table.rows.map fun row => if decide (row ∈ taken) = true then row.claim reading else row).filter _ = _
    rw [List.filter_map, claimable, List.filter_filter]
    have hkept : table.rows.filter ((fun row => isDue now row && !held.contains row.workflowId) ∘
        fun row => if decide (row ∈ taken) = true then row.claim reading else row) =
        table.rows.filter fun row => decide (row ∉ taken) && (isDue now row && !held.contains row.workflowId) := by
      refine List.filter_congr fun row _ => ?_
      by_cases htaken : row ∈ taken
      · simp [htaken, isDue, OutboxRow.claim]
      · simp [htaken]
    rw [hkept]
    refine (List.map_congr_left fun row hrow => ?_).trans (List.map_id _)
    have hnot : row ∉ taken := by
      simpa using (Bool.and_eq_true_iff.mp (List.mem_filter.mp hrow).2).1
    rw [decide_eq_false hnot]
    rfl

/-- **The routes of a namespace** take the rows that are dealt to them. -/
theorem dealt_of_claimRoutes {routes : List ClaimScope} {left remaining : ℕ}
    (hsteady : Steady clock now table)
    (h : Fallible.Ends (StoreAnswers history clock) (claimRoutes held routes left remaining) table
        (.ok rows) table') :
    Steady clock now table' ∧
      table'.claimable now held = dealt routes left remaining (table.claimable now held) ∧
      rows.length + (table'.claimable now held).length = (table.claimable now held).length := by
  induction routes generalizing table left remaining rows with
  | nil =>
    obtain ⟨hval, rfl⟩ := Fallible.ends_pure_iff.mp h
    obtain rfl := Except.ok.inj hval
    exact ⟨hsteady, rfl, Nat.zero_add _⟩
  | cons route rest ih =>
    unfold claimRoutes at h
    split at h
    · rename_i hzero
      obtain ⟨hval, rfl⟩ := Fallible.ends_pure_iff.mp h
      obtain rfl := Except.ok.inj hval
      have hnone := length_le_dealt (route :: rest) left 0 (nodup_claimable now held table')
      refine ⟨hsteady, ?_, Nat.zero_add _⟩
      rw [hzero]
      exact (dealt_sublist.eq_of_length_le hnone).symm
    · obtain ⟨first, middle, hclaim, hgo⟩ := Fallible.ends_then_ok_iff.mp h
      obtain ⟨answer, reading, hreading, hans, rfl, rfl⟩ := ends_outbox_ok_iff.mp hclaim
      obtain ⟨later, last, hlat, hdone⟩ := Fallible.ends_then_ok_iff.mp hgo
      obtain ⟨hval, rfl⟩ := Fallible.ends_pure_iff.mp hdone
      obtain rfl := Except.ok.inj hval
      rw [OutboxAnswer.toRows_of_meaning hans] at hlat ⊢
      obtain ⟨hsteady', hrows, hlen⟩ := claimable_claim hsteady hreading route (shareOf left remaining) held
      have hleft := length_afterRoute route left remaining (nodup_claimable now held table)
      rw [← length_firstAdmitted, ← hlen] at hleft
      obtain ⟨hlast, hdealt, htaken⟩ := ih hsteady' hlat
      rw [hrows] at hdealt htaken
      change _ + _ = (afterRoute route left remaining (table.claimable now held)).length at htaken
      have hroom : roomAfter remaining (table.claimable now held)
        (afterRoute route left remaining (table.claimable now held)) =
          remaining - (table.execute
            (.claimOutboxRowsScopedExcluding reading route (shareOf left remaining) held)).1.toRows.length := by
        unfold roomAfter
        omega
      refine ⟨hlast, ?_, ?_⟩
      · rw [hdealt, dealt, hroom]
        rfl
      · rw [List.length_append]
        change (table.execute (.claimOutboxRowsScopedExcluding reading route (shareOf left remaining) held)).1.toRows.length +
          _ + _ = _
        omega

end Claims

/-! ### A pass over the namespaces -/

/-- The routes of a namespace among those the store listed. -/
def listedOf (listed : List ClaimScope) (name : String) : List ClaimScope :=
  listed.filter fun route => route.namespace_ = name

/-- The count of routes that the slice of a namespace starts with. -/
def routesToGo (listed : List ClaimScope) (name : String) : ℕ :=
  max (min (listedOf listed name).length (UInt32.size - 1)) 1

/-- The rows that stay when the routes of a namespace have been dealt an allocation. -/
def sliced (listed : List ClaimScope) (name : String) (allocation : ℕ) (rows : List OutboxRow) :
    List OutboxRow :=
  dealt (listedOf listed name) (routesToGo listed name) allocation rows

/-- The rows that stay when every namespace in turn has been dealt its allocation, as the room
allows. -/
def passed (listed : List ClaimScope) (allocation : String → ℕ) :
    List String → ℕ → List OutboxRow → List OutboxRow
  | [], _, rows => rows
  | name :: rest, room, rows =>
    let rows' := sliced listed name (min (allocation name) room) rows
    passed listed allocation rest (roomAfter room rows rows') rows'

/-- No route is capped in vain in such a pass. -/
def NoneCappedIn (listed : List ClaimScope) (allocation : String → ℕ) :
    List String → ℕ → List OutboxRow → Prop
  | [], _, _ => True
  | name :: rest, room, rows =>
    let rows' := sliced listed name (min (allocation name) room) rows
    NoneCapped (listedOf listed name) (routesToGo listed name) (min (allocation name) room) rows ∧
      NoneCappedIn listed allocation rest (roomAfter room rows rows') rows'

/-- Every row is admitted by a route that is listed. -/
def Covered (listed : List ClaimScope) (rows : List OutboxRow) : Prop :=
  ∀ row ∈ rows, ∃ route ∈ listed, route.admits row = true

instance decidableNoneCappedIn (listed : List ClaimScope) (allocation : String → ℕ) :
    (names : List String) → (room : ℕ) → (rows : List OutboxRow) →
    Decidable (NoneCappedIn listed allocation names room rows)
  | [], _, _ => isTrue trivial
  | _ :: rest, _, _ =>
    have := decidableNoneCappedIn listed allocation rest
    inferInstanceAs (Decidable (_ ∧ _))

section Passes

variable {listed : List ClaimScope} {allocation : String → ℕ} {name : String}
  {names : List String} {room : ℕ}
  {rows : List OutboxRow}

variable {route : ClaimScope}

theorem namespace_of_mem_listedOf (h : route ∈ listedOf listed name) : route.namespace_ = name :=
  of_decide_eq_true (List.mem_filter.mp h).2

theorem inNamespace_of_admits (h : route ∈ listedOf listed name)
    (hadms : route.admits row = true) : inNamespace name row = true :=
  decide_eq_true ((namespace_of_admits hadms).trans (namespace_of_mem_listedOf h))

theorem sliced_sublist : (sliced listed name room rows).Sublist rows := dealt_sublist

/-- What a slice takes is of its namespace. -/
theorem countP_sliced (listed : List ClaimScope) (name : String) (room : ℕ) (h : rows.Nodup) :
    (sliced listed name room rows).countP (inNamespace name) + rows.length =
      rows.countP (inNamespace name) + (sliced listed name room rows).length :=
  countP_dealt _ _ h fun _ hroute _ => inNamespace_of_admits hroute

theorem countP_sliced_of_ne (h : rows.Nodup) (hne : other ≠ name) :
    (sliced listed name room rows).countP (inNamespace other) =
      rows.countP (inNamespace other) := by
  refine countP_dealt_of_apart h fun row hrow route hroute => ?_
  by_contra hadms
  have hname := inNamespace_of_admits hroute (Bool.of_not_eq_false hadms)
  exact hne ((of_decide_eq_true hrow).symm.trans (of_decide_eq_true hname))

theorem room_sliced (listed : List ClaimScope) (name : String) {allocation : ℕ} (h : rows.Nodup)
    (hroom : allocation ≤ room) :
    roomAfter room rows (sliced listed name allocation rows) + rows.length =
      room + (sliced listed name allocation rows).length := by
  have hmost := length_le_dealt (listedOf listed name) (routesToGo listed name) allocation h
  have hless : (sliced listed name allocation rows).length ≤ rows.length := sliced_sublist.length_le
  change rows.length ≤ (sliced listed name allocation rows).length + allocation at hmost
  unfold roomAfter
  omega

/-- **A slice in which no route is capped in vain** takes all the rows of its namespace that it
may. -/
theorem noneCapped_slice_iff (h : rows.Nodup) (hcovered : Covered listed rows) :
    NoneCapped (listedOf listed name) (routesToGo listed name) room rows ↔
      (sliced listed name room rows).countP (inNamespace name) +
        min room (rows.countP (inNamespace name)) =
        rows.countP (inNamespace name) := by
  have htaken := countP_sliced listed name room h
  have hmost := length_le_dealt (listedOf listed name) (routesToGo listed name) room h
  have hless : (sliced listed name room rows).length ≤ rows.length := sliced_sublist.length_le
  have hnone : (∀ row ∈ sliced listed name room rows,
      (listedOf listed name).any (·.admits row) = false) ↔
      (sliced listed name room rows).countP (inNamespace name) = 0 := by
    rw [List.countP_eq_zero]
    refine forall₂_congr fun row hrow => ?_
    obtain ⟨route, hroute, hadms⟩ := hcovered row (sliced_sublist.subset hrow)
    rw [List.any_eq_false]
    constructor
    · intro hall hname
      have hsame : route.namespace_ = name := (namespace_of_admits hadms).symm.trans (of_decide_eq_true hname)
      exact hall route (List.mem_filter.mpr ⟨hroute, decide_eq_true hsame⟩) hadms
    · exact fun hname other hother hadms' => hname (inNamespace_of_admits hother hadms')
  rw [noneCapped_iff h]
  change (sliced listed name room rows).length + room = rows.length ∨ _ ↔ _
  change rows.length ≤ (sliced listed name room rows).length + room at hmost
  rw [show (∀ row ∈ dealt (listedOf listed name) (routesToGo listed name) room rows, _) ↔
    _ from hnone]
  omega

theorem passed_sublist : (passed listed allocation names room rows).Sublist rows := by
  induction names generalizing room rows with
  | nil => exact .refl _
  | cons name rest ih => exact ih.trans sliced_sublist

/-- A pass takes no more than the room. -/
theorem length_le_passed (listed : List ClaimScope) (allocation : String → ℕ) (names : List String)
    (room : ℕ) (h : rows.Nodup) :
    rows.length ≤ (passed listed allocation names room rows).length + room := by
  induction names generalizing room rows with
  | nil => exact Nat.le_add_right _ _
  | cons name rest ih =>
    have hroom := room_sliced listed name h (min_le_right (allocation name) room)
    have hslice : (sliced listed name (min (allocation name) room) rows).Nodup :=
      h.sublist sliced_sublist
    have hrest :=
      ih (roomAfter room rows (sliced listed name (min (allocation name) room) rows)) hslice
    rw [passed]
    omega

theorem countP_passed_of_not_mem (listed : List ClaimScope) (allocation : String → ℕ) (room : ℕ)
    (h : rows.Nodup) (hname : name ∉ names) :
    (passed listed allocation names room rows).countP (inNamespace name) =
      rows.countP (inNamespace name) := by
  induction names generalizing room rows with
  | nil => rfl
  | cons first rest ih =>
    rw [passed, ih _ (h.sublist sliced_sublist) fun hmem => hname (List.mem_cons_of_mem _ hmem)]
    exact countP_sliced_of_ne h fun heq => hname (heq ▸ List.mem_cons_self)

/-- **A pass that leaves room** caps no route in vain exactly when every namespace gets all the rows
that its allocation lets it have. -/
theorem noneCappedIn_iff (h : rows.Nodup) (hnd : names.Nodup) (hcovered : Covered listed rows)
    (hroom : rows.length < (passed listed allocation names room rows).length + room) :
    NoneCappedIn listed allocation names room rows ↔ ∀ name ∈ names,
      (passed listed allocation names room rows).countP (inNamespace name) +
        min (allocation name) (rows.countP (inNamespace name)) =
      rows.countP (inNamespace name) := by
  induction names generalizing room rows with
  | nil => simp [NoneCappedIn]
  | cons name rest ih =>
    obtain ⟨hnew, hrest⟩ := List.nodup_cons.mp hnd
    have hroom' := room_sliced listed name h (min_le_right (allocation name) room)
    have hslice : (sliced listed name (min (allocation name) room) rows).Nodup :=
      h.sublist sliced_sublist
    have htaken := countP_sliced listed name (min (allocation name) room) h
    have hstays := countP_passed_of_not_mem listed allocation
      (roomAfter room rows (sliced listed name (min (allocation name) room) rows)) hslice hnew
    have hless : (passed listed allocation rest (roomAfter room rows (sliced listed name (min (allocation name) room) rows))
        (sliced listed name (min (allocation name) room) rows)).length ≤ _ := passed_sublist.length_le
    rw [passed] at hroom
    rw [NoneCappedIn, noneCapped_slice_iff h hcovered,
      ih hslice hrest (fun row hrow => hcovered row (sliced_sublist.subset hrow))
      (by omega), List.forall_mem_cons, passed, hstays]
    refine and_congr (by omega) (forall₂_congr fun other hother => ?_)
    rw [countP_sliced_of_ne h (ne_of_mem_of_not_mem hother hnew)]

/-- With one route for each namespace no route is capped in vain. -/
theorem noneCappedIn_of_oneRoute (h : rows.Nodup)
    (hone : ∀ name ∈ names, ∃ route, listedOf listed name = [route]) :
    NoneCappedIn listed allocation names room rows := by
  induction names generalizing room rows with
  | nil => trivial
  | cons name rest ih =>
    refine ⟨?_, ih (h.sublist sliced_sublist) fun other hother => hone other (List.mem_cons_of_mem _ hother)⟩
    obtain ⟨route, hroute⟩ := hone name List.mem_cons_self
    rw [routesToGo, hroute]
    exact noneCapped_singleton route _ h

end Passes

/-! ### What the passes take -/

/-- The rows taken are no longer there to claim; the others are. -/
structure Serves (clock : Instant → Prop) (now : Instant) (held : List WorkflowId)
    (table table' : OutboxTable) (rows : List OutboxRow) : Prop where
  steady : Steady clock now table'
  length : rows.length + (table'.claimable now held).length = (table.claimable now held).length
  leaves : ∀ name, rows.countP (inNamespace name) + (table'.claimable now held).countP
    (inNamespace name) =
    (table.claimable now held).countP (inNamespace name)

section Serves

variable {history : WorkflowId → List Event} {clock : Instant → Prop} {now : Instant}
  {held : List WorkflowId}
  {table table' table'' : OutboxTable} {rows rows' : List OutboxRow} {listed : List ClaimScope}
    {headroom : String → ℕ}
  {name : String} {names : List String} {budget : ℕ}

theorem Serves.none (hsteady : Steady clock now table) : Serves clock now held table table [] :=
  ⟨hsteady, Nat.zero_add _, fun _ => Nat.zero_add _⟩

theorem Serves.trans (h : Serves clock now held table table' rows)
    (h' : Serves clock now held table' table'' rows') :
    Serves clock now held table table'' (rows ++ rows') := by
  refine ⟨h'.steady, ?_, fun name => ?_⟩
  · rw [List.length_append, ← h.length, ← h'.length, Nat.add_assoc]
  · rw [List.countP_append, ← h.leaves, ← h'.leaves, Nat.add_assoc]

/-- The slice of a namespace takes the rows that are dealt to it. -/
theorem serves_of_slice (hsteady : Steady clock now table)
    (h : Fallible.Ends (StoreAnswers history clock)
        (claimNamespaceSlice held (listedOf listed name) budget) table (.ok rows) table') :
    Serves clock now held table table' rows ∧
      table'.claimable now held = sliced listed name budget (table.claimable now held) := by
  obtain ⟨hsteady', hdealt, hlen⟩ := dealt_of_claimRoutes hsteady h
  obtain ⟨rows', -, -, hname, hret⟩ := takes_of_slice (fun _ => namespace_of_mem_listedOf) h
  obtain rfl := hret rows rfl
  have hnd := nodup_claimable now held table
  refine ⟨⟨hsteady', hlen, fun other => ?_⟩, hdealt⟩
  have htaken := countP_sliced listed name budget hnd
  rw [show sliced listed name budget (table.claimable now held) = _ from hdealt.symm] at htaken
  by_cases heq : other = name
  · rw [heq, countP_inNamespace hname]
    omega
  · rw [countP_inNamespace_of_ne hname (Ne.symm heq), Nat.zero_add, hdealt]
    exact countP_sliced_of_ne hnd heq

/-- A plan for the namespaces, with the routes as they were listed. -/
def planWith (listed : List ClaimScope) (headroom : String → ℕ) (names : List String) : SweepPlan :=
  names.map fun name => (name, ⟨headroom name, listedOf listed name⟩)

/-- **The first pass** is a pass with each namespace's slice. -/
theorem serves_of_firstPass {slice : ℕ} (hsteady : Steady clock now table)
    (h : Fallible.Ends (StoreAnswers history clock)
        (firstPass held slice (planWith listed headroom names) budget) table
      (.ok (plan', budget', rows)) table') :
    Serves clock now held table table' rows ∧ budget' = budget - rows.length ∧
      table'.claimable now held =
        passed listed (fun name => min slice (headroom name)) names budget
          (table.claimable now held) := by
  induction names generalizing table budget rows plan' with
  | nil =>
    obtain ⟨hval, rfl⟩ := Fallible.ends_pure_iff.mp h
    obtain ⟨-, rfl, rfl⟩ : _ ∧ budget' = budget ∧ rows = [] := by simpa using Except.ok.inj hval
    exact ⟨.none hsteady, rfl, rfl⟩
  | cons name rest ih =>
    obtain ⟨first, middle, hslice, hgo⟩ := Fallible.ends_then_ok_iff.mp h
    obtain ⟨⟨plan'', budget'', later⟩, last, hlat, hdone⟩ := Fallible.ends_then_ok_iff.mp hgo
    obtain ⟨hval, rfl⟩ := Fallible.ends_pure_iff.mp hdone
    obtain ⟨-, rfl, rfl⟩ : _ ∧ budget' = budget'' ∧ rows = first ++ later := by
      simpa using Except.ok.inj hval
    obtain ⟨hfst, hsliced⟩ := serves_of_slice hsteady hslice
    obtain ⟨hrest, hbudget, hpass⟩ := ih hfst.steady hlat
    refine ⟨hfst.trans hrest, by rw [List.length_append]; omega, ?_⟩
    have htaken := hfst.length
    have hroom : budget - first.length =
        roomAfter budget (table.claimable now held) (middle.claimable now held) := by
      unfold roomAfter
      omega
    rw [hpass, hroom, hsliced]
    rfl

/-- **The second pass** is a pass with each namespace's headroom. -/
theorem serves_of_secondPass (hsteady : Steady clock now table)
    (h : Fallible.Ends (StoreAnswers history clock)
        (secondPass held (planWith listed headroom names) budget) table (.ok rows) table') :
    Serves clock now held table table' rows ∧
      table'.claimable now held = passed listed headroom names budget
      (table.claimable now held) := by
  induction names generalizing table budget rows with
  | nil =>
    obtain ⟨hval, rfl⟩ := Fallible.ends_pure_iff.mp h
    obtain rfl := Except.ok.inj hval
    exact ⟨.none hsteady, rfl⟩
  | cons name rest ih =>
    change Fallible.Ends _ (secondPass held ((name, _) :: planWith listed headroom rest) budget)
      table _ table' at h
    unfold secondPass at h
    split at h
    · rename_i hzero
      obtain ⟨hval, rfl⟩ := Fallible.ends_pure_iff.mp h
      obtain rfl := Except.ok.inj hval
      have hnone := length_le_passed listed headroom (name :: rest) 0 (nodup_claimable now held table')
      rw [hzero]
      exact ⟨.none hsteady, (passed_sublist.eq_of_length_le hnone).symm⟩
    · obtain ⟨first, middle, hslice, hgo⟩ := Fallible.ends_then_ok_iff.mp h
      obtain ⟨later, last, hlat, hdone⟩ := Fallible.ends_then_ok_iff.mp hgo
      obtain ⟨hval, rfl⟩ := Fallible.ends_pure_iff.mp hdone
      obtain rfl := Except.ok.inj hval
      obtain ⟨hfst, hsliced⟩ := serves_of_slice hsteady hslice
      obtain ⟨hrest, hpass⟩ := ih hfst.steady hlat
      have htaken := hfst.length
      have hroom : budget - first.length =
          roomAfter budget (table.claimable now held) (middle.claimable now held) := by
        unfold roomAfter
        omega
      refine ⟨hfst.trans hrest, ?_⟩
      rw [hpass, hroom, hsliced]
      rfl

end Serves

/-! ### The condition -/

/-- One sweep: its share of the shards, the quotas, the batch, the held workflows and the table. -/
structure SweepSetting where
  fraction : OwnedShardFraction
  quota : String → UInt32
  batchSize : ℕ
  held : List WorkflowId
  table : OutboxTable
  now : Instant

namespace SweepSetting

variable (setting : SweepSetting) (listed : List ClaimScope)

/-- The routes with due rows. -/
def routes : List ClaimScope :=
  (setting.table.execute (.pendingOutboxRoutes setting.now)).1.toRoutes

/-- The namespaces with due rows. -/
def names : List String := namespacesOf setting.routes

/-- What the ceiling of a namespace leaves it. -/
def headroom (name : String) : ℕ :=
  (setting.fraction.perNodeCeiling (setting.quota name)).toNat - setting.table.claimedIn name

/-- The rows there are to claim. -/
def claimable : List OutboxRow := setting.table.claimable setting.now setting.held

/-- How many of them are of a namespace. -/
def claimableOf (name : String) : ℕ := setting.claimable.countP (inNamespace name)

/-- The rounded-up slice of each namespace. -/
def slice : ℕ := perNamespaceSlice setting.batchSize setting.names.length

/-- What a namespace is owed: an even part of the batch, rounded down, if it has the headroom and
the rows. -/
def owed (name : String) : ℕ :=
  min (min (setting.headroom name) (setting.claimableOf name))
    (setting.batchSize / setting.names.length)

/-- What a namespace may have of the first pass. -/
def firstAllocation (name : String) : ℕ := min setting.slice (setting.headroom name)

/-- The rows that stay after the first pass, where the routes are listed so. -/
def afterFirst : List OutboxRow :=
  passed listed setting.firstAllocation setting.names setting.batchSize setting.claimable

/-- What the first pass leaves of the batch. -/
def roomLeft : ℕ := roomAfter setting.batchSize setting.claimable (setting.afterFirst listed)

/-- How many rows of a namespace the first pass deals out. -/
def firstDealt (name : String) : ℕ :=
  setting.claimableOf name - (setting.afterFirst listed).countP (inNamespace name)

/-- The first pass deals every namespace what it is owed. -/
def SharesSuffice : Prop :=
  ∀ name ∈ setting.names, setting.owed name ≤ setting.firstDealt listed name

/-- In the first pass no route is capped in vain. -/
def NoneCappedFirst : Prop :=
  NoneCappedIn listed setting.firstAllocation setting.names setting.batchSize setting.claimable

/-- The rows claimed are of each namespace at least what it is owed. -/
def Fair (rows : List OutboxRow) : Prop :=
  ∀ name ∈ setting.names, setting.owed name ≤ rows.countP (inNamespace name)

instance : Decidable (setting.SharesSuffice listed) :=
  inferInstanceAs (Decidable (∀ name ∈ setting.names, _))

instance (rows : List OutboxRow) : Decidable (setting.Fair rows) :=
  inferInstanceAs (Decidable (∀ name ∈ setting.names, _))

variable {setting listed}

/-- A row that is due has a route. -/
theorem covered_claimable (h : ∀ route ∈ setting.routes, route ∈ listed) :
    Covered listed setting.claimable := by
  intro row hrow
  obtain ⟨hmem, hdue⟩ := List.mem_filter.mp hrow
  refine ⟨⟨row.namespace_, row.taskQueue, row.node⟩, h _ ?_, ?_⟩
  · exact List.mem_dedup.mpr (List.mem_map.mpr ⟨row, List.mem_filter.mpr ⟨hmem, (Bool.and_eq_true_iff.mp hdue).1⟩, rfl⟩)
  · cases hnode : row.node <;> simp [ClaimScope.admits, hnode]

/-- What a namespace is owed is no more than its slice. -/
theorem owed_le_slice (name : String) : setting.owed name ≤ setting.firstAllocation name := by
  have hslice : setting.batchSize / setting.names.length ≤ setting.slice := by
    rcases Nat.eq_zero_or_pos setting.names.length with hnil | hpos
    · rw [hnil, Nat.div_zero]
      exact Nat.zero_le _
    · unfold slice perNamespaceSlice divCeil
      have hact : max (min setting.names.length (UInt32.size - 1)) 1 ≤ setting.names.length := by omega
      have hpos' : 1 ≤ max (min setting.names.length (UInt32.size - 1)) 1 := le_max_right _ _
      generalize max (min setting.names.length (UInt32.size - 1)) 1 = active at hact hpos' ⊢
      calc setting.batchSize / setting.names.length ≤ setting.batchSize / active := Nat.div_le_div_left hact hpos'
        _ ≤ (setting.batchSize + active - 1) / active := Nat.div_le_div_right (by omega)
        _ ≤ max ((setting.batchSize + active - 1) / active) 1 := le_max_left _ _
  unfold owed firstAllocation
  omega

/-- Where no route is capped in vain and room is left, every namespace is dealt what it is owed. -/
theorem sharesSuffice_of_noneCapped (hcovered : Covered listed setting.claimable)
    (h : setting.NoneCappedFirst listed) (hroom : 0 < setting.roomLeft listed) :
    setting.SharesSuffice listed := by
  have hnd := nodup_claimable setting.now setting.held setting.table
  have hless : (setting.afterFirst listed).length ≤ setting.claimable.length :=
    passed_sublist.length_le
  have hleft :
      setting.claimable.length < (setting.afterFirst listed).length + setting.batchSize := by
    unfold roomLeft roomAfter at hroom
    omega
  intro name hname
  have hgets := (noneCappedIn_iff hnd (nodup_namespacesOf _) hcovered hleft).mp h name hname
  change (setting.afterFirst listed).countP (inNamespace name) +
    min (setting.firstAllocation name) (setting.claimableOf name) =
      setting.claimableOf name at hgets
  have howed := setting.owed_le_slice name
  have hrows : setting.owed name ≤ setting.claimableOf name :=
    (min_le_left _ _).trans (min_le_right _ _)
  unfold firstDealt
  omega

end SweepSetting

/-! ### The sweep -/

/-- The answers of a store that lists the routes of each table in this order. -/
def Lists (listing : OutboxTable → List ClaimScope)
    (answers : Answers OutboxTable WorkerCall WorkerCall.Answer) :
    Answers OutboxTable WorkerCall WorkerCall.Answer
  | table, .outbox operation, outcome, table' =>
    answers table (.outbox operation) outcome table' ∧
      (operation = .pendingOutboxRoutes → ∀ answer, outcome = .ok answer → answer.toRoutes = listing table)
  | table, .readHistory workflowId, outcome, table' =>
    answers table (.readHistory workflowId) outcome table'

theorem ends_of_lists {listing : OutboxTable → List ClaimScope}
    {answers : Answers OutboxTable WorkerCall WorkerCall.Answer} {α : Type}
    {program : Prog WorkerCall WorkerCall.Answer α} {table table' : OutboxTable} {value : α}
    (h : program.Ends (Lists listing answers) table value table') :
    program.Ends answers table value table' := by
  refine h.mono ?_
  rintro table (operation | workflowId) outcome table' hserv
  · exact hserv.1
  · exact hserv

/-- The order in which the table itself lists the routes. -/
def routesAt (now : Instant) (table : OutboxTable) : List ClaimScope :=
  (table.execute (.pendingOutboxRoutes now)).1.toRoutes

theorem ends_lists {history : WorkflowId → List Event} {clock : Instant → Prop} {now : Instant}
    (hclock : clock now) {α : Type} (program : Prog WorkerCall WorkerCall.Answer α)
    (table : OutboxTable) :
    program.Ends (Lists (routesAt now) (StoreAnswers history clock)) table
      ((steadyStore history now).run program table).1
      ((steadyStore history now).run program table).2 := by
  refine (ends_run (steadyStore history now) program table).mono ?_
  rintro table (operation | workflowId) outcome table' hserv
  · obtain ⟨rfl, rfl⟩ := Prod.mk.inj hserv
    refine ⟨⟨now, hclock, rfl, rfl⟩, ?_⟩
    rintro rfl _ ⟨⟩
    rfl
  · obtain ⟨rfl, rfl⟩ := Prod.mk.inj hserv
    exact ⟨rfl, rfl⟩

namespace SweepSetting

variable {setting : SweepSetting} {history : WorkflowId → List Event} {clock : Instant → Prop}
  {table' : OutboxTable}
  {rows : List OutboxRow} {listing : OutboxTable → List ClaimScope}

theorem namespacesOf_congr {listed routes : List ClaimScope}
    (h : ∀ route, route ∈ listed ↔ route ∈ routes) : namespacesOf listed = namespacesOf routes := by
  refine Sorting.insertionSort_eq_of_perm (fun _ _ _ _ => le_antisymm) ?_
  refine (List.perm_ext_iff_of_nodup (List.nodup_dedup _) (List.nodup_dedup _)).mpr fun name => ?_
  simp [h]

/-- While the clock is steady, the store lists the routes of the setting. -/
theorem routes_of_steady (hsteady : Steady clock setting.now setting.table)
    (hreading : clock reading) :
    (setting.table.execute (.pendingOutboxRoutes reading)).1.toRoutes = setting.routes := by
  change (List.map _ (setting.table.rows.filter (isDue reading))).dedup =
    (List.map _ (setting.table.rows.filter (isDue setting.now))).dedup
  rw [List.filter_congr fun row hrow => hsteady reading hreading row hrow]

/-- The two passes of a sweep, over the routes as they were listed. -/
theorem ends_sweep (hsteady : Steady clock setting.now setting.table)
    (h : Fallible.Ends (Lists listing (StoreAnswers history clock))
        (claimRoundRobin setting.fraction setting.quota setting.batchSize setting.held)
      setting.table (.ok rows) table') :
    (∀ route, route ∈ listing setting.table ↔ route ∈ setting.routes) ∧
    ∃ first second plan' budget' middle, rows = first ++ second ∧
      Fallible.Ends (StoreAnswers history clock) (firstPass setting.held setting.slice
        (planWith (listing setting.table) setting.headroom setting.names) setting.batchSize)
          setting.table
        (.ok (plan', budget', first)) middle ∧
      Fallible.Ends (StoreAnswers history clock) (secondPass setting.held plan' budget') middle
        (.ok second) table' := by
  rcases ends_bind_iff.mp h with ⟨outcome, middle, hlisting, hgo⟩
  obtain ⟨answer, served, hserv, hread⟩ := ends_call_iff.mp hlisting
  obtain ⟨rfl, rfl⟩ := ends_done_iff.mp hread
  cases answer with
  | error failure =>
    obtain ⟨hval, -⟩ := ends_done_iff.mp hgo
    cases hval
  | ok answer =>
    obtain ⟨⟨reading, hreading, hmeaning, rfl⟩, hlisted⟩ := hserv
    have hgo := ends_of_lists hgo
    have hlisted := hlisted rfl answer rfl
    have hmem : ∀ route, route ∈ listing setting.table ↔ route ∈ setting.routes := fun route => by
      rw [← hlisted, ← routes_of_steady hsteady hreading]
      exact OutboxAnswer.mem_toRoutes_of_meaning hmeaning route
    have hnames : namespacesOf (listing setting.table) = setting.names := namespacesOf_congr hmem
    refine ⟨hmem, ?_⟩
    simp only [Except.map, hlisted] at hgo
    split at hgo
    · rename_i hemp
      obtain ⟨hval, rfl⟩ := Fallible.ends_pure_iff.mp hgo
      have hnil : setting.names = [] := by rw [← hnames, List.isEmpty_iff.mp hemp]; rfl
      refine ⟨[], [], [], setting.batchSize, _, Except.ok.inj hval, ?_, .done _ _⟩
      rw [hnil]
      exact .done _ _
    · obtain ⟨⟨plan, slice⟩, middle, hplan, hexecute⟩ := Fallible.ends_then_ok_iff.mp hgo
      obtain ⟨rfl, rfl, rfl⟩ := ends_planSweep hplan
      obtain ⟨⟨plan', budget', first⟩, last, hfst, hgo⟩ := Fallible.ends_then_ok_iff.mp hexecute
      obtain ⟨second, last', hsnd, hdone⟩ := Fallible.ends_then_ok_iff.mp hgo
      obtain ⟨hval, rfl⟩ := Fallible.ends_pure_iff.mp hdone
      rw [hnames] at hfst
      exact ⟨first, second, plan', budget', last, Except.ok.inj hval, hfst, hsnd⟩

end SweepSetting

/-- **The first pass** leaves what the setting says: of the batch, of the rows, and of each
namespace. -/
theorem SweepSetting.firstPass_dealt {setting : SweepSetting} {history : WorkflowId → List Event}
    {clock : Instant → Prop} {listed : List ClaimScope} {table' : OutboxTable}
    {rows : List OutboxRow} (hsteady : Steady clock setting.now setting.table)
    (h : Fallible.Ends (StoreAnswers history clock)
        (firstPass setting.held setting.slice
      (planWith listed setting.headroom setting.names) setting.batchSize) setting.table
      (.ok (plan', budget', rows)) table') :
    Serves clock setting.now setting.held setting.table table' rows ∧
      budget' = setting.batchSize - rows.length ∧
      table'.claimable setting.now setting.held = setting.afterFirst listed ∧
        budget' = setting.roomLeft listed ∧
      ∀ name, rows.countP (inNamespace name) = setting.firstDealt listed name := by
  obtain ⟨hserves, hbudget, hpass⟩ := serves_of_firstPass hsteady h
  refine ⟨hserves, hbudget, hpass, ?_, fun name => ?_⟩
  · have hlen := hserves.length
    rw [hpass] at hlen
    rw [hbudget]
    exact congrArg _ (Nat.eq_sub_of_add_eq hlen)
  · have hleaves := hserves.leaves name
    rw [hpass] at hleaves
    exact Nat.eq_sub_of_add_eq hleaves

/-- With no budget left the second pass takes nothing. -/
theorem rows_of_secondPass_zero {history : WorkflowId → List Event} {clock : Instant → Prop}
    {held : List WorkflowId} {plan : SweepPlan} {table table' : OutboxTable} {rows : List OutboxRow}
    (h : Fallible.Ends (StoreAnswers history clock) (secondPass held plan 0) table
        (.ok rows) table') : rows = [] := by
  cases plan with
  | nil => exact Except.ok.inj (Fallible.ends_pure_iff.mp h).1
  | cons entry rest => exact Except.ok.inj (Fallible.ends_pure_iff.mp h).1

/-- **Fairness of the sweep**: it claims for every namespace what it is owed, if the first pass
deals that out. Where no route is capped in vain, or the first pass uses up the batch, it does only
then. -/
theorem fair_sweeps (setting : SweepSetting) {history : WorkflowId → List Event}
    {clock : Instant → Prop} {listing : OutboxTable → List ClaimScope} {table' : OutboxTable}
    {rows : List OutboxRow} (hsteady : Steady clock setting.now setting.table)
    (h : Fallible.Ends (Lists listing (StoreAnswers history clock))
        (claimRoundRobin setting.fraction setting.quota setting.batchSize setting.held)
      setting.table (.ok rows) table') :
    (setting.SharesSuffice (listing setting.table) → setting.Fair rows) ∧
      (setting.NoneCappedFirst (listing setting.table) ∨
          setting.roomLeft (listing setting.table) = 0 →
        (setting.Fair rows ↔ setting.SharesSuffice (listing setting.table))) := by
  obtain ⟨hlisted, first, second, plan', budget', middle, rfl, hfst, hsnd⟩ :=
    SweepSetting.ends_sweep hsteady h
  obtain ⟨-, -, -, hroom, hdealt⟩ := SweepSetting.firstPass_dealt hsteady hfst
  have hsufficient : setting.SharesSuffice (listing setting.table) → setting.Fair (first ++ second) := by
    intro hsuffices name hname
    rw [List.countP_append, hdealt]
    exact (hsuffices name hname).trans (Nat.le_add_right _ _)
  refine ⟨hsufficient, fun hcase => ⟨fun hfair => ?_, hsufficient⟩⟩
  rcases Nat.eq_zero_or_pos budget' with rfl | hpos
  · rw [rows_of_secondPass_zero hsnd, List.append_nil] at hfair
    exact fun name hname => (hfair name hname).trans (hdealt name).le
  · exact SweepSetting.sharesSuffice_of_noneCapped (SweepSetting.covered_claimable fun route => (hlisted route).mpr)
      (hcase.resolve_right (hroom ▸ hpos.ne')) (hroom ▸ hpos)

/-! ### A sweep that is not fair -/

/-- The clock shows one instant. -/
def ClockStopped (now reading : Instant) : Prop := reading = now

theorem clockStopped (now : Instant) : ClockStopped now now := rfl

/-- A sweep of three namespaces, of which two have more than one row. -/
def threeNamespaces (batchSize : ℕ) : SweepSetting where
  fraction := .new 1 1
  quota _ := 10
  batchSize := batchSize
  held := []
  table := fiveDue
  now := 0

/-- Their rows, claimed. -/
def claimedRows : List OutboxRow := fiveDue.rows.map (OutboxRow.claim · 0)

/-- What a sweep of them returns. -/
def sweptRows (batchSize : ℕ) : Except StoreError (List OutboxRow) :=
  ((steadyStore (fun _ => []) 0).run (claimRoundRobin (.new 1 1) (fun _ => 10) batchSize [])
      (threeNamespaces batchSize).table).1

theorem ends_threeNamespaces {batchSize : ℕ} {rows : List OutboxRow}
    (h : sweptRows batchSize = .ok rows) :
    ∃ table', Fallible.Ends (Lists (routesAt 0) (StoreAnswers (fun _ => []) (ClockStopped 0)))
      (claimRoundRobin
      (threeNamespaces batchSize).fraction (threeNamespaces batchSize).quota
        (threeNamespaces batchSize).batchSize
      (threeNamespaces batchSize).held) (threeNamespaces batchSize).table (.ok rows) table' := by
  have hends : Fallible.Ends (Lists (routesAt 0) (StoreAnswers (fun _ => []) (ClockStopped 0)))
    (claimRoundRobin (.new 1 1)
      (fun _ => 10) batchSize []) (threeNamespaces batchSize).table (sweptRows batchSize) _ :=
        ends_lists (clockStopped 0) _ _
  rw [h] at hends
  exact ⟨_, hends⟩

/-- A batch of four is one more than the namespaces, and the last one has a row and headroom; it
gets nothing. -/
theorem not_fair_threeNamespaces :
    ∃ rows table', Fallible.Ends (Lists (routesAt 0) (StoreAnswers (fun _ => []) (ClockStopped 0)))
      (claimRoundRobin
      (threeNamespaces 4).fraction (threeNamespaces 4).quota (threeNamespaces 4).batchSize
        (threeNamespaces 4).held)
      (threeNamespaces 4).table (.ok rows) table' ∧
      (threeNamespaces 4).names.length ≤ (threeNamespaces 4).batchSize ∧
        ¬ (threeNamespaces 4).Fair rows := by
  have hrows : sweptRows 4 = .ok (claimedRows.take 4) := by decide +kernel
  obtain ⟨table', hends⟩ := ends_threeNamespaces hrows
  exact ⟨_, table', hends, by decide +kernel, by decide +kernel⟩

/-- A batch of six is enough for what they are owed, and one of four is not. -/
theorem fair_sweeps_threeNamespaces :
    (∃ rows, sweptRows 6 = .ok rows ∧ (threeNamespaces 6).Fair rows) ∧
      ¬ (threeNamespaces 4).SharesSuffice (routesAt 0 (threeNamespaces 4).table) := by
  have hsteady : ∀ batchSize, Steady (ClockStopped 0) (threeNamespaces batchSize).now (threeNamespaces batchSize).table := by
    rintro batchSize _ rfl row -
    rfl
  constructor
  · have hrows : sweptRows 6 = .ok claimedRows := by decide +kernel
    obtain ⟨table', hends⟩ := ends_threeNamespaces hrows
    exact ⟨_, hrows, (fair_sweeps (threeNamespaces 6) (hsteady 6) hends).1 (by decide +kernel)⟩
  · intro hsuffices
    have hrows : sweptRows 4 = .ok (claimedRows.take 4) := by decide +kernel
    obtain ⟨table', hends⟩ := ends_threeNamespaces hrows
    exact absurd ((fair_sweeps (threeNamespaces 4) (hsteady 4) hends).1 hsuffices)
      (by decide +kernel)

/-- A row that two routes admit counts for the first that comes to it: in either order a batch of
three deals out a row of no node and one of a node. -/
def pinnedAndNot : SweepSetting where
  fraction := .new 1 1
  quota _ := 10
  batchSize := 3
  held := []
  table := ⟨[dueRow "a" 0, { dueRow "a" 1 with node := some "n1" }], by decide⟩
  now := 0

example :
    pinnedAndNot.SharesSuffice pinnedAndNot.routes ∧
      pinnedAndNot.SharesSuffice pinnedAndNot.routes.reverse := by
  decide +kernel

end Aion
