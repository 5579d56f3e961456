import Aion.Library.FiniteMaps
import Aion.Library.ParentLinks
import Aion.Library.Result
import Aion.Store.RunChain

/-!
# The order of a run chain

`order_by_parent_chain` puts the runs of a workflow in the order of their parent links. It counts
the runs without a parent, collects the others by their parent, and goes from each run to the one
that continues it, taking that out of the map.

`run_chain_exact`: a history has a run chain exactly when it has no start at all or its starts form
one chain, and the chain then holds the summaries of all runs, each followed by the run that
continues it. Every turn of the loop takes an entry out of the map, so it ends on cyclic links too.
-/

namespace Aion

open ParentLinks FiniteMaps

/-- The run of a summary, and its parent. -/
def RunSummary.link (summary : RunSummary) : Link RunId := (summary.runId, summary.parentRunId)

/-- The run an event starts, and its parent. -/
def startLink? (event : Event) : Option (Link RunId) :=
  match event.body with
  | .workflowStarted _ _ runId parentRunId _ => some (runId, parentRunId)
  | _ => none

/-- The runs that a history starts. -/
def startLinks (history : List Event) : List (Link RunId) := history.filterMap startLink?

/-- The first is the parent of the second. -/
def Continues (a b : RunSummary) : Prop := b.parentRunId = some a.runId

/-! ### The map of children -/

/-- The runs of a map stand under their parents. -/
def Keyed (children : Map RunId RunSummary) : Prop :=
  ∀ parentRunId summary, children.lookup parentRunId = some summary →
    summary.parentRunId = some parentRunId

/-- The summary is in the map. -/
def Held (children : Map RunId RunSummary) (summary : RunSummary) : Prop :=
  ∃ parentRunId, children.lookup parentRunId = some summary

/-- One turn of `childrenByParent`. -/
def addChild (children : Map RunId RunSummary) (summary : RunSummary) :
    Except StoreError (Map RunId RunSummary) :=
  match summary.parentRunId with
  | none => .ok children
  | some parentRunId =>
    if parentRunId ∈ children then .error
      (.backend "run chain contains multiple children for the same parent run")
    else .ok (children.insert parentRunId summary)

theorem childrenByParent_eq (summaries : List RunSummary) :
    childrenByParent summaries = summaries.foldlM addChild ∅ := rfl

section Children

variable {children result : Map RunId RunSummary} {summary other : RunSummary}
  {summaries : List RunSummary} {parentRunId : RunId}

theorem keyed_empty : Keyed ∅ := fun _ _ h => by cases h

theorem not_held_empty (summary : RunSummary) : ¬ Held ∅ summary := by
  rintro ⟨key, h⟩
  cases h

theorem Keyed.erase (h : Keyed children) (runId : RunId) : Keyed (children.erase runId) := by
  intro parentRunId summary hlook
  rw [lookup_erase_eq] at hlook
  split_ifs at hlook
  exact h parentRunId summary hlook

theorem Keyed.insert (h : Keyed children) (hpar : summary.parentRunId = some parentRunId) :
    Keyed (children.insert parentRunId summary) := by
  intro key found hlook
  rw [lookup_insert_eq] at hlook
  split_ifs at hlook with heq
  · rw [← Option.some.inj hlook, hpar, heq]
  · exact h key found hlook

theorem held_insert_iff (hfresh : parentRunId ∉ children) :
    Held (children.insert parentRunId summary) other ↔ other = summary ∨ Held children other := by
  constructor
  · rintro ⟨key, hkey⟩
    rw [lookup_insert_eq] at hkey
    split_ifs at hkey
    · exact .inl (Option.some.inj hkey).symm
    · exact .inr ⟨key, hkey⟩
  · rintro (rfl | ⟨key, hkey⟩)
    · exact ⟨parentRunId, AList.lookup_insert _⟩
    · refine ⟨key, ?_⟩
      rw [lookup_insert_eq, if_neg, hkey]
      rintro rfl
      exact hfresh (AList.lookup_isSome.mp (by rw [hkey]; rfl))

/-- The map of children, from any map on. -/
theorem foldlM_addChild (hkeyed : Keyed children)
    (h : summaries.foldlM addChild children = .ok result) :
    Keyed result ∧ (summaries.filterMap RunSummary.parentRunId).Nodup ∧
      (∀ key ∈ summaries.filterMap RunSummary.parentRunId, key ∉ children) ∧
      ∀ other, Held result other ↔ Held children other ∨ other ∈ summaries ∧
        other.parentRunId ≠ none := by
  induction summaries generalizing children with
  | nil =>
    obtain rfl := Except.ok.inj h
    simp [hkeyed]
  | cons summary summaries ih =>
    rw [List.foldlM_cons, addChild] at h
    cases hpar : summary.parentRunId with
    | none =>
      simp only [hpar] at h
      obtain ⟨hres, hnd, hfresh, hheld⟩ := ih hkeyed h
      rw [List.filterMap_cons_none hpar]
      refine ⟨hres, hnd, hfresh, fun other => (hheld other).trans (or_congr_right ?_)⟩
      rw [List.mem_cons]
      constructor
      · exact fun ⟨hin, hne⟩ => ⟨.inr hin, hne⟩
      · rintro ⟨rfl | hin, hne⟩
        · exact absurd hpar hne
        · exact ⟨hin, hne⟩
    | some parentRunId =>
      simp only [hpar] at h
      split_ifs at h with hmem
      · cases h
      obtain ⟨hres, hnd, hfresh, hheld⟩ := ih (hkeyed.insert hpar) h
      simp only [AList.mem_insert, not_or] at hfresh
      rw [List.filterMap_cons_some hpar]
      refine ⟨hres, List.nodup_cons.mpr ⟨fun hin => (hfresh _ hin).1 rfl, hnd⟩, ?_, fun other => (hheld other).trans ?_⟩
      · exact List.forall_mem_cons.mpr ⟨hmem, fun key hkey => (hfresh key hkey).2⟩
      · rw [held_insert_iff hmem, List.mem_cons]
        have hne : other = summary → other.parentRunId ≠ none := by
          rintro rfl
          simp [hpar]
        tauto

/-- The map is built when no two runs have the same parent. -/
theorem exists_foldlM_addChild (hnd : (summaries.filterMap RunSummary.parentRunId).Nodup)
    (hfresh : ∀ key ∈ summaries.filterMap RunSummary.parentRunId, key ∉ children) :
    ∃ result, summaries.foldlM addChild children = .ok result := by
  induction summaries generalizing children with
  | nil => exact ⟨children, rfl⟩
  | cons summary summaries ih =>
    rw [List.foldlM_cons, addChild]
    cases hpar : summary.parentRunId with
    | none =>
      rw [List.filterMap_cons_none hpar] at hnd hfresh
      exact ih hnd hfresh
    | some parentRunId =>
      rw [List.filterMap_cons_some hpar] at hnd hfresh
      obtain ⟨hparentFresh, hrest⟩ := List.forall_mem_cons.mp hfresh
      obtain ⟨hnot, hnd⟩ := List.nodup_cons.mp hnd
      simp only [if_neg hparentFresh]
      refine ih hnd fun key hkey => ?_
      rw [AList.mem_insert, not_or]
      refine ⟨?_, hrest key hkey⟩
      rintro rfl
      exact hnot hkey

end Children

/-! ### The loop -/

/-- What the loop returns from a run on: all runs of the map behind it, in the order of their parent
links, and none of them seen before. -/
structure Chained (current : RunSummary) (seen : List RunId) (children : Map RunId RunSummary)
    (chain : List RunSummary) : Prop where
  head : chain.head? = some current
  linked : chain.IsChain Continues
  tail : ∀ summary, summary ∈ chain.tail ↔ Held children summary
  names : (chain.map RunSummary.runId).Nodup
  unseen : ∀ summary ∈ chain, summary.runId ∉ seen

section Loop

variable {current child : RunSummary} {seen : List RunId} {children : Map RunId RunSummary}
  {rest chain : List RunSummary}

/-- A chain goes on with the child of its first run. -/
theorem Chained.next (h : Chained current seen children (current :: child :: rest))
    (hkeyed : Keyed children) : children.lookup current.runId = some child := by
  obtain ⟨hfollows, -⟩ := List.isChain_cons_cons.mp h.linked
  obtain ⟨parentRunId, hlook⟩ := (h.tail child).mp List.mem_cons_self
  have hpar := hkeyed parentRunId child hlook
  rw [Continues, hpar] at hfollows
  rwa [← Option.some.inj hfollows]

theorem held_erase_iff {runId : RunId} {summary : RunSummary} :
    Held (children.erase runId) summary ↔ ∃ key, key ≠ runId ∧
      children.lookup key = some summary := by
  refine exists_congr fun key => ?_
  rw [lookup_erase_eq]
  split_ifs with heq <;> simp [heq]

/-- The rest of a chain is one of the child, with that taken out of the map. -/
theorem Chained.behind (h : Chained current seen children (current :: rest))
    (hkeyed : Keyed children) (hchild : children.lookup current.runId = some child) :
    Chained child (current.runId :: seen) (children.erase current.runId) rest := by
  have hpar := hkeyed _ _ hchild
  obtain ⟨second, rest, rfl⟩ : ∃ second rest', rest = second :: rest' :=
    List.exists_cons_of_ne_nil (List.ne_nil_of_mem ((h.tail child).mpr ⟨_, hchild⟩))
  obtain rfl : second = child := Option.some.inj ((h.next hkeyed).symm.trans hchild)
  obtain ⟨hfresh, hnd⟩ := List.nodup_cons.mp h.names
  refine ⟨rfl, (List.isChain_cons_cons.mp h.linked).2, fun summary =>
      ?_, hnd, fun summary hin => ?_⟩
  · rw [held_erase_iff]
    constructor
    · intro hin
      obtain ⟨key, hlook⟩ := (h.tail summary).mp (List.mem_cons_of_mem _ hin)
      refine ⟨key, ?_, hlook⟩
      rintro rfl
      obtain rfl : second = summary := Option.some.inj (hchild.symm.trans hlook)
      exact (List.nodup_cons.mp hnd).1 (List.mem_map_of_mem hin)
    · rintro ⟨key, hne, hlook⟩
      refine (List.mem_cons.mp ((h.tail summary).mpr ⟨key, hlook⟩)).resolve_left ?_
      rintro rfl
      exact hne (Option.some.inj ((hkeyed key _ hlook).symm.trans hpar))
  · rw [List.mem_cons, not_or]
    refine ⟨fun heq => hfresh ?_, h.unseen summary (List.mem_cons_of_mem _ hin)⟩
    rw [← heq]
    exact List.mem_map_of_mem hin

/-- A run goes before a chain of its child. -/
theorem Chained.cons (h : Chained child (current.runId :: seen) (children.erase current.runId) rest)
    (hkeyed : Keyed children) (hchild : children.lookup current.runId = some child)
    (hunseen : current.runId ∉ seen) : Chained current seen children (current :: rest) := by
  obtain ⟨tail, rfl⟩ : ∃ tail, rest = child :: tail := List.head?_eq_some_iff.mp h.head
  refine ⟨rfl, List.isChain_cons_cons.mpr ⟨hkeyed _ _ hchild, h.linked⟩, fun summary => ?_, ?_, ?_⟩
  · rw [List.tail_cons, List.mem_cons]
    constructor
    · rintro (rfl | hin)
      · exact ⟨_, hchild⟩
      · obtain ⟨key, -, hlook⟩ := held_erase_iff.mp ((h.tail summary).mp hin)
        exact ⟨key, hlook⟩
    · rintro ⟨key, hlook⟩
      by_cases heq : key = current.runId
      · exact .inl (Option.some.inj ((heq ▸ hlook).symm.trans hchild))
      · exact .inr ((h.tail summary).mpr (held_erase_iff.mpr ⟨key, heq, hlook⟩))
  · refine List.nodup_cons.mpr ⟨fun hin => ?_, h.names⟩
    obtain ⟨summary, hsummary, heq⟩ := List.mem_map.mp hin
    exact h.unseen summary hsummary (heq ▸ List.mem_cons_self)
  · exact List.forall_mem_cons.mpr
      ⟨hunseen, fun summary hin => fun hseen => h.unseen summary hin (List.mem_cons_of_mem _ hseen)⟩

/-- The chain of a run without a child ends with it, and nothing is left in the map. -/
theorem Chained.alone (h : Chained current seen children (current :: rest))
    (hkeyed : Keyed children) (hnone : children.lookup current.runId = none) :
    rest = [] ∧ ∀ summary, ¬ Held children summary := by
  cases rest with
  | nil => exact ⟨rfl, fun summary hheld => by simpa using (h.tail summary).mpr hheld⟩
  | cons child rest =>
    rw [h.next hkeyed] at hnone
    cases hnone

/-- The loop returns the chain of all runs, if there is one, and fails else. -/
theorem followChain_eq_ok_iff (hkeyed : Keyed children) :
    followChain current seen children = .ok chain ↔ Chained current seen children chain := by
  induction current, seen, children using followChain.induct generalizing chain with
  | case1 current seen children hseen =>
    rw [followChain, if_pos hseen]
    refine iff_of_false (by simp) fun h => ?_
    obtain ⟨rest, rfl⟩ := List.head?_eq_some_iff.mp h.head
    exact h.unseen current List.mem_cons_self hseen
  | case2 current seen children hunseen child hchild ih =>
    rw [followChain, if_neg hunseen]
    split
    · rename_i found hfd
      obtain rfl : child = found := Option.some.inj (hchild.symm.trans hfd)
      constructor
      · intro h
        cases hrest : followChain child (current.runId :: seen) (children.erase current.runId) with
        | error error =>
          rw [hrest] at h
          cases h
        | ok rest =>
          rw [hrest] at h
          obtain rfl := Except.ok.inj h
          exact ((ih (hkeyed.erase _)).mp hrest).cons hkeyed hchild hunseen
      · intro h
        obtain ⟨rest, rfl⟩ := List.head?_eq_some_iff.mp h.head
        rw [(ih (hkeyed.erase _)).mpr (h.behind hkeyed hchild)]
        rfl
    · rename_i hnone
      rw [hchild] at hnone
      cases hnone
  | case3 current seen children hunseen hnone hkeys =>
    rw [followChain, if_neg hunseen]
    split
    · rename_i found hfd
      rw [hnone] at hfd
      cases hfd
    rw [if_pos hkeys]
    refine iff_of_false (by simp) fun h => ?_
    obtain ⟨rest, rfl⟩ := List.head?_eq_some_iff.mp h.head
    -- a run that is left in the map would be behind the first
    obtain ⟨key, hkey⟩ := List.exists_mem_of_ne_nil _ hkeys
    obtain ⟨summary, hlook⟩ :=
      Option.isSome_iff_exists.mp (AList.lookup_isSome.mpr (AList.mem_keys.mpr hkey))
    exact (h.alone hkeyed hnone).2 summary ⟨key, hlook⟩
  | case4 current seen children hunseen hnone hkeys =>
    rw [followChain, if_neg hunseen]
    split
    · rename_i found hfd
      rw [hnone] at hfd
      cases hfd
    rw [if_neg hkeys]
    have hemp : ∀ summary, ¬ Held children summary := by
      rintro summary ⟨key, hlook⟩
      have hmem : key ∈ children.keys := AList.mem_keys.mpr (AList.lookup_isSome.mp (by rw [hlook]; rfl))
      rw [not_not.mp hkeys] at hmem
      cases hmem
    constructor
    · intro h
      obtain rfl := Except.ok.inj h
      exact ⟨rfl, .singleton _, fun summary => iff_of_false (by simp) (hemp summary),
          List.nodup_singleton _, by simpa using hunseen⟩
    · intro h
      obtain ⟨rest, rfl⟩ := List.head?_eq_some_iff.mp h.head
      rw [(h.alone hkeyed hnone).1]

end Loop

/-! ### Ordering the runs of a workflow -/

section Order

variable {summaries chain : List RunSummary}

/-- Runs with different parents, one of them without, are different. -/
theorem nodup_of_parents
    (hroots : (summaries.filter fun summary => summary.parentRunId.isNone).length = 1)
    (hparents : (summaries.filterMap RunSummary.parentRunId).Nodup) : summaries.Nodup := by
  refine List.nodup_iff_sublist.mpr fun summary htwice => ?_
  cases hpar : summary.parentRunId with
  | none =>
    have hlen := (htwice.filter fun summary => summary.parentRunId.isNone).length_le
    simp [hpar, hroots] at hlen
  | some parentRunId =>
    have hsublist := htwice.filterMap RunSummary.parentRunId
    simp only [List.filterMap_cons_some hpar, List.filterMap_nil] at hsublist
    exact List.nodup_iff_sublist.mp hparents parentRunId hsublist

/-- What is returned is one chain of all runs. -/
theorem isParentChain_of_order (hne : summaries ≠ [])
    (h : orderByParentChain summaries = .ok chain) :
    chain.Perm summaries ∧ IsParentChain (chain.map RunSummary.link) := by
  rw [orderByParentChain, if_neg hne] at h
  dsimp only at h
  split_ifs at h with hroots
  obtain ⟨children, hchildren, h⟩ := Result.bind_eq_ok h
  rw [not_not] at hroots
  obtain ⟨root, hroot⟩ := List.length_eq_one_iff.mp hroots
  rw [hroot] at h
  obtain ⟨hres, hparents, -, hheld⟩ :=
    foldlM_addChild keyed_empty (childrenByParent_eq summaries ▸ hchildren)
  have hchained : Chained root [] children chain := (followChain_eq_ok_iff hres).mp h
  obtain ⟨rest, rfl⟩ := List.head?_eq_some_iff.mp hchained.head
  have hrootMem : root ∈ summaries ∧ root.parentRunId.isNone :=
    List.mem_filter.mp (hroot ▸ List.mem_singleton_self root)
  refine ⟨(List.perm_ext_iff_of_nodup hchained.names.of_map (nodup_of_parents hroots hparents)).mpr
      fun summary => ?_, ?_, ?_, ?_⟩
  · rw [List.mem_cons]
    change _ ∨ summary ∈ (root :: rest).tail ↔ _
    rw [hchained.tail summary, hheld summary, or_iff_right (not_held_empty summary)]
    constructor
    · rintro (rfl | ⟨hin, -⟩)
      · exact hrootMem.1
      · exact hin
    · intro hin
      cases hpar : summary.parentRunId with
      | none =>
        have : summary ∈ [root] := hroot ▸ List.mem_filter.mpr ⟨hin, by rw [hpar]; rfl⟩
        exact .inl (List.mem_singleton.mp this)
      | some parentRunId => exact .inr ⟨hin, by simp⟩
  · rw [List.map_map]
    exact hchained.names
  · exact ⟨root.link, rfl, Option.isNone_iff_eq_none.mp hrootMem.2⟩
  · exact (List.isChain_map RunSummary.link).mpr hchained.linked

/-- The first run of a chain is the only one without a parent. -/
theorem roots_of_isChain {first : RunSummary} {rest : List RunSummary}
    (hperm : (first :: rest).Perm summaries) (hnone : first.parentRunId = none)
    (hrest : ∀ summary ∈ rest, summary.parentRunId ≠ none) :
    summaries.filter (fun summary => summary.parentRunId.isNone) = [first] := by
  refine List.perm_singleton.mp ((hperm.symm.filter _).trans ?_)
  have hfiltered : rest.filter (fun summary => summary.parentRunId.isNone) = [] :=
    List.filter_eq_nil_iff.mpr fun summary hin => by simpa using hrest summary hin
  rw [List.filter_cons_of_pos (by simp [hnone]), hfiltered]

/-- A chain of all runs is returned. -/
theorem order_of_isParentChain (hne : summaries ≠ []) (hperm : chain.Perm summaries)
    (hchain : IsParentChain (chain.map RunSummary.link)) :
    orderByParentChain summaries = .ok chain := by
  have hsingle := hchain.singleChain (hperm.map RunSummary.link)
  obtain ⟨link, hlink, hnone⟩ := hchain.root
  obtain ⟨first, rest, rfl, rfl⟩ : ∃ first rest, chain = first :: rest ∧ first.link = link := by
    cases chain with
    | nil => cases hlink
    | cons first rest => exact ⟨first, rest, rfl, Option.some.inj hlink⟩
  have hrest : ∀ summary ∈ rest, summary.parentRunId ≠ none := fun summary hin =>
    parent_ne_none hchain.linked summary.link (List.mem_map_of_mem hin)
  have hparents : (summaries.filterMap RunSummary.parentRunId).Nodup := by
    have := hsingle.parents
    rwa [List.filterMap_map] at this
  obtain ⟨children, hchildren⟩ :=
    @exists_foldlM_addChild ∅ _ hparents fun _ _ => AList.notMem_empty _
  obtain ⟨hres, -, -, hheld⟩ := foldlM_addChild keyed_empty hchildren
  have hnames : ((first :: rest).map RunSummary.runId).Nodup := by
    have := hchain.names
    rwa [List.map_map] at this
  have hchained : Chained first [] children (first :: rest) := by
    refine ⟨rfl, (List.isChain_map RunSummary.link).mp hchain.linked, fun summary => ?_, hnames, by simp⟩
    rw [hheld summary, or_iff_right (not_held_empty summary), ← hperm.mem_iff, List.tail_cons,
      List.mem_cons]
    constructor
    · exact fun hin => ⟨.inr hin, hrest summary hin⟩
    · rintro ⟨rfl | hin, hpar⟩
      · exact absurd hnone hpar
      · exact hin
  rw [orderByParentChain, if_neg hne]
  simp only [roots_of_isChain hperm hnone hrest, List.length_singleton, ne_eq, not_true_eq_false,
    if_false, childrenByParent_eq,
    hchildren]
  exact (followChain_eq_ok_iff hres).mpr hchained

/-- The runs are ordered exactly when some order of them is a parent chain, and this is the
order. -/
theorem orderByParentChain_eq_ok_iff (hne : summaries ≠ []) :
    orderByParentChain summaries = .ok chain ↔ chain.Perm summaries ∧
      IsParentChain (chain.map RunSummary.link) := by
  constructor
  · exact isParentChain_of_order hne
  · rintro ⟨hperm, hchain⟩
    exact order_of_isParentChain hne hperm hchain

end Order

/-! ### The slices of a history -/

/-- A slice for each start. -/
theorem cutAtStarts_spec (events : List Event) :
    ∃ summaries, (cutAtStarts events).2.mapM projectRunSummary = .ok summaries ∧
      summaries.map RunSummary.link = startLinks events := by
  induction events with
  | nil => exact ⟨[], rfl, rfl⟩
  | cons event rest ih =>
    obtain ⟨summaries, hmap, hlinks⟩ := ih
    obtain ⟨envelope, body⟩ := event
    cases body with
    | workflowStarted workflowType input runId parentRunId packageVersion =>
      refine ⟨_ :: summaries, Result.mapM_cons_of_ok rfl hmap, ?_⟩
      rw [List.map_cons, hlinks]
      rfl
    | _ => exact ⟨summaries, hmap, hlinks⟩

/-- **Run-chain projection.** A history has a run chain exactly when it has no start or its starts
form one chain; the chain is then made of the summaries of all runs, begins with the one without a
parent and goes from each run to the one it is the parent of. -/
theorem run_chain_exact (history : List Event) :
    ((∃ chain, runChainFromHistory history = .ok chain) ↔ startLinks history = [] ∨
        SingleChain (startLinks history)) ∧
    ∀ chain, runChainFromHistory history = .ok chain →
      (∃ summaries, (cutAtStarts (InMemoryStore.historyInSequenceOrder history)).2.mapM
          projectRunSummary = .ok summaries ∧
        chain.Perm summaries) ∧
      (∀ first ∈ chain.head?, first.parentRunId = none) ∧ chain.IsChain Continues := by
  obtain ⟨summaries, hmap, hlinks⟩ :=
    cutAtStarts_spec (InMemoryStore.historyInSequenceOrder history)
  have hperm : (summaries.map RunSummary.link).Perm (startLinks history) := by
    rw [hlinks]
    exact (List.perm_insertionSort _ _).filterMap startLink?
  have hrun : runChainFromHistory history = orderByParentChain summaries := by
    rw [runChainFromHistory, hmap]
    rfl
  rw [hrun]
  by_cases hne : summaries = []
  · have hnone : startLinks history = [] := by simpa [hne] using hperm
    rw [hne, hnone]
    refine ⟨iff_of_true ⟨[], rfl⟩ (.inl rfl), fun chain hchain => ?_⟩
    obtain rfl := Except.ok.inj hchain
    exact ⟨⟨[], by rw [hmap, hne], .nil⟩, by simp, .nil⟩
  · have hsome : startLinks history ≠ [] := fun hnone => hne (by simpa [hnone] using hperm)
    constructor
    · rw [or_iff_right hsome]
      simp only [orderByParentChain_eq_ok_iff hne]
      constructor
      · rintro ⟨chain, hchain, hpar⟩
        exact hpar.singleChain ((hchain.map RunSummary.link).trans hperm)
      · intro hsingle
        obtain ⟨links, hlinksPerm, hpar⟩ := singleChain_iff.mp hsingle
        -- the order of the links is one of the summaries
        obtain ⟨chain, rfl, hchain⟩ := (congrFun (congrFun (List.eq_map_comp_perm RunSummary.link) links) summaries).mpr
          (hlinksPerm.trans hperm.symm)
        exact ⟨chain, hchain, hpar⟩
    · intro chain hchain
      obtain ⟨hchainPerm, hpar⟩ := (orderByParentChain_eq_ok_iff hne).mp hchain
      refine ⟨⟨summaries, hmap, hchainPerm⟩, fun first hfst => ?_, (List.isChain_map RunSummary.link).mp hpar.linked⟩
      obtain ⟨link, hlink, hroot⟩ := hpar.root
      rw [List.head?_map, hfst] at hlink
      obtain rfl := Option.some.inj hlink
      exact hroot

/-- A history without a start has a chain, though none of its runs is without a parent. -/
theorem startless_chain : runChainFromHistory [] = .ok [] ∧ ¬ SingleChain (startLinks []) := by
  refine ⟨rfl, fun h => ?_⟩
  obtain ⟨link, ⟨hlink, -⟩, -⟩ := h.root
  cases hlink

end Aion
