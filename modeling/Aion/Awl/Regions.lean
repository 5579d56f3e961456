import Aion.Awl.StepGraph
import Aion.Library.Brackets
import Aion.Library.Sorting

/-!
# Per-item regions

A `distribute` or `sequence` step opens a region that runs once for each item, a `collect` step
closes the nearest one that is open, and the steps strictly between are its members. The
checker places the two kinds of statements (`structureErrors`), forms the regions
(`form`) and refuses routes and `after` dependencies that cross the boundary of one
(`checkEdges`). `graphErrors` is the whole graph pass, but for what it says about collected
bindings.

`regions_confined`: in a flow the pass accepts, the regions nest, each opening and each
closing step belongs to exactly one, and control enters a region through its opening step only
and leaves it through its `collect` only.
-/

namespace Aion.Awl

open Brackets Digraph

/-- The verb as written. -/
def DeliveryVerb.asWord : DeliveryVerb → String
  | .distribute => "distribute"
  | .sequence => "sequence"

/-- The first `distribute` or `sequence` at the top level of a step. -/
def distributeOf (step : Step) : Option DistributeStmt :=
  step.body.findSome? fun statement =>
    match statement with
    | .distribute distribute => some distribute
    | _ => none

/-- The first `collect` at the top level of a step. -/
def collectOf (step : Step) : Option CollectStmt :=
  step.body.findSome? fun statement =>
    match statement with
    | .collect collect => some collect
    | _ => none

/-! ### Placement -/

/-- Nothing stands in the step but one statement. -/
def alone (step : Step) : Bool :=
  step.body.length = 1 && step.outcomes.isEmpty && step.onFailure.isNone && step.maxVisits.isNone

/-- The rules of a step on where its delivery statements stand. -/
def placementErrors (step : Step) : List CheckError :=
  step.body.zipIdx.filterMap fun entry =>
    match entry with
    | (.distribute distribute, _) =>
      if alone step then none else some ⟨distribute.span, .notAlone distribute.verb.asWord step.name⟩
    | (.collect collect, position) =>
      if position ≠ 0 then some ⟨collect.span, .collectNotFirst step.name⟩ else none
    | _ => none

/-- A boundary of a region is refused in any block. -/
def regionContextError (span : Span) (verb : String) : Option String → List CheckError
  | some context => [⟨span, .nestedRegion verb context⟩]
  | none => []

mutual

/-- The context is `none` at the top level of a step, and names the block anywhere deeper. -/
def rejectNested : Option String → List Statement → List CheckError
  | _, [] => []
  | context, statement :: rest => rejectNestedIn context statement ++ rejectNested context rest

/-- Delivery statements below the top of a step. -/
def rejectNestedIn : Option String → Statement → List CheckError
  | context, .distribute distribute =>
    regionContextError distribute.span distribute.verb.asWord context
  | context, .collect collect => regionContextError collect.span "collect" context
  | _, .fork ⟨_, _, body, _⟩ => rejectNested (some "a `fork` branch") body
  | _, .loop ⟨_, _, _, _, _, body, _, _⟩ => rejectNested (some "a `loop` body") body
  | _, .subStep ⟨_, _, _, _, body, none, _, _⟩ => rejectNested (some "a substep") body
  | _, .subStep ⟨_, _, _, _, body, some ⟨_, failure⟩, _, _⟩ =>
    rejectNested (some "a substep") body ++ rejectNested (some "an `on failure` block") failure
  | _, .call _ => []
  | _, .spawn _ => []
  | _, .pipe _ => []
  | _, .wait _ => []
  | _, .sleep _ => []
  | _, .route _ => []

end

/-- A matched region; its members are the steps strictly inside. -/
abbrev Region (n : ℕ) := Brackets.Bracket (Fin n)

namespace Flow

variable (flow : Flow)

/-- The placement rules, of every step. -/
def structureErrors : List CheckError :=
  flow.steps.flatMap fun step =>
    placementErrors step ++ rejectNested none step.body ++
      match step.onFailure with
      | none => []
      | some onFailure => rejectNested (some "an `on failure` block") onFailure.body

/-! ### Formation -/

/-- What a step is to the regions. -/
def mark (position : Fin flow.count) : Mark :=
  if (distributeOf (flow.steps.get position)).isSome then .opening
  else if (collectOf (flow.steps.get position)).isSome then .closing
  else .other

/-- The walk over the steps in document order. -/
def brackets : State (Fin flow.count) := scan flow.mark (List.finRange flow.count)

/-- The regions in the order of their opening steps, and what is reported about steps that
open or close none. -/
def form : List (Region flow.count) × List CheckError :=
  (flow.brackets.matched.insertionSort
      (Sorting.lexBy Brackets.Bracket.opening Brackets.Bracket.closing),
    (flow.brackets.stray.filterMap fun position =>
        (collectOf (flow.steps.get position)).map fun collect =>
          ⟨collect.span, .closesNoRegion (flow.steps.get position).name⟩) ++
      flow.brackets.stack.reverse.filterMap fun position =>
        (distributeOf (flow.steps.get position)).map fun distribute =>
          ⟨distribute.span, .neverCollected distribute.verb.asWord⟩)

/-! ### Edges across a boundary -/

/-- The table of the edge check: of two steps with one name it holds the earlier. -/
def firstIndex (name : String) : Option (Fin flow.count) := siblingIndex flow.steps name

/-- A route may not cross a region's border. -/
def checkRouteEdge (region : Region flow.count) (source : Fin flow.count) (name : String)
    (span : Span) : List CheckError :=
  let openName := (flow.steps.get region.opening).name
  let closeName := (flow.steps.get region.closing).name
  if region.Inside source then
    match flow.firstIndex name with
    | some target =>
      if region.Inside target ∨ target = region.closing then [] else [⟨span, .leavesRegion name openName closeName⟩]
    | none => if name ∈ flow.outcomes then [⟨span, .leavesRegion name openName closeName⟩] else []
  else
    match flow.firstIndex name with
    | some target =>
      if region.Inside target then [⟨span, .entersRegion name openName⟩]
      else if target = region.closing then [⟨span, .routesToCollect closeName openName⟩]
      else []
    | none => []

/-- The source is the step that waits, the target the one it waits for. -/
def checkAfterEdge (region : Region flow.count) (source target : Fin flow.count) (span : Span) :
    List CheckError :=
  if region.Inside source ↔ region.Inside target then []
  else if region.Inside source ∧ target = region.opening then []
  else [⟨span, .afterCrossesRegion (flow.steps.get region.opening).name
      (flow.steps.get region.closing).name⟩]

/-- No edge crosses a region's border. -/
def checkEdges (regions : List (Region flow.count)) : List CheckError :=
  (List.finRange flow.count).flatMap fun source =>
    ((collectRouteNames (flow.steps.get source)).flatMap fun route =>
        regions.flatMap fun region => flow.checkRouteEdge region source route.1 route.2) ++
      (flow.steps.get source).after.flatMap fun dependency =>
        match flow.firstIndex dependency.name with
        | some target => regions.flatMap fun region => flow.checkAfterEdge region source target dependency.span
        | none => []

/-- What the graph pass reports. Past a cycle of `after` dependencies it looks at no edges. -/
def graphErrors : List CheckError :=
  flow.nameErrors ++ flow.structureErrors ++ flow.form.2 ++ flow.afterErrors ++
    match findAfterCycle flow.after with
    | some cycle => reportAfterCycle flow.steps.get cycle
    | none =>
      flow.reachabilityErrors ++ flow.successorErrors ++ (checkRouteCycles flow.edges).1 ++
        checkSubstepCycles flow.steps ++ flow.checkEdges flow.form.1

end Flow

/-! ### What an accepted flow has -/

section Accepted

variable {flow : Flow}

/-- The errors an accepted flow does not have. -/
structure Flow.Accepted (flow : Flow) : Prop where
  names : flow.nameErrors = []
  placement : flow.structureErrors = []
  formation : flow.form.2 = []
  crossings : flow.checkEdges flow.form.1 = []

theorem Flow.accepted_of_graphErrors (h : flow.graphErrors = []) : flow.Accepted := by
  simp only [Flow.graphErrors, List.append_eq_nil_iff] at h
  obtain ⟨⟨⟨⟨hnames, hstructure⟩, hform⟩, -⟩, hrest⟩ := h
  refine ⟨hnames, hstructure, hform, ?_⟩
  cases hcycle : findAfterCycle flow.after with
  | some cycle =>
    obtain ⟨span, names, heq⟩ : ∃ span names, reportAfterCycle flow.steps.get cycle =
      [⟨span, .afterCycle names⟩] :=
      reportAfterCycle_of_isCycle (findAfterCycle_isCycle hcycle)
    simp [hcycle, heq] at hrest
  | none =>
    simp only [hcycle, List.append_eq_nil_iff] at hrest
    exact hrest.2

variable {region : Region flow.count} {statements : List Statement}
  {v source u w : Fin flow.count} {context : Option String} {step : Step}

/-- With no name used twice, both tables of names agree. -/
theorem Flow.Accepted.firstIndex (h : flow.Accepted) {name : String}
    (hindex : flow.index name = some v) : flow.firstIndex name = some v := by
  have hname : (flow.steps.get v).name = name := by simpa using List.find?_some hindex
  have hfd : (siblingIndex flow.steps name).isSome := by
    rw [siblingIndex, List.find?_isSome]
    exact ⟨v, List.mem_finRange v, by simpa using hname⟩
  obtain ⟨w, hw⟩ := Option.isSome_iff_exists.mp hfd
  have hwname : (flow.steps.get w).name = name := by simpa using List.find?_some hw
  -- Were they two steps, the later would have been reported.
  have hdist : ∀ {a b : Fin flow.count}, a < b → (flow.steps.get a).name ≠ (flow.steps.get b).name := by
    intro a b hab hsame
    have hearl : flow.steps.get a ∈ flow.steps.take b := by
      rw [List.mem_take_iff_getElem]
      exact ⟨a, lt_min hab a.isLt, rfl⟩
    have hb := List.flatMap_eq_nil_iff.mp h.names b (List.mem_finRange b)
    rw [List.append_eq_nil_iff, if_pos (by simpa using ⟨_, hearl, hsame⟩)] at hb
    exact List.cons_ne_nil _ _ hb.1
  rcases lt_trichotomy v w with hvw | rfl | hvw
  · exact absurd (hname.trans hwname.symm) (hdist hvw)
  · exact hw
  · exact absurd (hwname.trans hname.symm) (hdist hvw)

/-! ### Regions of an accepted flow -/

theorem Flow.mem_form : region ∈ flow.form.1 ↔ region ∈ flow.brackets.matched :=
  List.mem_insertionSort _

theorem Flow.brackets_matched (flow : Flow) :
    Matched flow.mark (List.finRange flow.count) flow.brackets :=
  scan_matched (List.pairwise_lt_finRange _)

theorem Flow.form_apart (flow : Flow) : flow.form.1.Pairwise Brackets.Bracket.Apart :=
  (List.perm_insertionSort _ _).symm.pairwise flow.brackets_matched.apart fun h => h.symm

theorem Flow.opening_lt_closing (h : region ∈ flow.form.1) : region.opening < region.closing :=
  flow.brackets_matched.ordered region (Flow.mem_form.mp h)

/-- A step with a `distribute` or `sequence` is an opening. -/
theorem Flow.mark_opening_iff :
    flow.mark v = .opening ↔ (distributeOf (flow.steps.get v)).isSome = true := by
  unfold Flow.mark
  split_ifs <;> simp_all

theorem Flow.Accepted.stack (h : flow.Accepted) : flow.brackets.stack = [] := by
  have hreported := (List.append_eq_nil_iff.mp h.formation).2
  refine List.eq_nil_iff_forall_not_mem.mpr fun v hv => ?_
  have hopen := ((flow.brackets_matched.mem_openings v).mp (List.mem_append_right _ hv)).2
  obtain ⟨distribute, hdistr⟩ := Option.isSome_iff_exists.mp (Flow.mark_opening_iff.mp hopen)
  have hnone := List.filterMap_eq_nil_iff.mp hreported v (List.mem_reverse.mpr hv)
  rw [hdistr] at hnone
  exact Option.some_ne_none _ hnone

theorem Flow.Accepted.stray (h : flow.Accepted) : flow.brackets.stray = [] := by
  have hreported := (List.append_eq_nil_iff.mp h.formation).1
  refine List.eq_nil_iff_forall_not_mem.mpr fun v hv => ?_
  have hclosing := ((flow.brackets_matched.mem_closings v).mp (List.mem_append_right _ hv)).2
  have hcollect : (collectOf (flow.steps.get v)).isSome = true := by
    unfold Flow.mark at hclosing
    split_ifs at hclosing with hdistr hcollect
    exact hcollect
  obtain ⟨collect, hcollect⟩ := Option.isSome_iff_exists.mp hcollect
  have hnone := List.filterMap_eq_nil_iff.mp hreported v hv
  rw [hcollect] at hnone
  exact Option.some_ne_none _ hnone

theorem Flow.Accepted.opens_one (h : flow.Accepted)
    (hv : (distributeOf (flow.steps.get v)).isSome = true) :
    ∃! region, region ∈ flow.form.1 ∧ region.opening = v := by
  simp only [Flow.mem_form]
  exact flow.brackets_matched.existsUnique_opening h.stack (List.mem_finRange v)
    (Flow.mark_opening_iff.mpr hv)

/-- A statement in a step that `placementErrors` passes. -/
theorem Flow.Accepted.placed (h : flow.Accepted) : placementErrors (flow.steps.get v) = [] := by
  have hstep := List.flatMap_eq_nil_iff.mp h.placement _ (List.get_mem flow.steps v)
  exact (List.append_eq_nil_iff.mp (List.append_eq_nil_iff.mp hstep).1).1

/-- A step that opens a region holds nothing else, so it closes none. -/
theorem eq_singleton_of_distributeOf {distribute : DistributeStmt}
    (hplaced : placementErrors step = []) (h : distributeOf step = some distribute) :
    step.body = [.distribute distribute] := by
  obtain ⟨statement, hmem, hstatement⟩ := List.exists_of_findSome?_eq_some h
  split at hstatement
  case h_2 => simp at hstatement
  case h_1 found =>
    rw [Option.some.injEq] at hstatement
    subst hstatement
    obtain ⟨position, hpos, hget⟩ := List.mem_iff_getElem.mp hmem
    have hent : (Statement.distribute found, position) ∈ step.body.zipIdx := by
      rw [List.mk_mem_zipIdx_iff_getElem?, List.getElem?_eq_getElem hpos, hget]
    have hnone := List.filterMap_eq_nil_iff.mp hplaced _ hent
    have halone : alone step = true := by
      by_contra halone
      simp [halone] at hnone
    simp only [alone, Bool.and_eq_true, decide_eq_true_eq] at halone
    obtain ⟨only, honly⟩ := List.length_eq_one_iff.mp halone.1.1.1
    rw [honly, List.mem_singleton] at hmem
    rw [honly, hmem]

theorem Flow.Accepted.closes_one (h : flow.Accepted)
    (hv : (collectOf (flow.steps.get v)).isSome = true) :
    ∃! region, region ∈ flow.form.1 ∧ region.closing = v := by
  have hnot : ¬ (distributeOf (flow.steps.get v)).isSome = true := by
    intro hdistr
    obtain ⟨distribute, hdistr⟩ := Option.isSome_iff_exists.mp hdistr
    have hbody := eq_singleton_of_distributeOf h.placed hdistr
    rw [collectOf, hbody] at hv
    exact Bool.false_ne_true hv
  have hmark : flow.mark v = .closing := by
    rw [Flow.mark, if_neg hnot, if_pos hv]
  simp only [Flow.mem_form]
  exact flow.brackets_matched.existsUnique_closing h.stray (List.mem_finRange v) hmark

/-! ### Nothing nested -/

/-- A statement that opens or closes a region. -/
def Statement.isBoundary : Statement → Bool
  | .distribute _ => true
  | .collect _ => true
  | _ => false

theorem mem_rejectNested {error : CheckError} :
    error ∈ rejectNested context statements ↔ ∃ statement ∈ statements,
      error ∈ rejectNestedIn context statement := by
  induction statements with
  | nil => simp [rejectNested]
  | cons statement rest ih => simp [rejectNested, ih]

theorem rejectNested_eq_nil :
    rejectNested context statements = [] ↔ ∀ statement ∈ statements,
      rejectNestedIn context statement = [] := by
  simp only [List.eq_nil_iff_forall_not_mem, mem_rejectNested]
  grind

/-- The lists right inside a statement are gone through in some context. -/
theorem rejectNested_of_inside {outer : Statement}
    (hins : Inside outer statements) (h : rejectNestedIn context outer = []) :
    ∃ block, rejectNested (some block) statements = [] := by
  induction hins generalizing context with
  | fork fork =>
    cases fork
    exact ⟨_, by simpa [rejectNestedIn] using h⟩
  | loop looped =>
    cases looped
    exact ⟨_, by simpa [rejectNestedIn] using h⟩
  | body sub =>
    obtain ⟨_, _, _, _, body, onFailure, _, _⟩ := sub
    cases onFailure with
    | none => exact ⟨_, by simpa [rejectNestedIn] using h⟩
    | some onFailure =>
      cases onFailure
      rw [rejectNestedIn, List.append_eq_nil_iff] at h
      exact ⟨_, h.1⟩
  | @failure sub onFailure hsome =>
    obtain ⟨_, _, _, _, body, _, _, _⟩ := sub
    cases hsome
    cases onFailure
    rw [rejectNestedIn, List.append_eq_nil_iff] at h
    exact ⟨_, h.2⟩
  | deeper _ hmem _ ihbetween ihinner =>
    obtain ⟨block, hblock⟩ := ihbetween h
    exact ihinner (rejectNested_eq_nil.mp hblock _ hmem)

theorem not_isBoundary_of_rejectNested {block : String} {statement : Statement}
    (h : rejectNested (some block) statements = []) (hmem : statement ∈ statements) :
    statement.isBoundary = false := by
  have hnone := rejectNested_eq_nil.mp h statement hmem
  cases statement with
  | distribute distribute => simp [rejectNestedIn, regionContextError] at hnone
  | collect collect => simp [rejectNestedIn, regionContextError] at hnone
  | _ => rfl

/-- Below the statements of a step, and in its `on failure` block, no statement opens or closes a
region. -/
theorem Flow.Accepted.nothing_nested (h : flow.Accepted) (hstep : step ∈ flow.steps) :
    (∀ outer ∈ step.body, ∀ statements, Inside outer statements → ∀ statement ∈ statements,
        statement.isBoundary = false) ∧
      ∀ onFailure, step.onFailure = some onFailure → ∀ statement ∈ onFailure.body,
        statement.isBoundary = false ∧
        ∀ statements, Inside statement statements → ∀ deeper ∈ statements,
      deeper.isBoundary = false := by
  have hplaced := List.flatMap_eq_nil_iff.mp h.placement step hstep
  simp only [List.append_eq_nil_iff] at hplaced
  obtain ⟨⟨-, hbody⟩, hfail⟩ := hplaced
  refine ⟨fun outer houter statements hins statement hmem =>
      ?_, fun onFailure hsome outer houter => ⟨?_, ?_⟩⟩
  · obtain ⟨block, hblock⟩ :=
      rejectNested_of_inside hins (rejectNested_eq_nil.mp hbody outer houter)
    exact not_isBoundary_of_rejectNested hblock hmem
  · rw [hsome] at hfail
    exact not_isBoundary_of_rejectNested hfail houter
  · intro statements hins statement hmem
    rw [hsome] at hfail
    obtain ⟨block, hblock⟩ :=
      rejectNested_of_inside hins (rejectNested_eq_nil.mp hfail outer houter)
    exact not_isBoundary_of_rejectNested hblock hmem

/-! ### Edges of an accepted flow -/

theorem Flow.Accepted.checkRouteEdge (h : flow.Accepted) (hregion : region ∈ flow.form.1)
    {route : String × Span} (hroute : route ∈ collectRouteNames (flow.steps.get source)) :
    flow.checkRouteEdge region source route.1 route.2 = [] := by
  have hsrc := List.flatMap_eq_nil_iff.mp h.crossings source (List.mem_finRange source)
  have hroute := List.flatMap_eq_nil_iff.mp (List.append_eq_nil_iff.mp hsrc).1 route hroute
  exact List.flatMap_eq_nil_iff.mp hroute region hregion

theorem Flow.Accepted.checkAfterEdge (h : flow.Accepted) (hregion : region ∈ flow.form.1)
    {target : Fin flow.count} {dependency : AfterRef}
    (hmem : dependency ∈ (flow.steps.get source).after)
    (hindex : flow.index dependency.name = some target) :
    flow.checkAfterEdge region source target dependency.span = [] := by
  have hsrc := List.flatMap_eq_nil_iff.mp h.crossings source (List.mem_finRange source)
  have hdep := List.flatMap_eq_nil_iff.mp (List.append_eq_nil_iff.mp hsrc).2 dependency hmem
  rw [h.firstIndex hindex] at hdep
  exact List.flatMap_eq_nil_iff.mp hdep region hregion

/-- How an edge lies to a region: it stays inside, enters from the opening step, leaves to the
closing step, or stays outside. -/
def Confined {n : ℕ} (region : Region n) (u w : Fin n) : Prop :=
  (region.Inside w → region.Inside u ∨ u = region.opening) ∧
    (region.Inside u → region.Inside w ∨ w = region.closing)

theorem Flow.Accepted.route_confined (h : flow.Accepted) (hregion : region ∈ flow.form.1)
    {edge : RouteEdge flow.count} (hedge : edge ∈ flow.collectEdges) :
    Confined region edge.source edge.target := by
  obtain ⟨position, -, hedge⟩ := List.mem_flatMap.mp hedge
  obtain ⟨route, hroute, hedge⟩ := List.mem_filterMap.mp hedge
  obtain ⟨target, htgt, rfl⟩ := Option.map_eq_some_iff.mp hedge
  have hnone := h.checkRouteEdge hregion (List.mem_map_of_mem (f := fun route => (route.name, route.span)) hroute)
  simp only [Flow.checkRouteEdge, h.firstIndex htgt] at hnone
  split_ifs at hnone with hsrc htgt' hins
  · exact ⟨fun _ => .inl hsrc, fun _ => htgt'⟩
  · exact ⟨fun hin => absurd hin hins, fun hin => absurd hin hsrc⟩

theorem Flow.Accepted.after_confined (h : flow.Accepted) (hregion : region ∈ flow.form.1)
    (hafter : u ∈ flow.after w) : Confined region u w := by
  obtain ⟨dependency, hmem, hindex⟩ := List.mem_filterMap.mp hafter
  have hnone := h.checkAfterEdge hregion hmem hindex
  simp only [Flow.checkAfterEdge] at hnone
  split_ifs at hnone with hsame hent
  · exact ⟨fun hw => .inl (hsame.mp hw), fun hu => .inl (hsame.mpr hu)⟩
  · exact ⟨fun _ => .inr hent.2, fun _ => .inl hent.1⟩

theorem fallPred_eq_some {steps : List Step} {after : Fin steps.length → List (Fin steps.length)}
    {routes : List (RouteEdge steps.length)} {u w : Fin steps.length}
    (h : fallPred steps after routes w = some u) : w.val = u.val + 1 := by
  obtain ⟨w, hw⟩ := w
  cases w with
  | zero => simp [fallPred] at h
  | succ previous =>
    simp only [fallPred] at h
    split_ifs at h
    cases h
    rfl

/-- Falling through leads to the next step, which is no further than the boundary. -/
theorem confined_of_next {n : ℕ} (region : Region n) {u w : Fin n} (hnext : w.val = u.val + 1) :
    Confined region u w := by
  refine ⟨fun hw => ?_, fun hu => ?_⟩
  · have hle : region.opening ≤ u := by
      have hlt := Fin.lt_def.mp hw.1
      exact Fin.le_def.mpr (by omega)
    have hlt : u < region.closing := lt_trans (Fin.lt_def.mpr (by omega)) hw.2
    rcases hle.lt_or_eq with hlt' | heq
    · exact .inl ⟨hlt', hlt⟩
    · exact .inr heq.symm
  · have hle : w ≤ region.closing := Fin.le_def.mpr (hnext ▸ hu.2)
    have hlt : region.opening < w := lt_trans hu.1 (Fin.lt_def.mpr (by omega))
    rcases hle.lt_or_eq with hlt' | heq
    · exact .inl ⟨hlt, hlt'⟩
    · exact .inr heq

theorem Flow.Accepted.confined (h : flow.Accepted) (hregion : region ∈ flow.form.1)
    (hedge : flow.edges.Successor u w) : Confined region u w := by
  rcases hedge with ⟨edge, hmem, rfl, rfl⟩ | hfall | hafter
  · exact h.route_confined hregion hmem
  · exact confined_of_next region (fallPred_eq_some hfall)
  · exact h.after_confined hregion hafter

/-- **Regions confine control.** In a flow that the graph pass accepts, any two regions are
disjoint or one lies strictly inside the other; each step with a `distribute` or a `sequence`
opens exactly one and each with a `collect` closes exactly one, and such statements stand
nowhere below the top level of a step. An edge into a member comes from a member, which the
closing step of a region inside is too, or from the opening step; an edge out of a member
leads to a member or to the `collect`. -/
theorem regions_confined (flow : Flow) (haccepted : flow.graphErrors = []) :
    flow.form.1.Pairwise Brackets.Bracket.Apart ∧
      (∀ region ∈ flow.form.1, region.opening < region.closing) ∧
      (∀ v, (distributeOf (flow.steps.get v)).isSome = true → ∃! region, region ∈ flow.form.1 ∧
          region.opening = v) ∧
      (∀ v, (collectOf (flow.steps.get v)).isSome = true → ∃! region, region ∈ flow.form.1 ∧
          region.closing = v) ∧
      (∀ step ∈ flow.steps,
        (∀ outer ∈ step.body, ∀ statements, Inside outer statements → ∀ s ∈ statements,
            s.isBoundary = false) ∧
        ∀ onFailure, step.onFailure = some onFailure → ∀ outer ∈ onFailure.body,
          outer.isBoundary = false ∧
          ∀ statements, Inside outer statements → ∀ s ∈ statements, s.isBoundary = false) ∧
      ∀ region ∈ flow.form.1, ∀ u w, flow.edges.Successor u w →
        (region.Inside w → region.Inside u ∨ u = region.opening) ∧
        (region.Inside u → region.Inside w ∨ w = region.closing) := by
  have h := Flow.accepted_of_graphErrors haccepted
  refine ⟨flow.form_apart, fun region => Flow.opening_lt_closing, fun v => h.opens_one, fun v =>
      h.closes_one, ?_, ?_⟩
  · exact fun step hstep => h.nothing_nested hstep
  · exact fun region hregion u w hedge => h.confined hregion hedge

end Accepted

/-- A step whose name is given, with a body and nothing else. -/
def bodied (name : String) (body : List Statement) : Step where
  span := ⟨0, 0, 1, 1⟩
  name := name
  nameSpan := ⟨0, 0, 1, 1⟩
  after := []
  body := body
  onFailure := none
  outcomes := []
  maxVisits := none

/-- A region in a region: for each order, for each line of it, one call. -/
def nestedRegions : Flow where
  steps :=
    let span : Span := ⟨0, 0, 1, 1⟩
    [bodied "each_order" [.distribute ⟨span, .distribute, "order", span, .ref span "orders"⟩],
      bodied "each_line" [.distribute ⟨span, .sequence, "line", span, .field span (.ref span "order") "lines" span⟩],
      bodied "price" [.call ⟨span, ⟨span, "price_line", span, []⟩, some ⟨span, "priced"⟩⟩],
      bodied "lines" [.collect ⟨span, "priced", span, false, ⟨span, "total"⟩⟩],
      bodied "orders" [.collect ⟨span, "total", span, false, ⟨span, "totals"⟩⟩,
        .route ⟨span, ⟨span, "done", span, none⟩⟩]]
  outcomes := {"done"}

theorem nestedRegions_ascending (u w : Fin nestedRegions.count) :
    nestedRegions.edges.Successor u w → u < w := by
  rintro (⟨edge, hmem, -, -⟩ | hfall | hafter)
  · exact absurd hmem (List.not_mem_nil)
  · exact Fin.lt_def.mpr (by rw [fallPred_eq_some hfall]; exact Nat.lt_succ_self _)
  · revert u w
    decide

theorem nestedRegions_accepted : nestedRegions.graphErrors = [] := by
  have hafter : findAfterCycle nestedRegions.after = none := by
    refine findAfterCycle_eq_none_iff.mpr (not_isCycle_of_ascending fun u w h => ?_)
    revert u w
    unfold Waits
    decide
  have hcycles : (checkRouteCycles nestedRegions.edges).1 = [] := by
    by_contra hreported
    obtain ⟨cycle, hcycle, -⟩ := reported_iff.mp hreported
    exact not_isCycle_of_ascending nestedRegions_ascending ⟨cycle, hcycle⟩
  have hreach : nestedRegions.reachabilityErrors = [] := by
    have hall : nestedRegions.reach (fun v => v.val = 0) = fun _ => true := by
      rw [Flow.reach, dif_neg (by decide), Flow.reach, dif_pos (by decide)]
      decide
    unfold Flow.reachabilityErrors
    rw [hall]
    decide
  simp only [Flow.graphErrors, hafter, hcycles, hreach]
  decide

/-- Two regions are formed there, and both are confined. -/
theorem nestedRegions_confined :
    nestedRegions.graphErrors = [] ∧ nestedRegions.form.1.map
      (fun region => (region.opening.val, region.closing.val)) = [(0, 4), (1, 3)] ∧
      nestedRegions.form.1.Pairwise Brackets.Bracket.Apart ∧
      ∀ region ∈ nestedRegions.form.1, ∀ u w, nestedRegions.edges.Successor u w →
        (region.Inside w → region.Inside u ∨ u = region.opening) ∧
        (region.Inside u → region.Inside w ∨ w = region.closing) := by
  obtain ⟨hapart, -, -, -, -, hconf⟩ := regions_confined nestedRegions nestedRegions_accepted
  exact ⟨nestedRegions_accepted, by decide, hapart, hconf⟩

end Aion.Awl
