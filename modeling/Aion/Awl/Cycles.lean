import Aion.Awl.Components
import Aion.Awl.Graph
import Mathlib.Data.Finset.Sort
import Mathlib.Data.List.MinMax
import Mathlib.Data.Prod.Lex

/-!
# Bounds on route cycles

Control passes from step to step along routes, by falling through and along `after`
dependencies. The AWL checker asks that a `max … visits` bound stands on every cycle of this
graph: it drops the steps with a bound and looks for a component of the rest that holds a
cycle. The substeps of one statement list form such a graph of their own, at every depth.

* `FlowEdges.Successor` is the graph, `checkRouteCycles` the check, `checkSiblingGroup` the
  check of one group of substeps and `checkSubstepCycles` that of all groups of a flow.
* `reported_iff`: an error is reported exactly when some cycle has no bound on it, and
  `memberOfCycle_iff`: the flags mark exactly the steps on a cycle.
* `mem_checkSubstepCycles_iff`: every group of a flow is checked.

A group of substeps whose `after` dependencies form a cycle is reported for that alone: the
check of its routes is not reached.
-/

namespace Aion.Awl

open Digraph Relation

variable {n : ℕ}

/-! ### The check -/

/-- The steps of a flow or of a group of substeps, and the ways control passes between them. -/
structure FlowEdges (n : ℕ) where
  steps : Fin n → Step
  after : Fin n → List (Fin n)
  routes : List (RouteEdge n)
  fallPred : Fin n → Option (Fin n)

namespace FlowEdges

variable (flow : FlowEdges n)

/-- Control passes from one step to another: by a route, by falling through, or because the
other waits for it. -/
def Successor (u w : Fin n) : Prop :=
  (∃ edge ∈ flow.routes, edge.source = u ∧ edge.target = w) ∨ flow.fallPred w = some u ∨
    u ∈ flow.after w

/-- The step carries `max … visits`. -/
def bounded (v : Fin n) : Bool := (flow.steps v).maxVisits.isSome

/-- The positions that may run after the source. -/
def successors (source : Fin n) : List (Fin n) :=
  (flow.routes.filter (·.source = source)).map (·.target) ++
    (List.finRange n).filter (flow.fallPred · = some source) ++
    (List.finRange n).flatMap fun position =>
      ((flow.after position).filter (· = source)).map fun _ => position

/-- The graph without the steps that carry a bound. -/
def residual (source : Fin n) : List (Fin n) :=
  if flow.bounded source then [] else (flow.successors source).filter fun target =>
    !flow.bounded target

/-- A cycle none of whose steps carries a bound. -/
def HasUnboundedCycle : Prop :=
  ∃ cycle, IsCycle flow.Successor cycle ∧ ∀ v ∈ cycle, ¬ flow.bounded v = true

/-- Every infinite walk comes to steps with a bound again and again. -/
def WalksBounded : Prop :=
  ∀ walk : ℕ → Fin n, (∀ k, flow.Successor (walk k) (walk (k + 1))) → ∀ start, ∃ k ≥ start,
    flow.bounded (walk k) = true

/-- How many steps have a component number. -/
def size (component : Fin n → Option ℕ) (id : Option ℕ) : ℕ :=
  (Finset.univ.filter fun v => component v = id).card

/-- The position lies on a cycle. -/
def memberOfCycle (v : Fin n) : Bool :=
  let component := stronglyConnected flow.successors
  decide (1 < size component (component v)) || (flow.successors v).contains v

/-- How many steps without a bound have a component number. -/
def residualSize (component : Fin n → Option ℕ) (id : Option ℕ) : ℕ :=
  (Finset.univ.filter fun v => flow.bounded v = false ∧ component v = id).card

/-- A step without a bound on a cycle without bounds. -/
def cyclicResidual (v : Fin n) : Bool :=
  let component := stronglyConnected flow.residual
  !flow.bounded v && (decide (1 < flow.residualSize component (component v)) ||
      (flow.residual v).contains v)

/-- The numbers of the components without bounds that hold a cycle, in ascending order. -/
def cyclicResiduals : List ℕ :=
  (((List.finRange n).filter flow.cyclicResidual).filterMap
      (stronglyConnected flow.residual)).toFinset.sort (· ≤ ·)

/-- An edge inside a component without bounds. -/
def inCycle (id : ℕ) (edge : RouteEdge n) : Bool :=
  let component := stronglyConnected flow.residual
  !flow.bounded edge.source && !flow.bounded edge.target && component edge.source = some id &&
    component edge.target = some id

/-- The route to blame: the first that leads backward, else the first in the component. -/
def anchor (id : ℕ) : Option (RouteEdge n) :=
  let candidates := flow.routes.filter (flow.inCycle id)
  (candidates.filter fun edge => edge.target ≤ edge.source).argmin
    (fun edge => toLex (edge.source, edge.span.start)) <|>
    candidates.argmin fun edge => toLex (edge.source, edge.span.start)

/-- The diagnostic of a component without a bound. -/
def reportUnbounded (id : ℕ) : List CheckError :=
  let members :=
    (List.finRange n).filter fun v => stronglyConnected flow.residual v = some id && !flow.bounded v
  match flow.anchor id with
  | some edge => [⟨edge.span, .unboundedRoute (flow.steps edge.target).name⟩]
  | none =>
    match members.head? with
    | some first => [⟨(flow.steps first).nameSpan, .unboundedSteps (members.map fun member => (flow.steps member).name)⟩]
    | none => []

end FlowEdges

/-- Some error is about a cycle without a bound. -/
def ReportsUnbounded (errors : List CheckError) : Prop :=
  ∃ error ∈ errors, error.defect.unboundedCycle = true

/-- The errors, and for each step whether it is on a cycle. -/
def checkRouteCycles (flow : FlowEdges n) : List CheckError × (Fin n → Bool) :=
  (flow.cyclicResiduals.flatMap flow.reportUnbounded, flow.memberOfCycle)

/-! ### What the check finds -/

variable {error : CheckError} {statements : List Statement} {outer : Statement}

section Correctness

variable {flow : FlowEdges n}

theorem edge_successors_iff {u w : Fin n} : Edge flow.successors u w ↔ flow.Successor u w := by
  simp only [Edge, FlowEdges.successors, FlowEdges.Successor, List.mem_append, List.mem_map,
    List.mem_filter,
    List.mem_finRange, List.mem_flatMap, true_and, decide_eq_true_eq]
  constructor
  · rintro ((⟨edge, ⟨hmem, hsrc⟩, htgt⟩ | hfall) | ⟨position, dependency, ⟨hmem, rfl⟩, rfl⟩)
    · exact .inl ⟨edge, hmem, hsrc, htgt⟩
    · exact .inr (.inl hfall)
    · exact .inr (.inr hmem)
  · rintro (⟨edge, hmem, hsrc, htgt⟩ | hfall | hmem)
    · exact .inl (.inl ⟨edge, ⟨hmem, hsrc⟩, htgt⟩)
    · exact .inl (.inr hfall)
    · exact .inr ⟨w, u, ⟨hmem, rfl⟩, rfl⟩

theorem edge_successors : Edge flow.successors = flow.Successor := by
  funext u w
  exact propext edge_successors_iff

theorem edge_residual : Edge flow.residual =
    fun u w => flow.Successor u w ∧ ¬ flow.bounded u = true ∧ ¬ flow.bounded w = true := by
  funext u w
  rw [← edge_successors]
  by_cases hbdd : flow.bounded u = true
  · simp [Edge, FlowEdges.residual, hbdd]
  · simp [Edge, FlowEdges.residual, hbdd]

variable {v : Fin n}

/-- A vertex is on a cycle when its component has another one or it has an edge to itself. -/
theorem one_lt_size_iff {successors : Fin n → List (Fin n)} :
    1 < FlowEdges.size (stronglyConnected successors) (stronglyConnected successors v) ↔
      ∃ w, w ≠ v ∧ Mutual (Edge successors) v w := by
  constructor
  · intro h
    obtain ⟨w, hw, hne⟩ := Finset.exists_mem_ne h v
    exact ⟨w, hne, stronglyConnected_eq_iff.mp (Finset.mem_filter.mp hw).2.symm⟩
  · rintro ⟨w, hne, hmutual⟩
    refine Finset.one_lt_card.mpr ⟨w, ?_, v, by simp, hne⟩
    simpa using (stronglyConnected_eq_iff.mpr hmutual).symm

/-- **The flags mark exactly the steps on a cycle.** -/
theorem memberOfCycle_iff :
    flow.memberOfCycle v = true ↔ ∃ cycle, IsCycle flow.Successor cycle ∧ v ∈ cycle := by
  rw [exists_isCycle_iff, ← edge_successors, transGen_self_iff, ← one_lt_size_iff]
  simp only [FlowEdges.memberOfCycle, Bool.or_eq_true, decide_eq_true_eq, List.contains_iff_mem]
  exact or_comm

/-- What a step without a bound reaches in the residual graph has no bound. -/
theorem not_bounded_of_reaches {u w : Fin n} (h : ReflTransGen (Edge flow.residual) u w)
    (hu : ¬ flow.bounded u = true) : ¬ flow.bounded w = true := by
  rw [edge_residual] at h
  induction h with
  | refl => exact hu
  | tail _ hedge _ => exact hedge.2.2

theorem one_lt_residualSize_iff (hv : ¬ flow.bounded v = true) :
    1 < flow.residualSize (stronglyConnected flow.residual) (stronglyConnected flow.residual v) ↔
      ∃ w, w ≠ v ∧ Mutual (Edge flow.residual) v w := by
  constructor
  · intro h
    obtain ⟨w, hw, hne⟩ := Finset.exists_mem_ne h v
    exact ⟨w, hne, stronglyConnected_eq_iff.mp (Finset.mem_filter.mp hw).2.2.symm⟩
  · rintro ⟨w, hne, hmutual⟩
    refine Finset.one_lt_card.mpr ⟨w, ?_, v, by simpa using hv, hne⟩
    have hw := not_bounded_of_reaches hmutual.1 hv
    simpa [hw] using (stronglyConnected_eq_iff.mpr hmutual).symm

theorem cyclicResidual_iff : flow.cyclicResidual v = true ↔ TransGen (Edge flow.residual) v v := by
  by_cases hv : flow.bounded v = true
  · -- A step with a bound has no edge in the residual graph.
    have hnone : ¬ TransGen (Edge flow.residual) v v := by
      intro h
      obtain ⟨w, hedge, -⟩ := TransGen.head'_iff.mp h
      rw [edge_residual] at hedge
      exact hedge.2.1 hv
    simp [FlowEdges.cyclicResidual, hv, hnone]
  · rw [transGen_self_iff, ← one_lt_residualSize_iff hv]
    simp only [FlowEdges.cyclicResidual, hv, Bool.not_false, Bool.true_and, Bool.or_eq_true,
      decide_eq_true_eq,
      List.contains_iff_mem]
    exact or_comm

/-- A component number is listed when a step of the component is on a cycle without bounds. -/
theorem mem_cyclicResiduals_iff {id : ℕ} :
    id ∈ flow.cyclicResiduals ↔ ∃ v, flow.cyclicResidual v = true ∧
      stronglyConnected flow.residual v = some id := by
  simp [FlowEdges.cyclicResiduals, List.mem_filterMap]

/-- Each listed component gets a report. -/
theorem reportUnbounded_ne_nil {id : ℕ} (h : id ∈ flow.cyclicResiduals) :
    flow.reportUnbounded id ≠ [] := by
  obtain ⟨v, hv, hid⟩ := mem_cyclicResiduals_iff.mp h
  have hbdd : flow.bounded v = false := by
    simp only [FlowEdges.cyclicResidual, Bool.and_eq_true, Bool.not_eq_true'] at hv
    exact hv.1
  have hmem : v ∈ (List.finRange n).filter fun v => stronglyConnected flow.residual v = some id && !flow.bounded v := by
    simp [hid, hbdd]
  rw [FlowEdges.reportUnbounded]
  cases flow.anchor id with
  | some edge => simp
  | none =>
    cases hmems : (List.finRange n).filter fun v =>
      stronglyConnected flow.residual v = some id && !flow.bounded v with
    | nil =>
      rw [hmems] at hmem
      exact absurd hmem List.not_mem_nil
    | cons first rest => simp

/-- **An error is reported exactly when some cycle has no bound on it.** -/
theorem reported_iff : (checkRouteCycles flow).1 ≠ [] ↔ flow.HasUnboundedCycle := by
  rw [FlowEdges.HasUnboundedCycle, exists_cycle_avoiding_iff, ← edge_residual]
  constructor
  · intro hne
    obtain ⟨error, herr⟩ := List.exists_mem_of_ne_nil _ hne
    obtain ⟨id, hid, -⟩ := List.mem_flatMap.mp herr
    obtain ⟨v, hv, -⟩ := mem_cyclicResiduals_iff.mp hid
    exact ⟨v, cyclicResidual_iff.mp hv⟩
  · rintro ⟨v, hv⟩
    obtain ⟨id, hid⟩ := Option.ne_none_iff_exists'.mp (stronglyConnected_ne_none flow.residual v)
    have hmem : id ∈ flow.cyclicResiduals :=
      mem_cyclicResiduals_iff.mpr ⟨v, cyclicResidual_iff.mpr hv, hid⟩
    obtain ⟨error, herr⟩ := List.exists_mem_of_ne_nil _ (reportUnbounded_ne_nil hmem)
    exact List.ne_nil_of_mem (List.mem_flatMap.mpr ⟨id, hmem, herr⟩)

/-- All that the check reports are cycles without a bound. -/
theorem unboundedCycle_of_mem_check (h : error ∈ (checkRouteCycles flow).1) :
    error.defect.unboundedCycle = true := by
  obtain ⟨id, -, herr⟩ := List.mem_flatMap.mp h
  rw [FlowEdges.reportUnbounded] at herr
  split at herr
  · rw [List.mem_singleton.mp herr]
    rfl
  · split at herr
    · rw [List.mem_singleton.mp herr]
      rfl
    · exact absurd herr List.not_mem_nil

theorem reportsUnbounded_iff_ne_nil :
    ReportsUnbounded (checkRouteCycles flow).1 ↔ (checkRouteCycles flow).1 ≠ [] := by
  constructor
  · rintro ⟨error, hmem, -⟩
    exact List.ne_nil_of_mem hmem
  · intro hne
    obtain ⟨error, hmem⟩ := List.exists_mem_of_ne_nil _ hne
    exact ⟨error, hmem, unboundedCycle_of_mem_check hmem⟩

theorem walksBounded_of_check (h : (checkRouteCycles flow).1 = []) : flow.WalksBounded := by
  intro walk hwalk start
  have hno : ¬ flow.HasUnboundedCycle := fun hcycle => reported_iff.mpr hcycle h
  exact walk_meets hno walk hwalk start

end Correctness

/-! ### Groups of substeps -/

section Siblings

variable (siblings : List Step)

/-- The first sibling of a name. -/
def siblingIndex (name : String) : Option (Fin siblings.length) :=
  (List.finRange siblings.length).find? fun position => (siblings.get position).name = name

/-- The siblings a substep waits for. -/
def siblingAfter (position : Fin siblings.length) : List (Fin siblings.length) :=
  (siblings.get position).after.filterMap fun dependency => siblingIndex siblings dependency.name

/-- The `after` names that no sibling has. -/
def unknownSiblings : List CheckError :=
  (List.finRange siblings.length).flatMap fun position =>
    (siblings.get position).after.filterMap fun dependency =>
      match siblingIndex siblings dependency.name with
      | some _ => none
      | none => some ⟨dependency.span, .unknownSibling (siblings.get position).name dependency.name⟩

/-- The routes between siblings. -/
def siblingRoutes : List (RouteEdge siblings.length) :=
  (List.finRange siblings.length).flatMap fun position =>
    (collectRouteNames (siblings.get position)).filterMap fun route =>
      (siblingIndex siblings route.1).map fun target => ⟨position, target, route.2, .success⟩

/-- The edges of a group of siblings. -/
def siblingEdges : FlowEdges siblings.length where
  steps := siblings.get
  after := siblingAfter siblings
  routes := siblingRoutes siblings
  fallPred := fallPred siblings (siblingAfter siblings) (siblingRoutes siblings)

/-- The checks of one group of siblings. -/
def checkSiblingGroup : List CheckError :=
  unknownSiblings siblings ++
    match findAfterCycle (siblingAfter siblings) with
    | some cycle => reportAfterCycle siblings.get cycle
    | none => (checkRouteCycles (siblingEdges siblings)).1

end Siblings

/-- The substeps of a statement list. -/
def substeps (statements : List Statement) : List Step :=
  statements.filterMap fun statement =>
    match statement with
    | .subStep sub => some sub
    | _ => none

/-- The errors of the group that a statement list holds. -/
def groupErrors (statements : List Statement) : List CheckError :=
  if (substeps statements).isEmpty then [] else checkSiblingGroup (substeps statements)

mutual

/-- The groups inside statements, without the one they form themselves. -/
def scanStatements : List Statement → List CheckError
  | [] => []
  | statement :: rest => scanStatement statement ++ scanStatements rest

/-- The groups inside a statement. -/
def scanStatement : Statement → List CheckError
  | .subStep sub => scanStep sub
  | .fork ⟨_, _, body, _⟩ => groupErrors body ++ scanStatements body
  | .loop ⟨_, _, _, _, _, body, _, _⟩ => groupErrors body ++ scanStatements body
  | .call _ => []
  | .spawn _ => []
  | .pipe _ => []
  | .wait _ => []
  | .sleep _ => []
  | .route _ => []
  | .distribute _ => []
  | .collect _ => []

/-- The groups of a step's body and of its failure block. -/
def scanStep : Step → List CheckError
  | ⟨_, _, _, _, body, none, _, _⟩ => groupErrors body ++ scanStatements body
  | ⟨_, _, _, _, body, some ⟨_, failure⟩, _, _⟩ =>
    groupErrors body ++ scanStatements body ++ (groupErrors failure ++ scanStatements failure)

end

/-- The checks of every group below the steps. -/
def checkSubstepCycles (steps : List Step) : List CheckError := steps.flatMap scanStep

/-! ### Every group is checked -/

/-- A statement list inside a statement, at any depth. -/
inductive Inside : Statement → List Statement → Prop
  | fork (fork : ForkStmt) : Inside (.fork fork) fork.body
  | loop (looped : LoopStmt) : Inside (.loop looped) looped.body
  | body (sub : Step) : Inside (.subStep sub) sub.body
  | failure {sub : Step} {onFailure : OnFailure} (h : sub.onFailure = some onFailure) :
    Inside (.subStep sub) onFailure.body
  | deeper {outer inner : Statement} {between statements : List Statement}
    (h : Inside outer between)
    (hmem : inner ∈ between) (h' : Inside inner statements) : Inside outer statements

/-- A group of substeps of a flow: the substeps of some statement list of one of its steps. -/
def IsGroup (steps siblings : List Step) : Prop :=
  siblings ≠ [] ∧ ∃ step ∈ steps, ∃ statements, Inside (.subStep step) statements ∧
    substeps statements = siblings

theorem mem_scanStatements :
    error ∈ scanStatements statements ↔ ∃ statement ∈ statements,
      error ∈ scanStatement statement := by
  induction statements with
  | nil => simp [scanStatements]
  | cons statement rest ih => simp [scanStatements, ih]

theorem scanStatement_fork (fork : ForkStmt) :
    scanStatement (.fork fork) = groupErrors fork.body ++ scanStatements fork.body := by
  cases fork
  rw [scanStatement]

theorem scanStatement_loop (looped : LoopStmt) :
    scanStatement (.loop looped) = groupErrors looped.body ++ scanStatements looped.body := by
  cases looped
  rw [scanStatement]

theorem mem_scanStatement_subStep {sub : Step} :
    error ∈ scanStatement (.subStep sub) ↔ error ∈ groupErrors sub.body ++ scanStatements sub.body ∨
      ∃ onFailure, sub.onFailure = some onFailure ∧
        error ∈ groupErrors onFailure.body ++ scanStatements onFailure.body := by
  obtain ⟨_, _, _, _, body, onFailure, _, _⟩ := sub
  cases onFailure with
  | none => simp [scanStatement, scanStep]
  | some onFailure =>
    cases onFailure
    simp [scanStatement, scanStep, or_assoc]

/-- The scan of a statement reports what the groups inside it report. -/
theorem mem_scanStatement_of_inside (h : Inside outer statements)
    (hmem : error ∈ groupErrors statements ++ scanStatements statements) :
    error ∈ scanStatement outer := by
  induction h with
  | fork fork => rwa [scanStatement_fork]
  | loop looped => rwa [scanStatement_loop]
  | body sub => exact mem_scanStatement_subStep.mpr (.inl hmem)
  | failure h => exact mem_scanStatement_subStep.mpr (.inr ⟨_, h, hmem⟩)
  | deeper hbetween hinner _ ihbetween ihinner =>
    exact ihbetween (List.mem_append_right _ (mem_scanStatements.mpr ⟨_, hinner, ihinner hmem⟩))

/-- A group of a list inside a statement, or of one inside that list. -/
theorem Inside.lift (h : Inside outer statements)
    (hmem : error ∈ groupErrors statements ∨
      ∃ inner ∈ statements, ∃ deeper, Inside inner deeper ∧ error ∈ groupErrors deeper) :
    ∃ deeper, Inside outer deeper ∧ error ∈ groupErrors deeper := by
  rcases hmem with hmem | ⟨inner, hinner, deeper, hins, hmem⟩
  · exact ⟨statements, h, hmem⟩
  · exact ⟨deeper, .deeper h hinner hins, hmem⟩

mutual

theorem exists_inside_of_mem_scanStatement :
    ∀ statement, error ∈ scanStatement statement → ∃ statements, Inside statement statements ∧
      error ∈ groupErrors statements
  | .fork ⟨span, header, body, join⟩, h => by
    rw [scanStatement_fork, List.mem_append] at h
    exact (Inside.fork ⟨span, header, body, join⟩).lift
      (h.imp_right (exists_inside_of_mem_scanStatements body))
  | .loop ⟨span, var, varSpan, seed, counter, body, untilTail, maxTail⟩, h => by
    rw [scanStatement_loop, List.mem_append] at h
    exact (Inside.loop ⟨span, var, varSpan, seed, counter, body, untilTail, maxTail⟩).lift
      (h.imp_right (exists_inside_of_mem_scanStatements body))
  | .subStep ⟨span, name, nameSpan, after, body, none, outcomes, maxVisits⟩, h => by
    have h := (mem_scanStatement_subStep.mp h).resolve_right (by simp)
    exact (Inside.body ⟨span, name, nameSpan, after, body, none, outcomes, maxVisits⟩).lift
      ((List.mem_append.mp h).imp_right (exists_inside_of_mem_scanStatements body))
  | .subStep ⟨span, name, nameSpan, after, body, some ⟨failureSpan, failure⟩, outcomes, maxVisits⟩,
      h => by
    rcases mem_scanStatement_subStep.mp h with h | ⟨onFailure, honFailure, h⟩
    · exact (Inside.body ⟨span, name, nameSpan, after, body, some ⟨failureSpan, failure⟩, outcomes, maxVisits⟩).lift
        ((List.mem_append.mp h).imp_right (exists_inside_of_mem_scanStatements body))
    · cases honFailure
      exact (Inside.failure rfl).lift ((List.mem_append.mp h).imp_right (exists_inside_of_mem_scanStatements failure))

theorem exists_inside_of_mem_scanStatements :
    ∀ statements, error ∈ scanStatements statements →
      ∃ inner ∈ statements, ∃ deeper, Inside inner deeper ∧ error ∈ groupErrors deeper
  | [], h => by simp [scanStatements] at h
  | statement :: rest, h => by
    rw [scanStatements, List.mem_append] at h
    rcases h with h | h
    · exact ⟨statement, List.mem_cons_self, exists_inside_of_mem_scanStatement statement h⟩
    · obtain ⟨inner, hmem, hinner⟩ := exists_inside_of_mem_scanStatements rest h
      exact ⟨inner, List.mem_cons_of_mem _ hmem, hinner⟩

end

/-- **The check of a flow is the check of each of its groups.** -/
theorem mem_checkSubstepCycles_iff {steps : List Step} :
    error ∈ checkSubstepCycles steps ↔ ∃ siblings, IsGroup steps siblings ∧
      error ∈ checkSiblingGroup siblings := by
  rw [checkSubstepCycles, List.mem_flatMap]
  constructor
  · rintro ⟨step, hstep, hmem⟩
    obtain ⟨statements, hins, hmem⟩ := exists_inside_of_mem_scanStatement (.subStep step) hmem
    rw [groupErrors] at hmem
    split_ifs at hmem with hemp
    · exact absurd hmem List.not_mem_nil
    · exact ⟨substeps statements, ⟨by simpa using hemp, step, hstep, statements, hins, rfl⟩, hmem⟩
  · rintro ⟨siblings, ⟨hne, step, hstep, statements, hins, rfl⟩, hmem⟩
    refine ⟨step, hstep, mem_scanStatement_of_inside hins (List.mem_append_left _ ?_)⟩
    rw [groupErrors, if_neg (by simpa using hne)]
    exact hmem

/-! ### What the check of a group finds -/

/-- Some sibling waits, through `after`, for itself. -/
def HasAfterCycle (siblings : List Step) : Prop :=
  ∃ cycle, IsCycle (Waits (siblingAfter siblings)) cycle

section Groups

variable {siblings : List Step}

theorem unboundedCycle_of_mem_unknownSiblings (h : error ∈ unknownSiblings siblings) :
    error.defect.unboundedCycle = false := by
  obtain ⟨position, -, h⟩ := List.mem_flatMap.mp h
  obtain ⟨dependency, -, h⟩ := List.mem_filterMap.mp h
  split at h
  · contradiction
  · obtain rfl := Option.some.inj h
    rfl

/-- A cycle of `after` dependencies has one report, about that. -/
theorem reportAfterCycle_of_isCycle {E : Fin n → Fin n → Prop} {steps : Fin n → Step}
    {cycle : List (Fin n)} (h : IsCycle E cycle) :
    ∃ span names, reportAfterCycle steps cycle = [⟨span, .afterCycle names⟩] := by
  cases cycle with
  | nil => exact h.elim
  | cons first rest => exact ⟨_, _, rfl⟩

theorem checkSiblingGroup_of_afterCycle (h : HasAfterCycle siblings) :
    ∃ span names, checkSiblingGroup siblings = unknownSiblings siblings ++
      [⟨span, .afterCycle names⟩] := by
  cases hfd : findAfterCycle (siblingAfter siblings) with
  | none => exact absurd h (findAfterCycle_eq_none_iff.mp hfd)
  | some cycle =>
    obtain ⟨span, names, hreport⟩ := reportAfterCycle_of_isCycle (findAfterCycle_isCycle hfd)
    exact ⟨span, names, by rw [checkSiblingGroup, hfd, ← hreport]⟩

theorem checkSiblingGroup_of_not_afterCycle (h : ¬ HasAfterCycle siblings) :
    checkSiblingGroup siblings = unknownSiblings siblings ++
      (checkRouteCycles (siblingEdges siblings)).1 := by
  rw [checkSiblingGroup, findAfterCycle_eq_none_iff.mpr h]

theorem not_reportsUnbounded_of_afterCycle (h : HasAfterCycle siblings) :
    ¬ ReportsUnbounded (checkSiblingGroup siblings) := by
  obtain ⟨span, names, heq⟩ := checkSiblingGroup_of_afterCycle h
  rintro ⟨error, hmem, hunbd⟩
  rw [heq, List.mem_append, List.mem_singleton] at hmem
  rcases hmem with hmem | rfl
  · rw [unboundedCycle_of_mem_unknownSiblings hmem] at hunbd
    contradiction
  · contradiction

theorem reportsUnbounded_group_iff (h : ¬ HasAfterCycle siblings) :
    ReportsUnbounded (checkSiblingGroup siblings) ↔ (siblingEdges siblings).HasUnboundedCycle := by
  rw [← reported_iff, ← reportsUnbounded_iff_ne_nil, checkSiblingGroup_of_not_afterCycle h]
  constructor
  · rintro ⟨error, hmem, hunbd⟩
    rcases List.mem_append.mp hmem with hmem | hmem
    · rw [unboundedCycle_of_mem_unknownSiblings hmem] at hunbd
      contradiction
    · exact ⟨error, hmem, hunbd⟩
  · rintro ⟨error, hmem, hunbd⟩
    exact ⟨error, List.mem_append_right _ hmem, hunbd⟩

theorem walksBounded_of_group (h : checkSiblingGroup siblings = []) :
    (siblingEdges siblings).WalksBounded := by
  by_cases hafter : HasAfterCycle siblings
  · obtain ⟨span, names, heq⟩ := checkSiblingGroup_of_afterCycle hafter
    rw [h] at heq
    simp at heq
  · rw [checkSiblingGroup_of_not_afterCycle hafter] at h
    exact walksBounded_of_check (List.append_eq_nil_iff.mp h).2

end Groups

/-- **Cycles without a bound are refused.** On every graph of steps the check reports exactly
when there is one and flags exactly the steps on cycles, so that in an accepted graph every
infinite walk comes to bounded steps again and again. So it is for each group of substeps
whose `after` dependencies form no cycle; where they do, that is reported instead. In an
accepted flow the walks in every group come to bounded steps. -/
theorem unbounded_cycles_refused :
    (∀ (n : ℕ) (flow : FlowEdges n),
      (ReportsUnbounded (checkRouteCycles flow).1 ↔ flow.HasUnboundedCycle) ∧
        (∀ v, (checkRouteCycles flow).2 v = true ↔ ∃ cycle, IsCycle flow.Successor cycle ∧
            v ∈ cycle) ∧
        ((checkRouteCycles flow).1 = [] → flow.WalksBounded)) ∧
      (∀ siblings,
        (¬ HasAfterCycle siblings →
          (ReportsUnbounded (checkSiblingGroup siblings) ↔
              (siblingEdges siblings).HasUnboundedCycle)) ∧
        (HasAfterCycle siblings → ¬ ReportsUnbounded (checkSiblingGroup siblings) ∧
          ∃ error ∈ checkSiblingGroup siblings, ∃ names, error.defect = .afterCycle names) ∧
        (checkSiblingGroup siblings = [] → (siblingEdges siblings).WalksBounded)) ∧
      ∀ steps, checkSubstepCycles steps = [] → ∀ siblings, IsGroup steps siblings →
        (siblingEdges siblings).WalksBounded := by
  refine ⟨fun n flow => ⟨?_, fun v => memberOfCycle_iff, walksBounded_of_check⟩, fun siblings =>
      ⟨?_, ?_, ?_⟩, ?_⟩
  · exact reportsUnbounded_iff_ne_nil.trans reported_iff
  · exact reportsUnbounded_group_iff
  · intro hafter
    obtain ⟨span, names, heq⟩ := checkSiblingGroup_of_afterCycle hafter
    refine ⟨not_reportsUnbounded_of_afterCycle hafter, ⟨span, .afterCycle names⟩, ?_, names, rfl⟩
    simp [heq]
  · exact walksBounded_of_group
  · intro steps hacc siblings hgrp
    refine walksBounded_of_group (List.eq_nil_iff_forall_not_mem.mpr fun error herr => ?_)
    have hmem := mem_checkSubstepCycles_iff.mpr ⟨siblings, hgrp, herr⟩
    rw [hacc] at hmem
    exact List.not_mem_nil hmem

/-- A substep without body that waits for one other. -/
def waiting (name dependency : String) : Step where
  span := ⟨0, 0, 1, 1⟩
  name := name
  nameSpan := ⟨0, 0, 1, 1⟩
  after := [⟨⟨0, 0, 1, 1⟩, dependency⟩]
  body := []
  onFailure := none
  outcomes := []
  maxVisits := none

/-- Two substeps that wait for each other form a cycle without a bound, and no report says so. -/
theorem waiting_siblings_unreported :
    ¬ ∀ siblings, ReportsUnbounded (checkSiblingGroup siblings) ↔
      (siblingEdges siblings).HasUnboundedCycle := by
  intro h
  have hafter : HasAfterCycle [waiting "a" "b", waiting "b" "a"] := by
    refine ⟨[0, 1], by decide, ?_⟩
    simp only [List.cons_append, List.nil_append, List.isChain_cons_cons, List.isChain_singleton,
      and_true, Waits]
    exact ⟨by decide, by decide⟩
  refine not_reportsUnbounded_of_afterCycle hafter ((h _).mpr ⟨[0, 1], ⟨by decide, ?_⟩, by decide⟩)
  simp only [List.cons_append, List.nil_append, List.isChain_cons_cons,
    List.isChain_singleton, and_true]
  refine ⟨.inr (.inr ?_), .inr (.inr ?_)⟩
  · decide
  · decide

end Aion.Awl
