import Aion.Awl.Cycles

/-!
# The step graph of one flow

The part of the graph pass that builds the edges of a flow: the table of step names, the
`after` targets, the routes between steps and the fall-through edges, with what the pass
reports about names, `after` targets, unreachable steps and steps without a successor.
-/

namespace Aion.Awl

open Digraph

/-- A flow as the graph pass reads it: its steps in document order and the names of its outcomes. -/
structure Flow where
  steps : List Step
  outcomes : Finset String

namespace Flow

variable (flow : Flow)

/-- How many steps there are. -/
abbrev count : ℕ := flow.steps.length

/-! ### Names -/

/-- The table of step names: of two steps with one name it holds the later. -/
def index (name : String) : Option (Fin flow.count) :=
  (List.finRange flow.count).reverse.find? fun position => (flow.steps.get position).name = name

/-- Names taken twice. -/
def nameErrors : List CheckError :=
  (List.finRange flow.count).flatMap fun position =>
    let step := flow.steps.get position
    (if (flow.steps.take position).any (·.name = step.name) then [⟨step.nameSpan, .duplicateStep step.name⟩] else []) ++
      (if step.name ∈ flow.outcomes then [⟨step.nameSpan, .stepNamesOutcome step.name⟩] else [])

/-! ### Edges -/

/-- The positions a step waits for. -/
def after (position : Fin flow.count) : List (Fin flow.count) :=
  (flow.steps.get position).after.filterMap fun dependency => flow.index dependency.name

/-- Some name in the `after` list is no step's. -/
def afterUnknown (position : Fin flow.count) : Bool :=
  (flow.steps.get position).after.any fun dependency => (flow.index dependency.name).isNone

/-- Dependencies that no step bears. -/
def afterErrors : List CheckError :=
  (List.finRange flow.count).flatMap fun position =>
    (flow.steps.get position).after.filterMap fun dependency =>
      match flow.index dependency.name with
      | some _ => none
      | none => some ⟨dependency.span, .unknownAfter (flow.steps.get position).name dependency.name⟩

/-- The route edges of a flow. -/
def collectEdges : List (RouteEdge flow.count) :=
  (List.finRange flow.count).flatMap fun position =>
    (collectRouteRefs (flow.steps.get position)).filterMap fun route =>
      (flow.index route.name).map fun target => ⟨position, target, route.span, route.provenance⟩

/-- The edges of a flow. -/
def edges : FlowEdges flow.count where
  steps := flow.steps.get
  after := flow.after
  routes := flow.collectEdges
  fallPred := fallPred flow.steps flow.after flow.collectEdges

/-! ### Reachable steps -/

/-- A step is reached when all its dependencies are, or along one edge. -/
def reachedFrom (reachable : Fin flow.count → Bool) (position : Fin flow.count) : Bool :=
  (!(flow.after position).isEmpty && (flow.after position).all reachable) ||
    flow.afterUnknown position ||
    (flow.collectEdges.any fun edge => edge.target = position && reachable edge.source) ||
    (flow.edges.fallPred position).any reachable

/-- Adds a position that the reached ones lead to. -/
def reachOnce (reachable : Fin flow.count → Bool) (position : Fin flow.count) :
    Fin flow.count → Bool :=
  if reachable position then reachable
  else if flow.reachedFrom reachable position then Function.update reachable position true
  else reachable

/-- One pass over the steps. -/
def reachPass (reachable : Fin flow.count → Bool) : Fin flow.count → Bool :=
  (List.finRange flow.count).foldl flow.reachOnce reachable

variable {flow}

variable {reachable : Fin flow.count → Bool} {v : Fin flow.count}

theorem reachOnce_grows {position : Fin flow.count} (h : reachable v = true) :
    flow.reachOnce reachable position v = true := by
  unfold reachOnce
  split_ifs with hpos hrch
  · exact h
  · by_cases hv : v = position
    · simp [hv]
    · simp [hv, h]
  · exact h

theorem foldl_reachOnce_grows (positions : List (Fin flow.count))
    (h : reachable v = true) : positions.foldl flow.reachOnce reachable v = true := by
  induction positions generalizing reachable with
  | nil => exact h
  | cons position rest ih => exact ih (reachOnce_grows h)

theorem unseen_reachPass_lt (h : flow.reachPass reachable ≠ reachable) :
    unseen (flow.reachPass reachable) < unseen reachable := by
  obtain ⟨v, hv⟩ := Function.ne_iff.mp h
  have hfalse : reachable v = false := by
    cases hreach : reachable v with
    | true =>
      have hgrows : flow.reachPass reachable v = true := foldl_reachOnce_grows _ hreach
      exact absurd (hgrows.trans hreach.symm) hv
    | false => rfl
  refine Finset.card_lt_card (Finset.ssubset_iff_of_subset ?_ |>.mpr ⟨v, ?_, ?_⟩)
  · intro w hw
    cases hreach : reachable w with
    | true =>
      have hgrows : flow.reachPass reachable w = true := foldl_reachOnce_grows _ hreach
      simp [hgrows] at hw
    | false => simpa using hreach
  · simpa using hfalse
  · simpa [hfalse] using hv

variable (flow)

/-- Passes until one changes nothing. -/
def reach (reachable : Fin flow.count → Bool) : Fin flow.count → Bool :=
  if _h : flow.reachPass reachable = reachable then reachable else reach (flow.reachPass reachable)
termination_by unseen reachable
decreasing_by exact unseen_reachPass_lt _h

/-- The steps nothing leads to. -/
def reachabilityErrors : List CheckError :=
  (List.finRange flow.count).filterMap fun position =>
    if flow.reach (fun v => v.val = 0) position then none
    else some ⟨(flow.steps.get position).nameSpan, .unreachableStep (flow.steps.get position).name⟩

/-! ### Steps without a successor -/

/-- The steps that fall through to nothing. -/
def successorErrors : List CheckError :=
  (List.finRange flow.count).filterMap fun position =>
    let step := flow.steps.get position
    if !fallsThrough step then none
    else if h : position.val + 1 < flow.count then
      if flow.edges.fallPred ⟨position.val + 1, h⟩ ≠ some position ∧
          !(List.finRange flow.count).any fun waiting => (flow.after waiting).contains position then
        some ⟨step.nameSpan, .deadEnd step.name⟩
      else none
    else some ⟨step.nameSpan, .finalStepNeverRoutes step.name⟩

end Flow

end Aion.Awl
