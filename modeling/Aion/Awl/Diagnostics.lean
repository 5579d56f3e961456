import Aion.Awl.Syntax

/-!
# Diagnostics of the AWL checker

What the graph pass and the walk of the checker report about a flow, with the texts of the
reports. Diagnostics about types, and about the tables of actions, children and signals, are
not among them.
-/

namespace Aion.Awl

/-- What a check reports. -/
inductive Defect
  -- The graph pass.
  | duplicateStep (step : String)
  | stepNamesOutcome (step : String)
  | unknownAfter (step dependency : String)
  | unknownSibling (step dependency : String)
  | afterCycle (names : List String)
  | unreachableStep (step : String)
  | finalStepNeverRoutes (step : String)
  | deadEnd (step : String)
  | unboundedRoute (target : String)
  | unboundedSteps (names : List String)
  -- Regions.
  | notAlone (verb step : String)
  | collectNotFirst (step : String)
  | nestedRegion (verb context : String)
  | closesNoRegion (step : String)
  | neverCollected (verb : String)
  | leavesRegion (target opening closing : String)
  | entersRegion (target opening : String)
  | routesToCollect (closing opening : String)
  | afterCrossesRegion (opening closing : String)
  | notBoundInRegion (binding opening : String)
  | notAssignedInRegion (binding opening : String)
  -- Names.
  | shadowsConst (name : String)
  | alreadyBound (name : String)
  | nullReference
  | visitsOutsideGuard
  | notGuaranteed (name : String)
  | unknownName (name : String)
  | runtimeBound (name : String)
  -- Statements.
  | spawnBinds
  | joinBinds
  | routeInLoop
  | unreachableStatement
  | counterCollides
  | loopWithoutUntil
  | loopWithoutMax
  | maxReadsLoopLocal (name : String)
  | neverRebinds (var : String)
  | compensationNeverRoutes
  -- Outcomes and routes.
  | loopWithoutOutcomes (step : String)
  | outcomesNeverFire (step : String)
  | otherwiseNotLast
  | pipedIntoStep (target : String)
  | payloadIntoStep (target : String)
  | pipedIntoArm (target : String)
  | payloadIntoArm (target : String)
  | pipedAndConstructed
  | nothingToCarry (outcome : String)
  | escapesParent (target parent : String)
  | unknownTarget (target : String)
  deriving DecidableEq, Repr

/-- The text of a diagnostic. -/
def Defect.message : Defect → String
  | .duplicateStep step => "duplicate step `" ++ step ++ "`"
  | .stepNamesOutcome step =>
    "step `" ++ step ++ "` shares its name with a workflow outcome — route targets live in one namespace, so `route " ++
      step ++ "` would be ambiguous; rename one"
  | .unknownAfter step dependency =>
    "step `" ++ step ++ "` declares `after " ++ dependency ++ "`, but no step named `" ++
      dependency ++ "` exists"
  | .unknownSibling step dependency =>
    "step `" ++ step ++ "` declares `after " ++ dependency ++ "`, but no step named `" ++
      dependency ++
      "` exists among its sibling substeps"
  | .afterCycle names =>
    "`after` dependencies form a cycle (" ++ " -> ".intercalate names ++
      ") — steps can never start; iteration is `loop` or a bounded backward route"
  | .unreachableStep step =>
    "step `" ++ step ++ "` is unreachable: no route targets it and control never falls through to it"
  | .finalStepNeverRoutes step =>
    "the final step `" ++ step ++ "` never routes — a workflow may not end by running out of file; route to a workflow outcome"
  | .deadEnd step =>
    "step `" ++ step ++ "` completes into a dead end — the next step does not fall through from it, no step declares `after " ++
      step ++ "`, and it never routes; every non-terminal step needs a successor"
  | .unboundedRoute target =>
    "routing to `" ++ target ++ "` forms a cycle with no bound: some step in the cycle must carry a " ++
      "`max … visits` re-entry bound (unbounded cycles are unwritable; a bounded `loop` inside a member " ++
      "is not a cycle bound)"
  | .unboundedSteps names =>
    "steps " ++ " -> ".intercalate names ++
      " re-arm each other (fall-through and `after` edges) in a " ++
      "cycle with no bound: some step in the cycle must carry a `max … visits` re-entry bound " ++
      "(unbounded cycles are unwritable)"
  | .notAlone verb step =>
    "`" ++ verb ++ "` is its step's only line — step `" ++ step ++
      "` may carry nothing else (no other statements, outcomes, `on failure`, or `max … visits`)"
  | .collectNotFirst step =>
    "`collect` opens its step — it must be the first statement of step `" ++ step ++ "`"
  | .nestedRegion verb context =>
    "`" ++ verb ++ "` is a step-level statement — it cannot appear inside " ++ context ++
      "; give it its own top-level step"
  | .closesNoRegion step =>
    "this `collect` closes no region — no `distribute`/`sequence` region is open at step `" ++
      step ++ "`"
  | .neverCollected verb =>
    "`" ++ verb ++ "` opens a per-item region that never reaches a `collect` — every region closes with a `collect` step"
  | .leavesRegion target opening closing =>
    "route to `" ++ target ++ "` leaves the per-item region opened by step `" ++ opening ++
      "` — the region's only exit is its `collect` (step `" ++ closing ++ "`)"
  | .entersRegion target opening =>
    "route to `" ++ target ++ "` enters the per-item region opened by step `" ++ opening ++
      "` mid-track — a region is entered only through its `distribute`/`sequence` step"
  | .routesToCollect closing opening =>
    "step `" ++ closing ++ "` is a `collect` — it is reached from inside its region, never routed to from outside (route to `" ++
      opening ++ "` to run the region again)"
  | .afterCrossesRegion opening closing =>
    "`after` may not cross the per-item region opened by step `" ++ opening ++
      "` — the region is entered through its `distribute`/`sequence` step and left through its `collect` (step `" ++ closing ++ "`)"
  | .notBoundInRegion binding opening =>
    "`" ++ binding ++ "` is not bound inside the region — `collect` gathers a per-instance binding produced between step `" ++
      opening ++ "` and this `collect`"
  | .notAssignedInRegion binding opening =>
    "`" ++ binding ++ "` is not definitely assigned on every success path through the region — every path from step `" ++
      opening ++ "` to this `collect` must bind it"
  | .shadowsConst name =>
    "`" ++ name ++ "` is a document-level `const` — bindings cannot shadow consts"
  | .alreadyBound name =>
    "`" ++ name ++ "` is already bound — bindings are single-assignment per scope (the loop threaded value and a " ++
      "route-cycle step's re-entry rebinding are the two sanctioned exceptions)"
  | .nullReference =>
    "`null` does not exist in AWL — absence is expressed by omitting an optional (`?`) field, never by null"
  | .visitsOutsideGuard =>
    "`visits` is the builtin visit counter — it is readable only in the outcome guards of the step that declares `max … visits`"
  | .notGuaranteed name =>
    "`" ++ name ++ "` is bound on some path but not guaranteed on every path into this step — bindings are readable only " ++
      "where guaranteed"
  | .unknownName name => "unknown name `" ++ name ++ "` — nothing binds it here"
  | .runtimeBound name =>
    "the `max … visits` bound is fixed before the flow starts — `" ++ name ++
      "` is a runtime binding; the bound must be an expression over inputs and consts"
  | .spawnBinds =>
    "`spawn` is fire-and-forget — a spawned child cannot bind a result (`->` after `spawn` is an error)"
  | .joinBinds =>
    "a named-branch fork joins without a binding — each branch carries its own (`join` takes no `->`)"
  | .routeInLoop =>
    "a `route` inside a `loop` body is illegal — a loop exits through its `until` condition (or the `max` ceiling), and " ++
      "routing happens in the step's outcome clauses after the loop"
  | .unreachableStatement =>
    "unreachable statement — the `route` above always transfers control away"
  | .counterCollides => "`counting` name must differ from the loop binding"
  | .loopWithoutUntil => "a loop must declare an `until` condition — the body must be able to stop"
  | .loopWithoutMax =>
    "this loop is unbounded — `max` is mandatory; unbounded `loop … until` is illegal"
  | .maxReadsLoopLocal name =>
    "`max` is the loop's ceiling, fixed before the first pass — `" ++ name ++
      "` is loop-local; the bound must be an expression over inputs and prior bindings"
  | .neverRebinds var =>
    "the loop body never rebinds `" ++ var ++
      "` — the threaded value must be rebound (`-> " ++ var ++
      "`) so the next pass sees it"
  | .compensationNeverRoutes =>
    "an `on failure` block must end in a `route` — compensation cannot swallow the failure silently"
  | .loopWithoutOutcomes step =>
    "step `" ++ step ++ "` contains a `loop` but declares no outcome clauses — an exhausted loop (`max` reached with `until` " ++
      "still false) would fall through indistinguishably from success; add conditional outcomes (`when`/`otherwise`) covering " ++
      "the exhausted case"
  | .outcomesNeverFire step =>
    "the outcome clauses of step `" ++ step ++
      "` can never fire — its body always routes away before outcomes are evaluated"
  | .otherwiseNotLast =>
    "`otherwise` is the complement of the preceding arms and must be last — arms after it can never fire"
  | .pipedIntoStep target =>
    "a piped route carries the piped value as the payload, but `" ++ target ++
      "` is a step and steps receive bindings, not payloads — bind the value (`-> name`) and `route " ++ target ++ "` separately"
  | .payloadIntoStep target =>
    "routing to step `" ++ target ++ "` carries no payload — steps receive bindings, not payloads"
  | .pipedIntoArm target =>
    "a piped route carries the piped value as the payload, but `" ++ target ++
      "` is a parent outcome arm — the parent's own outcome clause carries the exit; bind the value (`-> name`) and `route " ++
      target ++ "` separately"
  | .payloadIntoArm target =>
    "routing to the parent outcome arm `" ++ target ++
      "` carries no payload — the parent's own outcome clause carries the exit"
  | .pipedAndConstructed =>
    "a piped route carries the piped value — payload construction is not allowed here"
  | .nothingToCarry outcome =>
    "`route " ++ outcome ++ "` needs a binding named `" ++ outcome ++
      "` in scope to carry the payload"
  | .escapesParent target parent =>
    "route target `" ++ target ++ "` is outside the parent step `" ++ parent ++
      "` — an inner route may target a sibling substep or a parent outcome, never cross the parent boundary"
  | .unknownTarget target => "no step or workflow outcome named `" ++ target ++ "` to route to"

/-- The diagnostics for a cycle without a bound. -/
def Defect.unboundedCycle : Defect → Bool
  | .unboundedRoute _ => true
  | .unboundedSteps _ => true
  | _ => false

/-- A defect and its place. -/
structure CheckError where
  span : Span
  defect : Defect
  deriving DecidableEq, Repr

end Aion.Awl
