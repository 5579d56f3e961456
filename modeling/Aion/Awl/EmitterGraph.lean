import Aion.Awl.StepGraph
import Aion.Library.Layering
import Aion.Library.UnionFind

/-!
# The regions of the emitter

How the emitter plans the Gleam functions of a flow: the edges between the steps
(`buildEdges`), the shapes it refuses (`checkRefusals`), and the regions it lowers to one
function each (`buildRegions`), which group the steps that depend on each other and sort each
group into layers.

The liveness of bindings, the visit counters and the plans of nested flows are left out.
-/

namespace Aion.Awl.Emitter

open UnionFind

/-! ### Errors -/

/-- What the emitter refuses. -/
inductive EmitDefect
  | duplicateStep (step : String)
  | unknownAfter (dependency : String)
  | targetedAndDependent (step : String)
  | routesAway (dependent step : String)
  | entrySteps (step : String) (count : ℕ)
  | outstandingWork (step : String)
  | firstNotEntry (step : String)
  | routesMidChain (step target : String)
  deriving DecidableEq, Repr

/-- The text of an error. -/
def EmitDefect.message : EmitDefect → String
  | .duplicateStep step => "duplicate step `" ++ step ++ "`"
  | .unknownAfter dependency => "`after " ++ dependency ++ "` names no step"
  | .targetedAndDependent step =>
    "step `" ++ step ++ "` is both route-targeted and `after`-dependent — the Gleam stopgap cannot express that join " ++
      "(AWL-BC #240 carries it)"
  | .routesAway dependent step =>
    "step `" ++ dependent ++ "` declares `after " ++ step ++ "`, but `" ++ step ++
      "` routes away instead of completing into " ++
      "its dependents — the Gleam stopgap cannot run both continuations (AWL-BC #240 carries it)"
  | .entrySteps step count =>
    "the dependency group containing step `" ++ step ++ "` has " ++ toString count ++
      " entry steps — the Gleam stopgap " ++
      "lowers one entry per group"
  | .outstandingWork step =>
    "step `" ++ step ++ "` routes away while parallel or upstream work in its dependency group is outstanding — the Gleam " ++
      "stopgap cannot express that (AWL-BC #240 carries it)"
  | .firstNotEntry step =>
    "the first step `" ++ step ++ "` is not its dependency group's entry — the workflow start must head a group"
  | .routesMidChain step target =>
    "step `" ++ step ++ "` routes to `" ++ target ++
      "`, which sits mid-chain in a dependency group — the Gleam stopgap " ++
      "routes only to group entries"

/-- A refusal and its place. -/
structure EmitError where
  span : Span
  defect : EmitDefect
  deriving DecidableEq, Repr

/-! ### Edges -/

mutual

/-- The route targets named in statements. -/
def routeNamesIn : List Statement → List String
  | [] => []
  | statement :: rest => routeNamesInStatement statement ++ routeNamesIn rest

/-- The route targets named in a statement. -/
def routeNamesInStatement : Statement → List String
  | .pipe ⟨_, _, _, .route target⟩ => [target.name]
  | .pipe ⟨_, _, _, .bind _⟩ => []
  | .route route => [route.target.name]
  | .fork ⟨_, _, body, _⟩ => routeNamesIn body
  | .loop ⟨_, _, _, _, _, body, _, _⟩ => routeNamesIn body
  | .call _ => []
  | .spawn _ => []
  | .wait _ => []
  | .sleep _ => []
  | .subStep _ => []
  | .distribute _ => []
  | .collect _ => []

end

/-- The route targets a step writes itself, in its body, its `on failure` block and its outcomes. -/
def stepRouteNames (step : Step) : List String :=
  routeNamesIn step.body ++
    (match step.onFailure with
      | none => []
      | some onFailure => routeNamesIn onFailure.body) ++
    step.outcomes.map fun clause => clause.route.name

/-- The resolved edges between `n` steps. -/
structure Edges (n : ℕ) where
  index : String → Option (Fin n)
  after : Fin n → List (Fin n)
  fallPred : Fin n → Option (Fin n)
  routeTargeted : Fin n → Bool
  stepRoutes : Fin n → List (Fin n)

section Edges

variable (steps : List Step)

/-- The last step of a name. -/
def index (name : String) : Option (Fin steps.length) :=
  (List.finRange steps.length).reverse.find? fun position => (steps.get position).name = name

/-- The first step that has the name of one above it. -/
def duplicateStep : Option EmitError :=
  (List.finRange steps.length).findSome? fun position =>
    let step := steps.get position
    if (steps.take position).any (·.name = step.name) then
      some ⟨step.nameSpan, .duplicateStep step.name⟩
    else none

/-- The first `after` that names no step. -/
def unknownAfter : Option EmitError :=
  (List.finRange steps.length).findSome? fun position =>
    (steps.get position).after.findSome? fun dependency =>
      if (index steps dependency.name).isNone then some ⟨dependency.span, .unknownAfter dependency.name⟩ else none

/-- The positions a step waits for. -/
def after (position : Fin steps.length) : List (Fin steps.length) :=
  (steps.get position).after.filterMap fun dependency => index steps dependency.name

/-- The positions a step routes to. -/
def stepRoutes (position : Fin steps.length) : List (Fin steps.length) :=
  (stepRouteNames (steps.get position)).filterMap (index steps)

/-- Some step routes to the target. -/
def routeTargeted (target : Fin steps.length) : Bool :=
  (List.finRange steps.length).any fun position => (stepRoutes steps position).contains target

theorem above_lt {previous : ℕ} (h : previous + 1 < steps.length) : previous < steps.length :=
  Nat.lt_of_succ_lt h

/-- The step above, when it falls through and neither a dependency nor a route leads to this one. -/
def fallPred : Fin steps.length → Option (Fin steps.length)
  | ⟨0, _⟩ => none
  | ⟨previous + 1, h⟩ =>
    if (after steps ⟨previous + 1, h⟩).isEmpty && !routeTargeted steps ⟨previous + 1, h⟩ &&
        fallsThrough (steps.get ⟨previous, above_lt steps h⟩) then
      some ⟨previous, above_lt steps h⟩
    else none

/-- The edges of the steps. -/
def buildEdges : Except EmitError (Edges steps.length) :=
  match (duplicateStep steps).or (unknownAfter steps) with
  | some error => .error error
  | none =>
    .ok
      { index := index steps
        after := after steps
        fallPred := fallPred steps
        routeTargeted := routeTargeted steps
        stepRoutes := stepRoutes steps }

variable {steps}

/-- The shapes that the lowering cannot honour: a join of a route with dependencies, and a
dependency on a step that routes away. -/
def checkRefusals (edges : Edges steps.length) : Except EmitError Unit :=
  (List.finRange steps.length).forM fun position => do
    let step := steps.get position
    if edges.routeTargeted position && !(edges.after position).isEmpty then
      throw ⟨step.nameSpan, .targetedAndDependent step.name⟩
    if !fallsThrough step then
      match (List.finRange steps.length).find? fun dependent => (edges.after dependent).contains position with
      | some dependent => throw ⟨(steps.get dependent).nameSpan, .routesAway (steps.get dependent).name step.name⟩
      | none => pure ()

end Edges

/-! ### Groups and layers -/

/-- A group of steps that depend on each other; there is none without a step. -/
structure Group (n : ℕ) where
  first : Fin n
  rest : List (Fin n)
  deriving DecidableEq

namespace Group

variable {n : ℕ}

/-- The members of a group, the first one first. -/
def members (group : Group n) : List (Fin n) := group.first :: group.rest

/-- A group of members, where there are any. -/
def ofMembers : List (Fin n) → Option (Group n)
  | [] => none
  | first :: rest => some ⟨first, rest⟩

end Group

namespace Edges

variable {n : ℕ} (edges : Edges n)

/-- What a step waits for: its `after` targets, and the step it falls through from. -/
def dependencies (member : Fin n) : List (Fin n) :=
  edges.after member ++ (edges.fallPred member).toList

/-- The pairs that are joined, first along `after` and then along fall-through. -/
def joins : List (Fin n × Fin n) :=
  ((List.finRange n).flatMap fun position => (edges.after position).map fun dependency =>
      (position, dependency)) ++
    (List.finRange n).filterMap fun position => (edges.fallPred position).map fun source =>
      (position, source)

/-- The forest of the joined edges. -/
def parent : Forest n := (Forest.singletons n).unions edges.joins

/-- The groups, in the order of their roots. -/
def groups : List (Group n) :=
  let members := edges.parent.members (List.finRange n) fun _ => []
  (List.finRange n).filterMap fun root => Group.ofMembers (members root)

/-- The layers of a group. -/
def layer (group : List (Fin n)) : List (List (Fin n)) := Layering.layers edges.dependencies group

end Edges

/-! ### Regions -/

/-- One group of steps, lowered as one function: its entry and its steps in layers. -/
structure Region (n : ℕ) where
  entry : Fin n
  layers : List (List (Fin n))
  deriving DecidableEq

section Regions

variable {steps : List Step} (edges : Edges steps.length)

/-- A step may route away only from the last layer, and alone in it. -/
def checkLayers (layers : List (List (Fin steps.length))) : Except EmitError Unit :=
  layers.zipIdx.forM fun (layerMembers, position) =>
    layerMembers.forM fun member =>
      if !fallsThrough (steps.get member) && (position + 1 ≠ layers.length || 1 < layerMembers.length) then
        throw ⟨(steps.get member).nameSpan, .outstandingWork (steps.get member).name⟩
      else pure ()

/-- The region of a group: its entry and its layers. -/
def region (group : Group steps.length) : Except EmitError (Region steps.length) :=
  match group.members.filter fun member =>
    (edges.after member).isEmpty && (edges.fallPred member).isNone with
  | [entry] => do
    let layers := edges.layer group.members
    checkLayers layers
    return ⟨entry, layers⟩
  | roots =>
    let step := steps.get group.first
    throw ⟨step.nameSpan, .entrySteps step.name roots.length⟩

/-- Which region each entry heads. -/
def entryRegion {n : ℕ} (regions : List (Region n)) : Fin n → Option ℕ :=
  regions.zipIdx.foldl (fun found (region, position) =>
      Function.update found region.entry (some position)) fun _ => none

/-- The first step must head a region. -/
def checkFirst (entryRegion : Fin steps.length → Option ℕ) : Except EmitError Unit :=
  if h : 0 < steps.length then
    if (entryRegion ⟨0, h⟩).isNone then
      throw ⟨(steps.get ⟨0, h⟩).nameSpan, .firstNotEntry (steps.get ⟨0, h⟩).name⟩
    else pure ()
  else pure ()

/-- Every route target must head a region. -/
def checkTargets (entryRegion : Fin steps.length → Option ℕ) : Except EmitError Unit :=
  (List.finRange steps.length).forM fun position =>
    (edges.stepRoutes position).forM fun target =>
      if (entryRegion target).isNone then
        throw ⟨(steps.get position).nameSpan, .routesMidChain (steps.get position).name (steps.get target).name⟩
      else pure ()

/-- The regions of a flow, and the region each step opens. -/
def buildRegions : Except EmitError (List (Region steps.length) × (Fin steps.length → Option ℕ)) :=
  do
  let regions ← edges.groups.mapM (region edges)
  let heads := entryRegion regions
  checkFirst heads
  checkTargets edges heads
  return (regions, heads)

end Regions

end Aion.Awl.Emitter
