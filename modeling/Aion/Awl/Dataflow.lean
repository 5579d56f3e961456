import Aion.Awl.Regions
import Aion.Library.Iteration
import Mathlib.Data.Fintype.Sum
import Mathlib.Tactic.DeriveFintype

/-!
# The dataflow of bindings

The pass that finds which names are bound on every path into each step, and where each of them
was declared. Both are iterations over two tables, of what a step is entered with and of what
it hands on; a `Node` is one place of such a table, and a visit to a step sets both its places.

What an `after` dependency hands on is added, of what alternative paths carry only the common
part is. A `collect` step takes the names of its region away.
-/

namespace Aion.Awl

open Iteration

/-! ### Declaration origins -/

/-- Where a value may have been declared, or that this cannot be told. -/
inductive OriginSet
  | known (spans : Finset Span)
  | unknown
  deriving DecidableEq

/-- The origins of the names in scope. -/
abbrev Origins := String → Option OriginSet

/-- Of two writes within a step the last wins, so the origin is no longer known. -/
def insertOrigin (origins : Origins) (name : String) (span : Span) : Origins :=
  Function.update origins name <|
    match origins name with
    | some (.known spans) => if spans = {span} then some (.known spans) else some .unknown
    | some .unknown => some .unknown
    | none => some (.known {span})

/-- Adds the origin of a binding, where there is one. -/
def insertBinding (origins : Origins) : Option Binding → Origins
  | none => origins
  | some binding => insertOrigin origins binding.name binding.span

mutual

/-- The origins that statements bind. -/
def originsInStatements : List Statement → Origins → Origins
  | [], origins => origins
  | statement :: rest, origins => originsInStatements rest (originsInStatement statement origins)

/-- The origins that a statement binds. -/
def originsInStatement : Statement → Origins → Origins
  | .call call, origins => insertBinding origins call.bind
  | .pipe ⟨_, _, _, .bind binding⟩, origins => insertOrigin origins binding.name binding.span
  | .pipe ⟨_, _, _, .route _⟩, origins => origins
  | .wait wait, origins => insertOrigin origins wait.bind.name wait.bind.span
  | .fork ⟨_, .named, body, join⟩, origins =>
    insertBinding (originsInStatements body origins) join.bind
  | .fork ⟨_, .collection .., _, join⟩, origins => insertBinding origins join.bind
  | .loop looped, origins =>
    insertBinding (insertOrigin origins looped.var looped.varSpan) looped.counter
  | .distribute distribute, origins => insertOrigin origins distribute.var distribute.varSpan
  | .collect collect, origins => insertOrigin origins collect.bind.name collect.bind.span
  | .subStep ⟨_, _, _, _, body, _, _, _⟩, origins => originsInStatements body origins
  | .spawn _, origins => origins
  | .sleep _, origins => origins
  | .route _, origins => origins

end

/-- The names a step binds. -/
def definedNames (step : Step) : Finset String := definedInStatements step.body

/-- Where a step binds its names. -/
def definedOrigins (step : Step) : Origins := originsInStatements step.body fun _ => none

/-! ### Routes with the origins they carry -/

/-- How an edge leaves its step, with what a failure block has bound by then. -/
inductive TracedProvenance
  | success
  | failure (defines : Finset String) (origins : Origins)

/-- A route between two of `n` steps. -/
structure TracedEdge (n : ℕ) where
  source : Fin n
  target : Fin n
  provenance : TracedProvenance

/-- The routes of a failure block. -/
def tracedCompensation : List Statement → Finset String → Origins → List (String × TracedProvenance)
  | [], _, _ => []
  | statement :: rest, defines, origins =>
    (collectFromStatement statement).map (fun route => (route.1, .failure defines origins)) ++
      tracedCompensation rest (defines ∪ definedInStatement statement) (originsInStatement statement origins)

/-- The routes of a step. -/
def tracedRefs (step : Step) : List (String × TracedProvenance) :=
  (collectFromStatements step.body).map (fun route => (route.1, .success)) ++
    (match step.onFailure with
      | none => []
      | some onFailure => tracedCompensation onFailure.body ∅ fun _ => none) ++
    step.outcomes.map fun clause => (clause.route.name, .success)

/-- Without the origins these are the routes of the graph pass. -/
def TracedProvenance.forget : TracedProvenance → Provenance
  | .success => .success
  | .failure defines _ => .failure defines

/-! ### The graph -/

/-- What the two iterations run over. -/
structure Dataflow where
  steps : List Step
  inputs : Finset String
  inputOrigins : List (String × Span)
  after : Fin steps.length → List (Fin steps.length)
  afterUnknown : Fin steps.length → Bool
  routes : List (TracedEdge steps.length)
  fallPred : Fin steps.length → Option (Fin steps.length)
  /-- The names that fall out of scope at a `collect` step; at other steps there are none. -/
  masks : Fin steps.length → Finset String

/-- The names that a region binds fall out of scope at its `collect`. -/
def Flow.masks (flow : Flow) (position : Fin flow.count) : Finset String :=
  (flow.form.1.filter (·.closing = position)).foldr (fun region names =>
    ((List.finRange flow.count).filter fun index => region.opening ≤ index ∧ index < region.closing).foldr
      (fun index locals => definedNames (flow.steps.get index) ∪ locals) names) ∅

/-- The dataflow graph of a flow. -/
def Flow.dataflow (flow : Flow) (inputs : List (String × Span)) : Dataflow where
  steps := flow.steps
  inputs := (inputs.map Prod.fst).toFinset
  inputOrigins := inputs
  after := flow.after
  afterUnknown := flow.afterUnknown
  routes := (List.finRange flow.count).flatMap fun position =>
    (tracedRefs (flow.steps.get position)).filterMap fun route =>
      (flow.index route.1).map fun target => ⟨position, target, route.2⟩
  fallPred := flow.edges.fallPred
  masks := flow.masks

/-- A place of a table: what a step is entered with, or what it hands on. -/
inductive Node (n : ℕ)
  | into (position : Fin n)
  | out (position : Fin n)
  deriving DecidableEq, Fintype

/-- A visit to a position sets both its places. -/
def visits {n : ℕ} (positions : List (Fin n)) : List (Node n) :=
  positions.flatMap fun position => [.into position, .out position]

namespace Dataflow

variable (graph : Dataflow)

/-- The number of steps. -/
abbrev count : ℕ := graph.steps.length

/-- The names a position binds. -/
def defined (position : Fin graph.count) : Finset String := definedNames (graph.steps.get position)

/-- Every name that some step binds, and the inputs. -/
def universeNames : Finset String :=
  (List.finRange graph.count).foldl (fun names position =>
      names ∪ graph.defined position) graph.inputs

/-- What the alternative paths into a step carry: the start of the flow, the arming by
dependencies, the routes to the step, and the fall from the step above. -/
def paths {α : Type} (inputs arming : α) (route : TracedEdge graph.count → α)
    (out : Fin graph.count → α) (position : Fin graph.count) : List α :=
  (if position.val = 0 then [inputs] else []) ++
    (if (graph.after position).isEmpty then [] else [arming]) ++
    (graph.routes.filter (·.target = position)).map route ++
      (graph.fallPred position).toList.map out

/-! ### Guaranteed names -/

variable (avail : Node graph.count → Finset String)

/-- A compensation route carries what its step was entered with and what the block bound. -/
def contribution (edge : TracedEdge graph.count) :
    Finset String :=
  match edge.provenance with
  | .success => avail (.out edge.source)
  | .failure defines _ => avail (.into edge.source) ∪ defines

/-- The names available on entry to a step. -/
def incoming (position : Fin graph.count) :
    Finset String :=
  if graph.afterUnknown position then graph.universeNames
  else
    let arming := (graph.after position).foldl (fun names dependency => names ∪ avail (.out dependency)) graph.inputs
    match graph.paths graph.inputs arming (graph.contribution avail)
      (fun predecessor => avail (.out predecessor)) position with
    | [] => arming
    | first :: rest => arming ∪ rest.foldl (· ∩ ·) first

/-- One equation of the availability system. -/
def availStep : Node graph.count → (Node graph.count → Finset String) → Finset String
  | .into position, avail => graph.incoming avail position
  | .out position, avail => (avail (.into position) \ graph.masks position) ∪ graph.defined position

/-- The iteration starts from every name that a body binds. -/
def availStart : Node graph.count → Finset String := fun _ => graph.universeNames

/-- The result of the iteration, with an order of the positions for each pass. -/
def Available (orders : ℕ → List (Fin graph.count)) (avail : Node graph.count → Finset String) :
    Prop :=
  Settles graph.availStep (fun pass => visits (orders pass)) graph.availStart avail

/-! ### Their origins -/

/-- What is known of a name from two sides. -/
def mergeOrigin : Option OriginSet → Option OriginSet → Option OriginSet
  | some (.known existing), some (.known incoming) => some (.known (existing ∪ incoming))
  | some (.known _), some .unknown => some .unknown
  | some .unknown, _ => some .unknown
  | none, origin => origin
  | some (.known existing), none => some (.known existing)

/-- The union of two tables of origins. -/
def mergeOrigins (target source : Origins) : Origins :=
  fun name => mergeOrigin (target name) (source name)

/-- The declaration sites over alternative paths; one ambiguous path makes the join ambiguous. -/
def unionPaths (paths : List (Option OriginSet)) : OriginSet :=
  paths.foldl (fun union path =>
    match union, path with
    | .known existing, some (.known incoming) => .known (existing ∪ incoming)
    | _, _ => .unknown) (.known ∅)

/-- A name is added when every path carries it. -/
def mergeDisjunctive (incoming : Origins) (paths : List Origins) : Origins := fun name =>
  if paths ≠ [] ∧ paths.all (fun path => (path name).isSome) = true then
    mergeOrigin (incoming name) (some (unionPaths (paths.map fun path => path name)))
  else incoming name

/-- The origins of the inputs. -/
def inputOriginsMap : Origins :=
  graph.inputOrigins.foldl (fun origins input => insertOrigin origins input.1 input.2) fun _ => none

/-- The origins an edge hands on. -/
def originContribution (origins : Node graph.count → Origins) (edge : TracedEdge graph.count) :
    Origins :=
  match edge.provenance with
  | .success => origins (.out edge.source)
  | .failure _ carried => mergeOrigins (origins (.into edge.source)) carried

/-- Every guaranteed name, with an origin that is not known. -/
def unknownOrigins (names : Finset String) : Origins :=
  fun name => if name ∈ names then some .unknown else none

/-- The origins on entry to a step. -/
def incomingOrigins
    (origins : Node graph.count → Origins) (position : Fin graph.count) : Origins :=
  if graph.afterUnknown position then unknownOrigins (avail (.into position))
  else
    let arming := (graph.after position).foldl (fun merged dependency => mergeOrigins merged (origins (.out dependency)))
      graph.inputOriginsMap
    let merged := mergeDisjunctive arming
      (graph.paths graph.inputOriginsMap arming (graph.originContribution origins)
          (fun predecessor => origins (.out predecessor))
        position)
    fun name => if name ∈ avail (.into position) then merged name else none

/-- One equation of the origin system. -/
def originStep :
    Node graph.count → (Node graph.count → Origins) → Origins
  | .into position, origins => graph.incomingOrigins avail origins position
  | .out position, origins => fun name =>
    match definedOrigins (graph.steps.get position) name with
    | some origin => some origin
    | none => if name ∈ graph.masks position then none else origins (.into position) name

/-- Both tables start from the names a step is entered with. -/
def originStart : Node graph.count → Origins
  | .into position => unknownOrigins (avail (.into position))
  | .out position => unknownOrigins (avail (.into position))

/-- The result of the iteration over the positions in order. -/
def Origin (origins : Node graph.count → Origins) :
    Prop :=
  Settles (graph.originStep avail) (fun _ => visits (List.finRange graph.count))
    (graph.originStart avail) origins

end Dataflow

end Aion.Awl
