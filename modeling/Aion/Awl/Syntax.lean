import Mathlib.Data.List.Basic

/-!
# Syntax of AWL flows

The tree that the AWL parser builds for steps, statements and expressions, field by field.
Comments, doc lines, blank-line trivia and the config line of a call are left out: no pass
modelled here reads them.

A step holds statements and a statement may hold steps: substeps nest in bodies, in forks, in
loops and in `on failure` blocks. The types are therefore declared together.
-/

namespace Aion.Awl

/-- A stretch of source text, by byte offsets, with the line and the column of its start. -/
structure Span where
  start : ℕ
  stop : ℕ
  line : ℕ
  column : ℕ
  deriving DecidableEq, Repr

/-! ### Expressions -/

/-- The units of a duration. -/
inductive DurationUnit
  | seconds
  | minutes
  | hours
  | days
  deriving DecidableEq, Repr

/-- A duration as written. -/
structure DurationLiteral where
  span : Span
  magnitude : ℕ
  unit : DurationUnit
  deriving DecidableEq, Repr

/-- The binary operators. -/
inductive BinaryOp
  | or
  | and
  | eq
  | ne
  | lt
  | le
  | gt
  | ge
  | concat
  deriving DecidableEq, Repr

/-- The tests of a value. -/
inductive PredicateKind
  | empty
  | present
  | absent
  deriving DecidableEq, Repr

/-- The quantifiers over a collection. -/
inductive Quantifier
  | any
  | all
  deriving DecidableEq, Repr

mutual

/-- An expression, as guards, arguments, seeds, bounds and pipes hold it. -/
inductive Expr
  | string (span : Span) (value : String)
  | rawString (span : Span) (value : String)
  | json (span : Span) (body : String) (bodySpan : Span)
  | schemaOf (span : Span) (name : String) (nameSpan : Span)
  | int (span : Span) (value : ℕ)
  | float (span : Span) (value : String)
  | bool (span : Span) (value : Bool)
  | duration (literal : DurationLiteral)
  | list (span : Span) (items : List Expr)
  | ref (span : Span) (name : String)
  | workflow (span : Span)
  | variant (span : Span) (name : String)
  | record (span : Span) (name : String) (nameSpan : Span) (args : List Arg)
  | field (span : Span) (base : Expr) (name : String) (nameSpan : Span)
  | index (span : Span) (base : Expr) (index : ℕ) (indexSpan : Span)
  | accessor (span : Span) (name : String)
  | not (span : Span) (expr : Expr)
  | binary (span : Span) (left : Expr) (op : BinaryOp) (right : Expr)
  | predicate (span : Span) (subject : Expr) (kind : PredicateKind)
  | collectionPredicate (span : Span) (collection : Expr) (quantifier : Quantifier)
    (predicate : Expr)

/-- A named argument `name: value`. -/
structure Arg where
  span : Span
  name : String
  nameSpan : Span
  value : Expr

end

/-! ### Statements without a body -/

/-- One name in the `after` list of a step. -/
structure AfterRef where
  span : Span
  name : String

/-- A bound on the visits of a step. -/
structure MaxVisits where
  span : Span
  bound : Expr

/-- A result binding `-> name`. -/
structure Binding where
  span : Span
  name : String

/-- A call of an action. -/
structure Call where
  span : Span
  name : String
  nameSpan : Span
  args : List Arg

/-- A call as a statement, with its binding. -/
structure CallStmt where
  span : Span
  call : Call
  bind : Option Binding

/-- `spawn name(args…)`; a binding parses, for the checker to refuse it. -/
structure SpawnStmt where
  span : Span
  call : Call
  bind : Option Binding

/-- The combinators of a pipe. -/
inductive CombinatorKind
  | filter
  | map
  | sort
  | count
  | any
  | all
  deriving DecidableEq, Repr

/-- A combinator in a pipe. -/
structure CombinatorCall where
  span : Span
  kind : CombinatorKind
  arg : Option Expr

/-- A stage of a pipe. -/
inductive PipeStage
  | action (span : Span) (name : String)
  | field (span : Span) (name : String)
  | combinator (call : CombinatorCall)

/-- What a route carries. -/
inductive RoutePayload
  | args (args : List Arg)
  | value (value : Expr)

/-- Where a route goes: a step, a sibling, an outcome arm of the parent, or an outcome of the
flow. -/
structure RouteTarget where
  span : Span
  name : String
  nameSpan : Span
  payload : Option RoutePayload

/-- Where a pipe ends. -/
inductive PipeEnd
  | bind (binding : Binding)
  | route (target : RouteTarget)

/-- A pipe. -/
structure PipeStmt where
  span : Span
  head : Expr
  stages : List PipeStage
  ending : PipeEnd

/-- A wait for a signal. -/
structure WaitStmt where
  span : Span
  signal : String
  signalSpan : Span
  timeout : Option DurationLiteral
  bind : Binding

/-- A sleep. -/
structure SleepStmt where
  span : Span
  duration : DurationLiteral

/-- A route as a statement. -/
structure RouteStmt where
  span : Span
  target : RouteTarget

/-- How a region delivers its items. -/
inductive DeliveryVerb
  | distribute
  | sequence
  deriving DecidableEq, Repr

/-- `distribute var in collection`, or `sequence`: opens a region that runs once for each item. -/
structure DistributeStmt where
  span : Span
  verb : DeliveryVerb
  var : String
  varSpan : Span
  collection : Expr

/-- `collect binding -> name`: closes the region, gathering the binding of each instance. -/
structure CollectStmt where
  span : Span
  binding : String
  bindingSpan : Span
  tolerant : Bool
  bind : Binding

/-- What a fork branches over. -/
inductive ForkHeader
  | collection (var : String) (varSpan : Span) (collection : Expr) (sequential : Bool)
  | named

/-- The join of a fork. -/
structure JoinLine where
  span : Span
  bind : Option Binding

/-- The `until` or the `max` line of a loop. -/
structure LoopTail where
  span : Span
  expr : Expr

/-- When an outcome arm fires. -/
inductive Guard
  | when (span : Span) (expr : Expr)
  | otherwise (span : Span)

/-- One `outcome name: guard, route target` of a step. -/
structure OutcomeClause where
  span : Span
  name : String
  nameSpan : Span
  guard : Guard
  route : RouteTarget

/-! ### Steps and the statements that hold statements -/

mutual

/-- A step of a flow. -/
structure Step where
  span : Span
  name : String
  nameSpan : Span
  after : List AfterRef
  body : List Statement
  onFailure : Option OnFailure
  outcomes : List OutcomeClause
  maxVisits : Option MaxVisits

/-- The compensation block of a step. -/
structure OnFailure where
  span : Span
  body : List Statement

/-- The statements of a body. -/
inductive Statement
  | call (call : CallStmt)
  | spawn (spawn : SpawnStmt)
  | pipe (pipe : PipeStmt)
  | wait (wait : WaitStmt)
  | sleep (sleep : SleepStmt)
  | fork (fork : ForkStmt)
  | loop (looped : LoopStmt)
  | route (route : RouteStmt)
  | subStep (sub : Step)
  | distribute (distribute : DistributeStmt)
  | collect (collect : CollectStmt)

/-- A fork and its branches. -/
structure ForkStmt where
  span : Span
  header : ForkHeader
  body : List Statement
  join : JoinLine

/-- A loop and its body. -/
structure LoopStmt where
  span : Span
  var : String
  varSpan : Span
  seed : Expr
  counter : Option Binding
  body : List Statement
  untilTail : Option LoopTail
  maxTail : Option LoopTail

end

end Aion.Awl
