import Mathlib.Data.Int.Notation
import Mathlib.Data.List.Basic

/-!
# The middle representation of AWL

The statements, the tails and the functions that AWL flows are lowered to (`mir/ops.rs`,
`mir/func.rs`, `mir/unit.rs`), field by field. Control flow is a tree: a block is a straight line of
statements that ends in one tail, and the arms of a tail are blocks again.

Of a function the provenance and the types are left out, of a module the tables of its atoms,
literals, exports and types: no pass modelled here reads them. Machine integers are natural numbers
or integers.
-/

namespace Aion.Awl.Mir

/-! ### Identities -/

/-- A single-def variable, unique within one function body. -/
abbrev Var := ℕ

/-- An index into the atoms of the module. -/
structure AtomRef where
  index : ℕ

/-- An index into the literals of the module. -/
structure LitRef where
  index : ℕ

/-- An index into the functions of the module. -/
structure FnRef where
  index : ℕ

/-- A source position. -/
structure Span where
  line : ℕ
  column : ℕ

/-! ### Values and tests -/

/-- The scalar types. -/
inductive Leaf
  | bool | int | float | str | nil

/-- The closed set of runtime functions that generated code may call. -/
inductive RuntimeFn
  | wfDefine | wfRun | wfAll | wfMap | wfMapSettled | wfSpawn | wfSpawnAndWait | wfReceive | wfWithTimeout
  | wfSleep | wfId | actNew | actTaskQueue | actRetry | actTimeout | actNode | errCodec | mapActivityError
  | mapReceiveError | mapChildError | mapSpawnError | mapTimerError | mapEngineError
  | leafCodec (leaf : Leaf) | leafToJson (leaf : Leaf) | leafDecoder
    (leaf : Leaf) | nilCodec | rawCodec
  | decoded | jsonValueCodec | rtRun | rtIndex | jsonCodec | durationMs | errorTerminal | signalNew
  | childAwait | jObject | jString | jArray | jNullable | jToString | dField | dOptionalField | dSuccess
  | dFailure | dThen | dMap | dList | dOptional | lFlatten | lFilter | lMap | lAny | lAll | lSort | lLength
  | lTryFold | lFold | lReverse | lIsEmpty | oIsSome | oIsNone | cmpInt | cmpFloat | cmpString | strAppend
  | resultTry | intAdd

/-- A value operand. -/
inductive Value
  | var (v : Var)
  | lit (ref : LitRef)
  | atom (ref : AtomRef)
  | int (value : ℤ)
  | nil

/-- The comparisons, of floats apart. -/
inductive CmpOp
  | eq | ne | lt | le | gt | ge | fLt | fLe | fGt | fGe

/-- The operators on booleans. -/
inductive BoolBin
  | and | or

/-- The `to_json` function that a pair of a JSON object goes through. -/
inductive ToJsonRef
  | sdkLeaf (leaf : Leaf)
  | localFn (ref : FnRef)

/-- A pair's value in a JSON object. -/
inductive JsonVal
  | encoded (value : Value) (via : ToJsonRef)

/-- A test-position predicate. -/
inductive Test
  | isTrue (value : Value)
  | cmp (op : CmpOp) (lhs rhs : Value)
  | isTagged (value : Value) (tag : AtomRef) (arity : ℕ)
  | not (inner : Test)

/-! ### Statements, tails and blocks -/

mutual

/-- A straight line of statements that ends in one tail. -/
structure Block where
  stmts : List Stmt
  tail : Tail

/-- One instruction burst. -/
inductive Stmt
  | bind (dst : Var) (value : Value) (span : Span)
  | fieldGet (dst : Var) (base : Value) (index : ℕ) (span : Span)
  | recordNew (dst : Var) (tag : AtomRef) (args : List Value) (span : Span)
  | tupleNew (dst : Var) (items : List Value) (span : Span)
  | listNew (dst : Var) (items : List Value) (span : Span)
  | listPrepend (dst : Var) (head tail : Value) (span : Span)
  | callRt (dst : Option Var) (callee : RuntimeFn) (args : List Value) (liveAfter : List Var)
    (span : Span)
  | callLocal (dst : Option Var) (callee : FnRef) (args : List Value) (liveAfter : List Var)
    (span : Span)
  | callClosure (dst : Option Var) (closure : Value) (args : List Value) (liveAfter : List Var)
    (span : Span)
  | makeClosure (dst : Var) (lifted : FnRef) (captures : List Value) (span : Span)
  | tryBind (dst result : Var) (liveAfter : List Var) (span : Span)
  | waitTimeoutCase (dst : Var) (receive : FnRef) (captures : List Value) (deadlineMs : ℕ)
    (span : Span)
  | cmp (dst : Var) (op : CmpOp) (lhs rhs : Value) (span : Span)
  | boolOp (dst : Var) (op : BoolBin) (lhs rhs : Value) (span : Span)
  | not (dst : Var) (src : Value) (span : Span)
  | concat (dst : Var) (lhs rhs : Value) (span : Span)
  | increment (dst src : Var) (span : Span)
  | assertList (binds : List (Option Var)) (list : Var) (span : Span)
  | assertSome (dst option : Var) (span : Span)
  | jsonObj (dst : Var) (pairs : List (String × JsonVal)) (span : Span)
  | indexGuard (dst base : Var) (index : ℕ) (message : String) (span : Span)
  | attempt (lifted : FnRef) (captures : List Value) (defs : List Var) (onOk onErr : Block)
    (span : Span)

/-- The end of a block: a return, a tail call, or a choice between blocks. -/
inductive Tail
  | ret (value : Value)
  | tailLocal (callee : FnRef) (args : List Value)
  | tailRt (callee : RuntimeFn) (args : List Value)
  | ifElse (test : Test) (thenBlock elseBlock : Block) (span : Span)
  | selectEnum (subject : Value) (arms : List (AtomRef × Block)) (span : Span)

end

/-- `Stmt::defined`: the single variable that an op defines, when it defines one. -/
def Stmt.defined : Stmt → Option Var
  | .bind dst .. => some dst
  | .fieldGet dst .. => some dst
  | .recordNew dst .. => some dst
  | .tupleNew dst .. => some dst
  | .listNew dst .. => some dst
  | .listPrepend dst .. => some dst
  | .makeClosure dst .. => some dst
  | .tryBind dst .. => some dst
  | .waitTimeoutCase dst .. => some dst
  | .cmp dst .. => some dst
  | .boolOp dst .. => some dst
  | .not dst .. => some dst
  | .concat dst .. => some dst
  | .increment dst .. => some dst
  | .assertSome dst .. => some dst
  | .jsonObj dst .. => some dst
  | .indexGuard dst .. => some dst
  | .callRt dst .. => dst
  | .callLocal dst .. => dst
  | .callClosure dst .. => dst
  | .assertList .. => none
  | .attempt .. => none

/-! ### Functions -/

/-- A flow function. -/
structure FlowFn where
  name : String
  /-- Declared parameters, captures appended. -/
  params : List Var
  body : Block
  span : Span
  /-- A layer of several statements was lowered in written order. -/
  degradedParallel : Bool

/-- A module function: a template shell or a flow function. -/
inductive MirFn
  | templated (name : String) (span : Span)
  | flow (fn : FlowFn)

/-- A lowered workflow module. -/
structure MirModule where
  name : String
  source : String
  functions : List MirFn

end Aion.Awl.Mir
