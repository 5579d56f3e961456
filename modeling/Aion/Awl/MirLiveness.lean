import Aion.Awl.MirOps
import Mathlib.Data.Finset.Sort
import Mathlib.Data.List.ReduceOption

/-!
# Liveness of the middle representation

The backward walk that fills the `live_after` list of every call and bind of a flow function with
the variables to be spilled across it (`mir/lower/liveness.rs`). The sets of the source are finite
sets; where it writes to a block in place, the functions here return the new block beside the set.
-/

namespace Aion.Awl.Mir

/-! ### The walk -/

/-- `single`. -/
def single : Value → Finset Var
  | .var v => {v}
  | _ => ∅

/-- `value_set`. -/
def valueSet (values : List Value) : Finset Var :=
  values.foldl (fun set value => set ∪ single value) ∅

/-- `test_uses`. -/
def testUses : Test → Finset Var
  | .isTrue value => single value
  | .isTagged value _ _ => single value
  | .cmp _ lhs rhs => single lhs ∪ single rhs
  | .not inner => testUses inner

/-- `uses`. -/
def uses : Stmt → Finset Var
  | .bind _ value _ => single value
  | .fieldGet _ base _ _ => single base
  | .recordNew _ _ args _ => valueSet args
  | .tupleNew _ items _ => valueSet items
  | .listNew _ items _ => valueSet items
  | .callRt _ _ args _ _ => valueSet args
  | .callLocal _ _ args _ _ => valueSet args
  | .callClosure _ closure args _ _ => single closure ∪ valueSet args
  | .makeClosure _ _ captures _ => valueSet captures
  | .waitTimeoutCase _ _ captures _ _ => valueSet captures
  | .attempt _ captures _ _ _ _ => valueSet captures
  | .tryBind _ result _ _ => {result}
  | .cmp _ _ lhs rhs _ => single lhs ∪ single rhs
  | .boolOp _ _ lhs rhs _ => single lhs ∪ single rhs
  | .concat _ lhs rhs _ => single lhs ∪ single rhs
  | .listPrepend _ head tail _ => single head ∪ single tail
  | .not _ src _ => single src
  | .increment _ src _ => {src}
  | .assertList _ list _ => {list}
  | .assertSome _ option _ => {option}
  | .indexGuard _ base _ _ _ => {base}
  | .jsonObj _ pairs _ =>
    pairs.foldl (fun set pair => match pair with | (_, .encoded value _) => set ∪ single value) ∅

/-- `defs`. -/
def defs (stmt : Stmt) : Finset Var :=
  let set := stmt.defined.elim ∅ fun dst => {dst}
  match stmt with
  | .assertList binds _ _ => set ∪ binds.reduceOption.toFinset
  | _ => set

/-- `set_live_after`. -/
def setLiveAfter (stmt : Stmt) (liveOut defs : Finset Var) : Stmt :=
  let across := (liveOut \ defs).sort
  match stmt with
  | .callRt dst callee args _ span => .callRt dst callee args across span
  | .callLocal dst callee args _ span => .callLocal dst callee args across span
  | .callClosure dst closure args _ span => .callClosure dst closure args across span
  | .tryBind dst result _ span => .tryBind dst result across span
  | stmt => stmt

mutual

/-- `block_live_in`: the variables live on entry, and the annotated block. -/
def blockLiveIn : Block → Finset Var × Block
  | ⟨stmts, tail⟩ =>
    let atTail := tailLiveIn tail
    let atStart := stmtsLiveIn atTail.1 stmts
    (atStart.1, ⟨atStart.2, atTail.2⟩)

/-- The loop of `block_live_in`, from the last statement to the first. An operation's nested blocks
are annotated before its own list here and after it in the source; no operation has both. -/
def stmtsLiveIn (live : Finset Var) : List Stmt → Finset Var × List Stmt
  | [] => (live, [])
  | stmt :: rest =>
    let out := stmtsLiveIn live rest
    ((out.1 \ defs stmt) ∪ uses stmt, setLiveAfter (annotateNested stmt) out.1 (defs stmt) :: out.2)

/-- `annotate_nested`. -/
def annotateNested : Stmt → Stmt
  | .attempt lifted captures defs onOk onErr span =>
    .attempt lifted captures defs (blockLiveIn onOk).2 (blockLiveIn onErr).2 span
  | stmt => stmt

/-- `tail_live_in`. -/
def tailLiveIn : Tail → Finset Var × Tail
  | .ret value => (single value, .ret value)
  | .tailLocal callee args => (valueSet args, .tailLocal callee args)
  | .tailRt callee args => (valueSet args, .tailRt callee args)
  | .ifElse test thenBlock elseBlock span =>
    let atThen := blockLiveIn thenBlock
    let atElse := blockLiveIn elseBlock
    (testUses test ∪ atThen.1 ∪ atElse.1, .ifElse test atThen.2 atElse.2 span)
  | .selectEnum subject arms span =>
    let atArms := armsLiveIn (single subject) arms
    (atArms.1, .selectEnum subject atArms.2 span)

/-- The loop of `tail_live_in` through the arms of a selection. -/
def armsLiveIn (live : Finset Var) : List (AtomRef × Block) → Finset Var × List (AtomRef × Block)
  | [] => (live, [])
  | (tag, arm) :: rest =>
    let atArm := blockLiveIn arm
    let out := armsLiveIn (live ∪ atArm.1) rest
    (out.1, (tag, atArm.2) :: out.2)

end

/-- The part of `annotate` for one function. -/
def annotateFn : MirFn → MirFn
  | .flow fn => .flow { fn with body := (blockLiveIn fn.body).2 }
  | .templated name span => .templated name span

/-- `annotate`. -/
def annotate (module : MirModule) : MirModule :=
  { module with functions := module.functions.map annotateFn }

end Aion.Awl.Mir
