import Aion.Awl.MirLiveness
import Aion.Library.Liveness

/-!
# What the liveness lists hold

The paths of a flow body: through the statements of a block, then through its tail into one of the
blocks there, until a tail without blocks ends it. `live_after_exact` says of the lists that
`annotate` fills that each is the ascending list of the variables, other than the operation's own
results, that a path from behind the operation reads before it redefines them.

A path reads the operands that an operation has (`Stmt.operands`). The walk takes what is read from
`uses`, and `mem_uses` says that it forgets none.
-/

namespace Aion.Awl.Mir

open Liveness

/-! ### What an operation reads and defines -/

/-- The value of a JSON pair. -/
def JsonVal.value : JsonVal → Value
  | .encoded value _ => value

/-- The operands of a test. -/
def Test.operands : Test → List Value
  | .isTrue value => [value]
  | .cmp _ lhs rhs => [lhs, rhs]
  | .isTagged value _ _ => [value]
  | .not inner => inner.operands

/-- The operands of an operation. -/
def Stmt.operands : Stmt → List Value
  | .bind _ value _ => [value]
  | .fieldGet _ base _ _ => [base]
  | .recordNew _ _ args _ => args
  | .tupleNew _ items _ => items
  | .listNew _ items _ => items
  | .listPrepend _ head tail _ => [head, tail]
  | .callRt _ _ args _ _ => args
  | .callLocal _ _ args _ _ => args
  | .callClosure _ closure args _ _ => closure :: args
  | .makeClosure _ _ captures _ => captures
  | .tryBind _ result _ _ => [.var result]
  | .waitTimeoutCase _ _ captures _ _ => captures
  | .cmp _ _ lhs rhs _ => [lhs, rhs]
  | .boolOp _ _ lhs rhs _ => [lhs, rhs]
  | .not _ src _ => [src]
  | .concat _ lhs rhs _ => [lhs, rhs]
  | .increment _ src _ => [.var src]
  | .assertList _ list _ => [.var list]
  | .assertSome _ option _ => [.var option]
  | .jsonObj _ pairs _ => pairs.map fun pair => pair.2.value
  | .indexGuard _ base _ _ _ => [.var base]
  | .attempt _ captures _ _ _ _ => captures

/-- The variables that an operation defines. -/
def Stmt.results : Stmt → List Var
  | .assertList binds _ _ => binds.reduceOption
  | .attempt _ _ defs _ _ _ => defs
  | stmt => stmt.defined.toList

/-- The variables live across an operation, when it is one that records them. -/
def Stmt.liveAfter : Stmt → Option (List Var)
  | .callRt _ _ _ liveAfter _ => some liveAfter
  | .callLocal _ _ _ liveAfter _ => some liveAfter
  | .callClosure _ _ _ liveAfter _ => some liveAfter
  | .tryBind _ _ liveAfter _ => some liveAfter
  | _ => none

/-- The statement is an `Attempt`. -/
def Stmt.isAttempt : Stmt → Bool
  | .attempt .. => true
  | _ => false

variable {v : Var} {value : Value} {values : List Value} {test : Test} {stmt : Stmt}

theorem mem_single : v ∈ single value ↔ .var v = value := by
  cases value <;> simp [single]

theorem mem_foldl_single {α : Type*} (operand : α → Value) {items : List α} {set : Finset Var} :
    v ∈ items.foldl (fun set item => set ∪ single (operand item)) set ↔
      v ∈ set ∨ .var v ∈ items.map operand := by
  induction items generalizing set with
  | nil => simp
  | cons item items ih =>
    rw [List.foldl_cons, ih, Finset.mem_union, mem_single, List.map_cons, List.mem_cons, or_assoc]

theorem mem_valueSet : v ∈ valueSet values ↔ .var v ∈ values := by
  refine (mem_foldl_single id).trans ?_
  simp

theorem mem_testUses : v ∈ testUses test ↔ .var v ∈ test.operands := by
  induction test with
  | not inner ih => exact ih
  | _ => simp [testUses, Test.operands, mem_single]

/-- No operand is forgotten, and no other variable is taken for one. -/
theorem mem_uses : v ∈ uses stmt ↔ .var v ∈ stmt.operands := by
  cases stmt with
  | jsonObj dst pairs span =>
    refine (mem_foldl_single fun pair : String × JsonVal => pair.2.value).trans ?_
    simp [Stmt.operands]
  | _ => simp [uses, Stmt.operands, mem_single, mem_valueSet]

theorem mem_defs (h : stmt.isAttempt = false) : v ∈ defs stmt ↔ v ∈ stmt.results := by
  cases stmt with
  | attempt => simp [Stmt.isAttempt] at h
  | callRt dst | callLocal dst | callClosure dst =>
    cases dst <;> simp [defs, Stmt.results, Stmt.defined]
  | _ => simp [defs, Stmt.results, Stmt.defined]

/-! ### Paths -/

/-- The point of a path where these operands are read and these variables are defined. -/
def reading (operands : List Value) (results : List Var) : Point Var :=
  ⟨{v | .var v ∈ operands}, {v | v ∈ results}⟩

/-- An operation as a point of a path. -/
def Stmt.point (stmt : Stmt) : Point Var := reading stmt.operands stmt.results

mutual

/-- The paths from the start of a block to the end of the body. -/
def Block.paths : Block → Set (List (Point Var))
  | ⟨stmts, tail⟩ => along (stmts.map Stmt.point) tail.paths

/-- The paths from a tail to the end of the body. -/
def Tail.paths : Tail → Set (List (Point Var))
  | .ret value => through (reading [value] []) {[]}
  | .tailLocal _ args => through (reading args []) {[]}
  | .tailRt _ args => through (reading args []) {[]}
  | .ifElse test thenBlock elseBlock _ =>
    through (reading test.operands []) (thenBlock.paths ∪ elseBlock.paths)
  -- without an arm for the subject the body ends at the selection
  | .selectEnum subject arms _ => through (reading [subject] []) ({[]} ∪ armsPaths arms)

/-- The paths through one of the arms. -/
def armsPaths : List (AtomRef × Block) → Set (List (Point Var))
  | [] => ∅
  | (_, arm) :: rest => arm.paths ∪ armsPaths rest

end

/-- The blocks that a tail chooses from. -/
def Tail.blocks : Tail → List Block
  | .ifElse _ thenBlock elseBlock _ => [thenBlock, elseBlock]
  | .selectEnum _ arms _ => arms.map Prod.snd
  | _ => []

/-- The block is the body, or nested in its tail. -/
inductive Inside : Block → Block → Prop
  /-- The body itself. -/
  | self (body : Block) : Inside body body
  /-- In one of the blocks of the tail. -/
  | nested {block inner body : Block} (hinner : inner ∈ body.tail.blocks)
    (h : Inside block inner) : Inside block body

/-- No statement of the body, at any depth, is an `Attempt`. -/
def AttemptFree (body : Block) : Prop :=
  ∀ block, Inside block body → ∀ stmt ∈ block.stmts, stmt.isAttempt = false

/-- Every list of the block is ascending, and holds what is read behind its operation. -/
def ExactAt (block : Block) : Prop :=
  ∀ before op after liveAfter, block.stmts = before ++ op :: after → op.liveAfter = some liveAfter →
    liveAfter.Pairwise (· < ·) ∧
    ∀ v, v ∈ liveAfter ↔ v ∉ op.results ∧ v ∈ live (along (after.map Stmt.point) block.tail.paths)

variable {paths : Set (List (Point Var))} {inner : Block} {liveAfter : List Var}

theorem sizeOf_lt_of_mem_blocks {stmts : List Stmt} {tail : Tail} (h : inner ∈ tail.blocks) :
    sizeOf inner < sizeOf (Block.mk stmts tail) := by
  cases tail with
  | ifElse test thenBlock elseBlock span =>
    rcases List.mem_pair.mp h with rfl | rfl <;> simp <;> omega
  | selectEnum subject arms span =>
    obtain ⟨⟨tag, arm⟩, harm, rfl⟩ := List.mem_map.mp h
    have hlt := List.sizeOf_lt_of_mem harm
    simp at hlt ⊢
    omega
  | _ => simp [Tail.blocks] at h

/-- What holds of a block when it holds of the blocks in its tail holds of every block. -/
theorem Block.tailInduction {P : Block → Prop}
    (mk : ∀ stmts tail, (∀ inner ∈ tail.blocks, P inner) → P ⟨stmts, tail⟩) (block : Block) :
    P block := by
  obtain ⟨stmts, tail⟩ := block
  exact mk stmts tail fun inner hinner => tailInduction mk inner
termination_by sizeOf block
decreasing_by exact sizeOf_lt_of_mem_blocks hinner

variable {body : Block} {stmts : List Stmt} {tail : Tail} {arms : List (AtomRef × Block)}
  {set : Finset Var}

theorem nonempty_tailPaths (h : ∀ inner ∈ tail.blocks, inner.paths.Nonempty) :
    tail.paths.Nonempty := by
  cases tail <;> rw [Tail.paths] <;> apply nonempty_through
  case ifElse test thenBlock elseBlock span => exact (h thenBlock (by simp [Tail.blocks])).inl
  case selectEnum => exact (Set.singleton_nonempty _).inl
  all_goals exact Set.singleton_nonempty _

theorem nonempty_paths (body : Block) : body.paths.Nonempty := by
  induction body using Block.tailInduction with
  | mk stmts tail ih =>
    rw [Block.paths]
    exact nonempty_along (nonempty_tailPaths ih)

/-! ### The walk finds what is live -/

theorem attemptFree_nested (h : AttemptFree body) (hinner : inner ∈ body.tail.blocks) :
    AttemptFree inner :=
  fun block hblock => h block (.nested hinner hblock)

theorem attemptFree_mk {stmts : List Stmt} {tail : Tail} : AttemptFree ⟨stmts, tail⟩ ↔
    (∀ stmt ∈ stmts, stmt.isAttempt = false) ∧ ∀ inner ∈ tail.blocks, AttemptFree inner := by
  constructor
  · exact fun h => ⟨h _ (.self _), fun inner hinner => attemptFree_nested h hinner⟩
  · rintro ⟨hstmts, hinner⟩ block hblock
    cases hblock with
    | self => exact hstmts
    | nested hmem hblock => exact hinner _ hmem block hblock

theorem mem_stmtsLiveIn (hpaths : paths.Nonempty) (hset : ∀ v, v ∈ set ↔ v ∈ live paths)
    (hstmts : ∀ stmt ∈ stmts, stmt.isAttempt = false) (v : Var) :
    v ∈ (stmtsLiveIn set stmts).1 ↔ v ∈ live (along (stmts.map Stmt.point) paths) := by
  induction stmts with
  | nil => exact hset v
  | cons stmt rest ih =>
    obtain ⟨hstmt, hrest⟩ := List.forall_mem_cons.mp hstmts
    rw [stmtsLiveIn, List.map_cons, along_cons, mem_live_through (nonempty_along hpaths),
      ← ih hrest]
    simp only [Finset.mem_union, Finset.mem_sdiff, mem_uses, mem_defs hstmt]
    show _ ↔ .var v ∈ stmt.operands ∨ v ∉ stmt.results ∧ _
    tauto

theorem mem_armsLiveIn (ih : ∀ arm ∈ arms, ∀ v, v ∈ (blockLiveIn arm.2).1 ↔ v ∈ live arm.2.paths) :
    v ∈ (armsLiveIn set arms).1 ↔ v ∈ set ∨ v ∈ live (armsPaths arms) := by
  induction arms generalizing set with
  | nil => simp [armsLiveIn, armsPaths]
  | cons arm rest ihrest =>
    obtain ⟨harm, hrest⟩ := List.forall_mem_cons.mp ih
    obtain ⟨tag, block⟩ := arm
    rw [armsLiveIn, armsPaths, mem_live_union, ← harm v]
    show v ∈ (armsLiveIn _ rest).1 ↔ _
    rw [ihrest hrest, Finset.mem_union, or_assoc]

theorem mem_tailLiveIn
    (ih : ∀ inner ∈ tail.blocks, ∀ v, v ∈ (blockLiveIn inner).1 ↔ v ∈ live inner.paths) (v : Var) :
    v ∈ (tailLiveIn tail).1 ↔ v ∈ live tail.paths := by
  cases tail with
  | ret value =>
    rw [tailLiveIn, Tail.paths, mem_live_last, mem_single]
    simp [reading]
  | tailLocal callee args => rw [tailLiveIn, Tail.paths, mem_live_last, mem_valueSet]; rfl
  | tailRt callee args => rw [tailLiveIn, Tail.paths, mem_live_last, mem_valueSet]; rfl
  | ifElse test thenBlock elseBlock span =>
    have hthen := ih thenBlock (by simp [Tail.blocks]) v
    have helse := ih elseBlock (by simp [Tail.blocks]) v
    rw [tailLiveIn, Tail.paths, mem_live_through (nonempty_paths thenBlock).inl, mem_live_union,
      ← hthen, ← helse]
    simp [reading, mem_testUses]
  | selectEnum subject arms span =>
    have harms : ∀ arm ∈ arms, ∀ v, v ∈ (blockLiveIn arm.2).1 ↔ v ∈ live arm.2.paths :=
      fun arm harm => ih arm.2 (List.mem_map_of_mem harm)
    rw [tailLiveIn, Tail.paths, mem_live_through (Set.singleton_nonempty _).inl, mem_live_union]
    show v ∈ (armsLiveIn _ arms).1 ↔ _
    rw [mem_armsLiveIn harms, mem_single]
    simp [reading]

/-- The set that the walk returns for a block is what is live on its paths. -/
theorem mem_blockLiveIn (h : AttemptFree body) (v : Var) :
    v ∈ (blockLiveIn body).1 ↔ v ∈ live body.paths := by
  induction body using Block.tailInduction generalizing v with
  | mk stmts tail ih =>
    have htail : ∀ inner ∈ tail.blocks, ∀ v, v ∈ (blockLiveIn inner).1 ↔ v ∈ live inner.paths :=
      fun inner hinner => ih inner hinner (attemptFree_nested h hinner)
    rw [blockLiveIn, Block.paths]
    exact mem_stmtsLiveIn (nonempty_tailPaths fun inner _ => nonempty_paths inner)
      (mem_tailLiveIn htail)
      (h _ (.self _)) v

/-! ### What the walk leaves as it is -/

mutual

/-- The block with empty lists. -/
def Block.cleared : Block → Block
  | ⟨stmts, tail⟩ => ⟨clearedStmts stmts, tail.cleared⟩

/-- Statements with empty paths. -/
def clearedStmts : List Stmt → List Stmt
  | [] => []
  | stmt :: rest => stmt.cleared :: clearedStmts rest

/-- A statement with empty paths. -/
def Stmt.cleared : Stmt → Stmt
  | .callRt dst callee args _ span => .callRt dst callee args [] span
  | .callLocal dst callee args _ span => .callLocal dst callee args [] span
  | .callClosure dst closure args _ span => .callClosure dst closure args [] span
  | .tryBind dst result _ span => .tryBind dst result [] span
  | .attempt lifted captures defs onOk onErr span =>
    .attempt lifted captures defs onOk.cleared onErr.cleared span
  | stmt => stmt

/-- A tail with empty paths. -/
def Tail.cleared : Tail → Tail
  | .ifElse test thenBlock elseBlock span => .ifElse test thenBlock.cleared elseBlock.cleared span
  | .selectEnum subject arms span => .selectEnum subject (clearedArms arms) span
  | tail => tail

/-- Arms with empty paths. -/
def clearedArms : List (AtomRef × Block) → List (AtomRef × Block)
  | [] => []
  | (tag, arm) :: rest => (tag, arm.cleared) :: clearedArms rest

end

theorem cleared_setLiveAfter (stmt : Stmt) (liveOut defs : Finset Var) :
    (setLiveAfter stmt liveOut defs).cleared = stmt.cleared := by
  cases stmt <;> rfl

mutual

theorem cleared_blockLiveIn : ∀ body : Block, (blockLiveIn body).2.cleared = body.cleared
  | ⟨stmts, tail⟩ => by
    simp only [blockLiveIn, Block.cleared, cleared_stmtsLiveIn _ stmts, cleared_tailLiveIn tail]

theorem cleared_stmtsLiveIn (set : Finset Var) :
    ∀ stmts : List Stmt, clearedStmts (stmtsLiveIn set stmts).2 = clearedStmts stmts
  | [] => rfl
  | stmt :: rest => by
    simp only [stmtsLiveIn, clearedStmts, cleared_setLiveAfter, cleared_annotateNested stmt,
      cleared_stmtsLiveIn set rest]

theorem cleared_annotateNested : ∀ stmt : Stmt, (annotateNested stmt).cleared = stmt.cleared
  | .attempt lifted captures defs onOk onErr span => by
    simp only [annotateNested, Stmt.cleared, cleared_blockLiveIn onOk, cleared_blockLiveIn onErr]
  | .bind .. | .fieldGet .. | .recordNew .. | .tupleNew .. | .listNew .. | .listPrepend .. | .callRt .. | .callLocal ..
  | .callClosure .. | .makeClosure .. | .tryBind .. | .waitTimeoutCase .. | .cmp .. | .boolOp .. | .not .. | .concat ..
  | .increment .. | .assertList .. | .assertSome .. | .jsonObj .. | .indexGuard .. => rfl

theorem cleared_tailLiveIn : ∀ tail : Tail, (tailLiveIn tail).2.cleared = tail.cleared
  | .ret _ => rfl
  | .tailLocal _ _ => rfl
  | .tailRt _ _ => rfl
  | .ifElse test thenBlock elseBlock span => by
    simp only [tailLiveIn, Tail.cleared, cleared_blockLiveIn thenBlock,
      cleared_blockLiveIn elseBlock]
  | .selectEnum subject arms span => by
    simp only [tailLiveIn, Tail.cleared, cleared_armsLiveIn _ arms]

theorem cleared_armsLiveIn (set : Finset Var) :
    ∀ arms : List (AtomRef × Block), clearedArms (armsLiveIn set arms).2 = clearedArms arms
  | [] => rfl
  | (tag, arm) :: rest => by
    simp only [armsLiveIn, clearedArms, cleared_blockLiveIn arm, cleared_armsLiveIn _ rest]

end

/-! ### The lists -/

theorem point_setLiveAfter (stmt : Stmt) (liveOut defs : Finset Var) :
    (setLiveAfter stmt liveOut defs).point = stmt.point := by
  cases stmt <;> rfl

theorem point_annotateNested (stmt : Stmt) : (annotateNested stmt).point = stmt.point := by
  cases stmt <;> rfl

theorem map_point_stmtsLiveIn (set : Finset Var) (stmts : List Stmt) :
    (stmtsLiveIn set stmts).2.map Stmt.point = stmts.map Stmt.point := by
  induction stmts with
  | nil => rfl
  | cons stmt rest ih => simp [stmtsLiveIn, point_setLiveAfter, point_annotateNested, ih]

theorem armsPaths_armsLiveIn (ih : ∀ arm ∈ arms, (blockLiveIn arm.2).2.paths = arm.2.paths) :
    armsPaths (armsLiveIn set arms).2 = armsPaths arms := by
  induction arms generalizing set with
  | nil => rfl
  | cons arm rest ihrest =>
    obtain ⟨harm, hrest⟩ := List.forall_mem_cons.mp ih
    obtain ⟨tag, block⟩ := arm
    simp only [armsLiveIn, armsPaths, ihrest hrest, show (blockLiveIn block).2.paths =
      block.paths from harm]

theorem paths_tailLiveIn (ih : ∀ inner ∈ tail.blocks, (blockLiveIn inner).2.paths = inner.paths) :
    (tailLiveIn tail).2.paths = tail.paths := by
  cases tail with
  | ifElse test thenBlock elseBlock span =>
    simp only [tailLiveIn, Tail.paths, ih thenBlock (by simp [Tail.blocks]),
      ih elseBlock (by simp [Tail.blocks])]
  | selectEnum subject arms span =>
    have harms : ∀ arm ∈ arms, (blockLiveIn arm.2).2.paths = arm.2.paths :=
      fun arm harm => ih arm.2 (List.mem_map_of_mem harm)
    simp only [tailLiveIn, Tail.paths, armsPaths_armsLiveIn harms]
  | _ => rfl

theorem paths_blockLiveIn (body : Block) : (blockLiveIn body).2.paths = body.paths := by
  induction body using Block.tailInduction with
  | mk stmts tail ih =>
    simp only [blockLiveIn, Block.paths, map_point_stmtsLiveIn, paths_tailLiveIn ih]

theorem mem_blocks_armsLiveIn (h : inner ∈ (armsLiveIn set arms).2.map Prod.snd) :
    ∃ arm ∈ arms, inner = (blockLiveIn arm.2).2 := by
  induction arms generalizing set with
  | nil => simp [armsLiveIn] at h
  | cons arm rest ih =>
    obtain ⟨tag, block⟩ := arm
    rw [armsLiveIn, List.map_cons, List.mem_cons] at h
    rcases h with rfl | h
    · exact ⟨(tag, block), List.mem_cons_self, rfl⟩
    · obtain ⟨arm, harm, rfl⟩ := ih h
      exact ⟨arm, List.mem_cons_of_mem _ harm, rfl⟩

/-- The blocks of an annotated tail are annotated blocks of the tail. -/
theorem mem_blocks_tailLiveIn (h : inner ∈ (tailLiveIn tail).2.blocks) :
    ∃ block ∈ tail.blocks, inner = (blockLiveIn block).2 := by
  cases tail with
  | ifElse test thenBlock elseBlock span =>
    rcases List.mem_pair.mp h with rfl | rfl
    · exact ⟨thenBlock, by simp [Tail.blocks], rfl⟩
    · exact ⟨elseBlock, by simp [Tail.blocks], rfl⟩
  | selectEnum subject arms span =>
    obtain ⟨arm, harm, rfl⟩ := mem_blocks_armsLiveIn h
    exact ⟨arm.2, List.mem_map_of_mem harm, rfl⟩
  | _ => simp [tailLiveIn, Tail.blocks] at h

theorem liveAfter_annotated {liveOut defs : Finset Var}
    (h : (setLiveAfter (annotateNested stmt) liveOut defs).liveAfter = some liveAfter) :
    liveAfter = (liveOut \ defs).sort := by
  cases stmt <;> simp [annotateNested, setLiveAfter, Stmt.liveAfter] at h <;> exact h.symm

/-- The lists of a straight line of statements. -/
theorem exact_stmtsLiveIn (hpaths : paths.Nonempty) (hset : ∀ v, v ∈ set ↔ v ∈ live paths)
    (hstmts : ∀ stmt ∈ stmts, stmt.isAttempt = false) {before after : List Stmt} {op : Stmt}
    (hspl : (stmtsLiveIn set stmts).2 = before ++ op :: after)
    (hlive : op.liveAfter = some liveAfter) :
    liveAfter.Pairwise (· < ·) ∧ ∀ v, v ∈ liveAfter ↔ v ∉ op.results ∧
      v ∈ live (along (after.map Stmt.point) paths) := by
  induction stmts generalizing before with
  | nil => simp [stmtsLiveIn] at hspl
  | cons stmt rest ih =>
    obtain ⟨hstmt, hrest⟩ := List.forall_mem_cons.mp hstmts
    rw [stmtsLiveIn] at hspl
    cases before with
    | nil =>
      obtain ⟨rfl, rfl⟩ := List.cons.inj hspl
      obtain rfl := liveAfter_annotated hlive
      have hresults : (setLiveAfter (annotateNested stmt) (stmtsLiveIn set rest).1 (defs stmt)).results = stmt.results := by
        cases stmt <;> rfl
      refine ⟨(Finset.sortedLT_sort _).pairwise, fun v => ?_⟩
      rw [Finset.mem_sort, Finset.mem_sdiff, mem_defs hstmt, hresults, map_point_stmtsLiveIn,
        mem_stmtsLiveIn hpaths hset hrest, and_comm]
    | cons first before => exact ih hrest (List.cons.inj hspl).2

theorem exactAt_blockLiveIn (h : AttemptFree body) : ExactAt (blockLiveIn body).2 := by
  obtain ⟨stmts, tail⟩ := body
  intro before op after liveAfter hspl hlive
  have hblocks : ∀ inner ∈ tail.blocks, ∀ v, v ∈ (blockLiveIn inner).1 ↔ v ∈ live inner.paths :=
    fun inner hinner => mem_blockLiveIn (attemptFree_nested h hinner)
  have htail : (tailLiveIn tail).2.paths = tail.paths :=
    paths_tailLiveIn fun inner _ => paths_blockLiveIn inner
  show _ ∧ ∀ v, _ ↔ _ ∧ v ∈ live (along _ (tailLiveIn tail).2.paths)
  rw [htail]
  exact exact_stmtsLiveIn (nonempty_tailPaths fun inner _ => nonempty_paths inner)
    (mem_tailLiveIn hblocks)
    (h _ (.self _)) hspl hlive

theorem exactAt_of_inside {block : Block} (h : AttemptFree body)
    (hblock : Inside block (blockLiveIn body).2) : ExactAt block := by
  induction body using Block.tailInduction with
  | mk stmts tail ih =>
    cases hblock with
    | self => exact exactAt_blockLiveIn h
    | nested hinner hblock =>
      obtain ⟨inner, hmem, rfl⟩ := mem_blocks_tailLiveIn hinner
      exact ih inner hmem (attemptFree_nested h hmem) hblock

/-- **The liveness lists are exact.** `annotate` fills the lists of a flow function and changes
nothing else of it. When its body has no `Attempt`, then behind every operation that has a list, in
whatever block of the body, the list is ascending, and holds the variables, other than the
operation's results, that a path from there reads before it redefines them. -/
theorem live_after_exact (module : MirModule) {i : ℕ} {fn : FlowFn}
    (hfn : module.functions[i]? = some (.flow fn)) (hbody : AttemptFree fn.body) :
    ∃ body, (annotate module).functions[i]? = some (.flow { fn with body := body }) ∧
      body.cleared = fn.body.cleared ∧
      ∀ block, Inside block body → ExactAt block := by
  refine ⟨(blockLiveIn fn.body).2, ?_, cleared_blockLiveIn fn.body, fun block =>
      exactAt_of_inside hbody⟩
  rw [annotate, List.getElem?_map, hfn]
  rfl

/-- A call whose result decides between a bind and a return. -/
def guardedBind : FlowFn where
  name := "guarded"
  params := [0, 1]
  body :=
    ⟨[.callRt (some 2) .rtRun [.var 0] [] ⟨1, 1⟩],
     .ifElse (.isTrue (.var 2))
       ⟨[.tryBind 3 1 [] ⟨2, 1⟩], .ret (.var 3)⟩
       ⟨[], .ret (.var 0)⟩ ⟨1, 9⟩⟩
  span := ⟨1, 1⟩
  degradedParallel := false

theorem attemptFree_guardedBind : AttemptFree guardedBind.body := by
  simp [attemptFree_mk, guardedBind, Tail.blocks, Stmt.isAttempt]

theorem live_after_exact_guardedBind :
    ∃ body, (annotate ⟨"ship", "ship.awl",
        [.templated "run" ⟨1, 1⟩, .flow guardedBind]⟩).functions[1]? =
        some (.flow { guardedBind with body := body }) ∧
      body.cleared = guardedBind.body.cleared ∧ ∀ block, Inside block body → ExactAt block :=
  live_after_exact _ rfl attemptFree_guardedBind

/-- The subject of the bind and what the other branch returns are kept across the call. -/
example : (blockLiveIn guardedBind.body).2.stmts.map Stmt.liveAfter = [some [0, 1]] := by
  have hacross : ({2, 1, 0} \ {2} : Finset ℕ) = [0, 1].toFinset := by decide
  show [some ({2, 1, 0} \ {2} : Finset ℕ).sort] = _
  rw [hacross, (List.toFinset_sort (· ≤ ·) (by decide)).mpr (by decide)]

end Aion.Awl.Mir
