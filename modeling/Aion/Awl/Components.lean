import Aion.Library.Digraph
import Mathlib.Algebra.GroupWithZero.Nat
import Mathlib.Data.Fintype.Card
import Mathlib.Data.List.FinRange
import Mathlib.Data.List.TakeDrop

/-!
# Strongly connected components

The two passes by which the AWL checker numbers the components of a step graph: an iterative
depth-first search notes the order in which steps are finished (`drain`, `postOrder`), then,
from the end of that order, each step not yet numbered gives its number to all that reach it
(`flood`, `number`). A graph is given by the list of successors of each step.

`stronglyConnected_eq_iff`: on every graph, two steps get one number exactly when each reaches
the other. The order is a finishing order because each turn of the search is a rule of
`Digraph.DepthFirst`; the numbers are right by `Digraph.FinishingOrder.reaches_of_avoids`.
-/

namespace Aion.Awl

open Digraph Relation

variable {n : ℕ}

/-! ### The two passes -/

/-- Edges as lists of successors give them. -/
def Edge (successors : Fin n → List (Fin n)) (u w : Fin n) : Prop := w ∈ successors u

/-- How many steps the search has not seen. -/
def unseen (seen : Fin n → Bool) : ℕ := (Finset.univ.filter fun v => seen v = false).card

/-- How much is left to do on the stack. -/
def pending (successors : Fin n → List (Fin n)) (stack : List (Fin n × ℕ)) : ℕ :=
  (stack.map fun frame => (successors frame.1).length - frame.2 + 1).sum

variable {component : Fin n → Option ℕ} {seen : Fin n → Bool} {node child v : Fin n}

theorem unseen_update_lt (h : ¬ seen child = true) :
    unseen (Function.update seen child true) < unseen seen := by
  refine Finset.card_lt_card (Finset.ssubset_iff_of_subset ?_ |>.mpr ⟨child, ?_, ?_⟩)
  · intro v hv
    by_cases hvc : v = child
    · subst hvc
      simp at hv
    · simpa [hvc] using hv
  · simpa using h
  · simp

section Passes

variable (successors : Fin n → List (Fin n))

/-- The inner loop of the first pass. A frame is a step and the index of its next successor;
the top of the stack is its head. -/
def drain (stack : List (Fin n × ℕ)) (order : List (Fin n)) (seen : Fin n → Bool) :
    List (Fin n) × (Fin n → Bool) :=
  match stack with
  | [] => (order, seen)
  | (node, next) :: rest =>
    match _hnext : (successors node)[next]? with
    | some child =>
      if _hseen : seen child = true then
        drain ((node, next + 1) :: rest) order seen
      else
        drain ((child, 0) :: (node, next + 1) :: rest) order (Function.update seen child true)
    | none => drain rest (order ++ [node]) seen
termination_by (unseen seen, pending successors stack)
decreasing_by
  · refine Prod.Lex.right _ ?_
    have hlt := (List.getElem?_eq_some_iff.mp _hnext).1
    simp only [pending, List.map_cons, List.sum_cons]
    omega
  · exact Prod.Lex.left _ _ (unseen_update_lt _hseen)
  · refine Prod.Lex.right _ ?_
    simp only [pending, List.map_cons, List.sum_cons]
    omega

/-- One turn of the outer loop of the first pass. -/
def postOrderFrom (state : List (Fin n) × (Fin n → Bool)) (start : Fin n) :
    List (Fin n) × (Fin n → Bool) :=
  if state.2 start then state else drain successors [(start, 0)] state.1
    (Function.update state.2 start true)

/-- The order in which the search finishes the steps. -/
def postOrder : List (Fin n) :=
  ((List.finRange n).foldl (postOrderFrom successors) ([], fun _ => false)).1

/-- The positions with an edge to the target. -/
def reversed (target : Fin n) : List (Fin n) :=
  (List.finRange n).flatMap fun source =>
    ((successors source).filter (· = target)).map fun _ => source

end Passes

/-- How many steps have no number yet. -/
def unassigned (component : Fin n → Option ℕ) : ℕ :=
  (Finset.univ.filter fun v => component v = none).card

theorem unassigned_update (current : ℕ) (h : component v = none) :
    unassigned (Function.update component v (some current)) + 1 = unassigned component := by
  have herase : (Finset.univ.filter fun w => Function.update component v (some current) w = none) =
      (Finset.univ.filter fun w => component w = none).erase v := by
    ext w
    by_cases hwv : w = v
    · subst hwv
      simp
    · simp [hwv]
  rw [unassigned, herase]
  exact Finset.card_erase_add_one (by simpa using h)

/-- Number the predecessors of a step that have no number, and put them on the stack. -/
def claimPreds (current : ℕ) :
    List (Fin n) → (Fin n → Option ℕ) → List (Fin n) → (Fin n → Option ℕ) × List (Fin n)
  | [], component, stack => (component, stack)
  | pred :: rest, component, stack =>
    if component pred = none then
      claimPreds current rest (Function.update component pred (some current)) (pred :: stack)
    else claimPreds current rest component stack

theorem claimPreds_measure (current : ℕ) (preds : List (Fin n)) (component : Fin n → Option ℕ)
    (stack : List (Fin n)) :
    unassigned (claimPreds current preds component stack).1 +
      (claimPreds current preds component stack).2.length =
      unassigned component + stack.length := by
  induction preds generalizing component stack with
  | nil => rfl
  | cons pred rest ih =>
    rw [claimPreds]
    split_ifs with hnone
    · have hone := unassigned_update current hnone
      rw [ih, List.length_cons]
      omega
    · exact ih component stack

/-- The inner loop of the second pass. -/
def flood (preds : Fin n → List (Fin n)) (current : ℕ) (stack : List (Fin n))
    (component : Fin n → Option ℕ) : Fin n → Option ℕ :=
  match stack with
  | [] => component
  | node :: rest =>
    flood preds current (claimPreds current (preds node) component rest).2
      (claimPreds current (preds node) component rest).1
termination_by unassigned component + stack.length
decreasing_by
  rw [claimPreds_measure, List.length_cons]
  omega

/-- The outer loop of the second pass. -/
def number (preds : Fin n → List (Fin n)) : List (Fin n) → ℕ → (Fin n → Option ℕ) → Fin n → Option ℕ
  | [], _, component => component
  | start :: rest, current, component =>
    if component start = none then
      number preds rest (current + 1) (flood preds current [start] (Function.update component start (some current)))
    else number preds rest current component

/-- The number of the component of each step; `none` is the mark of a step without one. -/
def stronglyConnected (successors : Fin n → List (Fin n)) : Fin n → Option ℕ :=
  number (reversed successors) (postOrder successors).reverse 0 fun _ => none

/-! ### The first pass -/

section FirstPass

variable {successors : Fin n → List (Fin n)}

/-- The state of the first pass: a depth-first search, with the steps seen being those opened
or finished, and the successors before the index of a frame seen. -/
structure Searching (successors : Fin n → List (Fin n)) (stack : List (Fin n × ℕ))
    (order : List (Fin n)) (seen : Fin n → Bool) : Prop where
  depthFirst : DepthFirst (Edge successors) (stack.map Prod.fst) order
  seen_iff : ∀ v, seen v = true ↔ v ∈ stack.map Prod.fst ∨ v ∈ order
  passed : ∀ frame ∈ stack, ∀ w ∈ (successors frame.1).take frame.2, seen w = true

variable {order : List (Fin n)} {rest : List (Fin n × ℕ)} {next : ℕ}

/-- A step not seen is opened. -/
theorem Searching.opened {stack : List (Fin n × ℕ)}
    (h : Searching successors stack order seen) (hnew : ¬ seen v = true)
    (hedge : ∀ u rest, stack.map Prod.fst = u :: rest → Edge successors u v) :
    Searching successors ((v, 0) :: stack) order (Function.update seen v true) where
  depthFirst := by
    refine h.depthFirst.push ?_ hedge
    rw [List.mem_append, ← h.seen_iff v]
    exact hnew
  seen_iff := by
    intro w
    by_cases hwv : w = v
    · simp [hwv]
    · simpa [hwv] using h.seen_iff w
  passed := by
    have hkeep : ∀ w, seen w = true → Function.update seen v true w = true := by
      intro w hw
      by_cases hwv : w = v
      · simp [hwv]
      · simpa [hwv] using hw
    intro frame hframe w hw
    rcases List.mem_cons.mp hframe with rfl | hframe
    · simp at hw
    · exact hkeep w (h.passed frame hframe w hw)

/-- The index of a frame passes a successor that is seen. -/
theorem passed_succ (hnext : (successors node)[next]? = some child)
    (hseen : seen child = true) (h : ∀ w ∈ (successors node).take next, seen w = true) :
    ∀ w ∈ (successors node).take (next + 1), seen w = true := by
  intro w hw
  rw [List.take_add_one, hnext, List.mem_append] at hw
  rcases hw with hw | hw
  · exact h w hw
  · obtain rfl : w = child := by simpa using hw
    exact hseen

theorem Searching.advance (h : Searching successors ((node, next) :: rest) order seen)
    (hnext : (successors node)[next]? = some child) (hseen : seen child = true) :
    Searching successors ((node, next + 1) :: rest) order seen where
  depthFirst := h.depthFirst
  seen_iff := h.seen_iff
  passed := by
    intro frame hframe
    rcases List.mem_cons.mp hframe with rfl | hframe
    · exact passed_succ hnext hseen (h.passed (node, next) List.mem_cons_self)
    · exact h.passed frame (List.mem_cons_of_mem _ hframe)

/-- The index of the top frame passes a successor that is not seen, and this one is opened. -/
theorem Searching.descend (h : Searching successors ((node, next) :: rest) order seen)
    (hnext : (successors node)[next]? = some child) (hnew : ¬ seen child = true) :
    Searching successors ((child, 0) :: (node, next + 1) :: rest) order
      (Function.update seen child true) := by
  have hopened : Searching successors ((child, 0) :: (node, next) :: rest) order (Function.update seen child true) := by
    refine h.opened hnew fun u below hspl => ?_
    obtain ⟨rfl, -⟩ := List.cons.inj hspl
    exact List.mem_of_getElem? hnext
  refine ⟨hopened.depthFirst, hopened.seen_iff, fun frame hframe => ?_⟩
  rcases List.mem_cons.mp hframe with rfl | hframe
  · simp
  rcases List.mem_cons.mp hframe with rfl | hframe
  · exact passed_succ hnext (by simp) (hopened.passed (node, next) (by simp))
  · exact hopened.passed frame (by simp [hframe])

/-- The top frame is finished when its index is past the last successor. -/
theorem Searching.finish (h : Searching successors ((node, next) :: rest) order seen)
    (hnext : (successors node)[next]? = none) :
    Searching successors rest (order ++ [node]) seen where
  depthFirst := by
    refine h.depthFirst.finish fun w hw => (h.seen_iff w).mp ?_
    refine h.passed (node, next) List.mem_cons_self w ?_
    rw [List.take_of_length_le (List.getElem?_eq_none_iff.mp hnext)]
    exact hw
  seen_iff := by
    intro w
    rw [h.seen_iff w, List.map_cons, List.mem_cons, List.mem_append, List.mem_singleton]
    tauto
  passed := fun frame hframe => h.passed frame (List.mem_cons_of_mem _ hframe)

theorem drain_searching (stack : List (Fin n × ℕ)) (order : List (Fin n)) (seen : Fin n → Bool)
    (h : Searching successors stack order seen) :
    Searching successors [] (drain successors stack order seen).1
      (drain successors stack order seen).2 ∧
      ∀ v, seen v = true → (drain successors stack order seen).2 v = true := by
  -- Along the recursion of the loop: a successor seen, a successor opened, a frame finished.
  fun_induction drain successors stack order seen with
  | case1 order seen => exact ⟨h, fun _ hv => hv⟩
  | case2 order seen node next rest child hnext hseen ih => exact ih (h.advance hnext hseen)
  | case3 order seen node next rest child hnext hseen ih =>
    obtain ⟨hdone, hkeep⟩ := ih (h.descend hnext hseen)
    refine ⟨hdone, fun v hv => hkeep v ?_⟩
    by_cases hvc : v = child
    · simp [hvc]
    · simpa [hvc] using hv
  | case4 order seen node next rest hnext ih => exact ih (h.finish hnext)

theorem postOrderFrom_searching {state : List (Fin n) × (Fin n → Bool)} (start : Fin n)
    (h : Searching successors [] state.1 state.2) :
    Searching successors [] (postOrderFrom successors state start).1
      (postOrderFrom successors state start).2 ∧
      (∀ v, state.2 v = true → (postOrderFrom successors state start).2 v = true) ∧
      (postOrderFrom successors state start).2 start = true := by
  rw [postOrderFrom]
  split_ifs with hseen
  · exact ⟨h, fun _ hv => hv, hseen⟩
  · obtain ⟨hdone, hkeep⟩ :=
      drain_searching _ _ _ (h.opened hseen fun u rest hspl => (nomatch hspl))
    refine ⟨hdone, fun v hv => hkeep v ?_, hkeep start (by simp)⟩
    by_cases hvs : v = start
    · simp [hvs]
    · simpa [hvs] using hv

theorem foldl_postOrderFrom_searching (starts : List (Fin n))
    (state : List (Fin n) × (Fin n → Bool)) (h : Searching successors [] state.1 state.2) :
    Searching successors [] (starts.foldl (postOrderFrom successors) state).1
      (starts.foldl (postOrderFrom successors) state).2 ∧
      (∀ v, state.2 v = true → (starts.foldl (postOrderFrom successors) state).2 v = true) ∧
      ∀ start ∈ starts, (starts.foldl (postOrderFrom successors) state).2 start = true := by
  induction starts generalizing state with
  | nil => exact ⟨h, fun _ hv => hv, by simp⟩
  | cons start rest ih =>
    obtain ⟨hturn, hkeep, hstart⟩ := postOrderFrom_searching start h
    obtain ⟨hdone, hkeep', hall⟩ := ih _ hturn
    refine ⟨hdone, fun v hv => hkeep' v (hkeep v hv), fun v hv => ?_⟩
    rcases List.mem_cons.mp hv with rfl | hv
    · exact hkeep' _ hstart
    · exact hall v hv

/-- The first pass lists every step once, in a finishing order. -/
theorem postOrder_spec (successors : Fin n → List (Fin n)) :
    FinishingOrder (Edge successors) (postOrder successors) ∧ (postOrder successors).Nodup ∧
      ∀ v, v ∈ postOrder successors := by
  have hstart : Searching successors [] ([] : List (Fin n)) (fun _ => false) :=
    ⟨DepthFirst.start, by simp, by simp⟩
  obtain ⟨hdone, -, hall⟩ :=
    foldl_postOrderFrom_searching (List.finRange n) ([], fun _ => false) hstart
  refine ⟨hdone.depthFirst.finishingOrder, hdone.depthFirst.nodup, fun v => ?_⟩
  have hseen := (hdone.seen_iff v).mp (hall v (List.mem_finRange v))
  exact hseen.resolve_left List.not_mem_nil

end FirstPass

/-! ### The second pass -/

section SecondPass

variable {successors : Fin n → List (Fin n)}

theorem mem_reversed {source target : Fin n} :
    source ∈ reversed successors target ↔ Edge successors source target := by
  simp only [reversed, List.mem_flatMap, List.mem_finRange, true_and, List.mem_map, List.mem_filter,
    decide_eq_true_eq]
  constructor
  · rintro ⟨source, target, ⟨hmem, rfl⟩, rfl⟩
    exact hmem
  · intro hedge
    exact ⟨source, target, ⟨hedge, rfl⟩, rfl⟩

/-- What numbering the predecessors of a step does. -/
structure Claims (current : ℕ) (preds : List (Fin n)) (component : Fin n → Option ℕ)
    (stack : List (Fin n)) (component' : Fin n → Option ℕ) (stack' : List (Fin n)) : Prop where
  kept : ∀ v, component v ≠ none → component' v = component v
  fresh : ∀ v, component v = none → component' v ≠ none → component' v = some current ∧
    v ∈ preds ∧ v ∈ stack'
  all : ∀ v ∈ preds, component' v ≠ none
  stacked : ∀ v ∈ stack, v ∈ stack'
  pushed : ∀ v ∈ stack', v ∈ stack ∨ component v = none ∧ component' v = some current

theorem claimPreds_claims (current : ℕ) (preds : List (Fin n)) (component : Fin n → Option ℕ)
    (stack : List (Fin n)) :
    Claims current preds component stack (claimPreds current preds component stack).1
      (claimPreds current preds component stack).2 := by
  induction preds generalizing component stack with
  | nil =>
    exact ⟨fun _ _ => rfl, fun v h h' => absurd h h', by simp, fun _ hv => hv, fun _ hv => .inl hv⟩
  | cons pred rest ih =>
    rw [claimPreds]
    split_ifs with hnone
    · have h := ih (Function.update component pred (some current)) (pred :: stack)
      have hpred : (claimPreds current rest (Function.update component pred (some current)) (pred :: stack)).1 pred =
          some current := by
        rw [h.kept pred (by simp), Function.update_self]
      refine ⟨fun v hv => ?_, fun v hv hv' => ?_, fun v hv => ?_, fun v hv => h.stacked v (List.mem_cons_of_mem _ hv),
        fun v hv => ?_⟩
      · have hne : v ≠ pred := by
          rintro rfl
          exact hv hnone
        rw [h.kept v (by simpa [hne] using hv), Function.update_of_ne hne]
      · by_cases hvp : v = pred
        · subst hvp
          exact ⟨hpred, List.mem_cons_self, h.stacked v List.mem_cons_self⟩
        · obtain ⟨hcur, hmem, hstack⟩ := h.fresh v (by simpa [hvp] using hv) hv'
          exact ⟨hcur, List.mem_cons_of_mem _ hmem, hstack⟩
      · rcases List.mem_cons.mp hv with rfl | hv
        · simp [hpred]
        · exact h.all v hv
      · rcases h.pushed v hv with hmem | ⟨hcomp, hcur⟩
        · rcases List.mem_cons.mp hmem with rfl | hmem
          · exact .inr ⟨hnone, hpred⟩
          · exact .inl hmem
        · refine .inr ⟨?_, hcur⟩
          by_cases hvp : v = pred
          · exact hvp ▸ hnone
          · simpa [hvp] using hcomp
    · have h := ih component stack
      refine ⟨h.kept, fun v hv hv' => ?_, fun v hv => ?_, h.stacked, h.pushed⟩
      · obtain ⟨hcur, hmem, hstack⟩ := h.fresh v hv hv'
        exact ⟨hcur, List.mem_cons_of_mem _ hmem, hstack⟩
      · rcases List.mem_cons.mp hv with rfl | hv
        · rwa [h.kept _ hnone]
        · exact h.all v hv

/-- Edges between steps that had no number when the flood began. -/
def Free (successors : Fin n → List (Fin n)) (base : Fin n → Option ℕ) (u w : Fin n) : Prop :=
  Edge successors u w ∧ base u = none ∧ base w = none

/-- The state of a flood from `start`: besides the numbers it began with, `current` is given to
steps that reach `start` through free edges; of those off the stack all predecessors are
numbered. -/
structure Flooding (successors : Fin n → List (Fin n)) (base : Fin n → Option ℕ) (current : ℕ)
    (start : Fin n) (stack : List (Fin n)) (component : Fin n → Option ℕ) : Prop where
  kept : ∀ v, base v ≠ none → component v = base v
  fresh : ∀ v, base v = none → component v ≠ none →
    component v = some current ∧ ReflTransGen (Free successors base) v start
  begun : base start = none ∧ component start ≠ none
  stacked : ∀ v ∈ stack, base v = none ∧ component v ≠ none
  closed : ∀ v, base v = none → component v ≠ none → v ∉ stack → ∀ u, Edge successors u v →
    component u ≠ none

variable {base : Fin n → Option ℕ} {start : Fin n} {current : ℕ}

theorem Flooding.turn {rest : List (Fin n)}
    (h : Flooding successors base current start (node :: rest) component) :
    Flooding successors base current start
      (claimPreds current (reversed successors node) component rest).2
      (claimPreds current (reversed successors node) component rest).1 := by
  have hclaims := claimPreds_claims current (reversed successors node) component rest
  obtain ⟨hfree, hnode⟩ := h.stacked node List.mem_cons_self
  have hkeep : ∀ v, component v ≠ none → (claimPreds current (reversed successors node) component rest).1 v ≠ none := by
    intro v hv
    rwa [hclaims.kept v hv]
  refine ⟨fun v hv => ?_, fun v hv hv' => ?_, ⟨h.begun.1, hkeep start h.begun.2⟩, fun v hv =>
      ?_, fun v hv hv' hoff u hu => ?_⟩
  · rw [hclaims.kept v (by rw [h.kept v hv]; exact hv), h.kept v hv]
  · by_cases hold : component v = none
    · obtain ⟨hcur, hmem, -⟩ := hclaims.fresh v hold hv'
      refine ⟨hcur, .head ⟨mem_reversed.mp hmem, hv, hfree⟩ (h.fresh node hfree hnode).2⟩
    · rw [hclaims.kept v hold]
      exact h.fresh v hv hold
  · rcases hclaims.pushed v hv with hmem | ⟨hnone, hcur⟩
    · obtain ⟨hbase, hcomp⟩ := h.stacked v (List.mem_cons_of_mem _ hmem)
      exact ⟨hbase, hkeep v hcomp⟩
    · refine ⟨?_, by simp [hcur]⟩
      by_contra hbase
      exact hbase (h.kept v hbase ▸ hnone)
  · by_cases hold : component v = none
    · exact absurd (hclaims.fresh v hold hv').2.2 hoff
    · by_cases hvn : v = node
      · subst hvn
        exact hclaims.all u (mem_reversed.mpr hu)
      · refine hkeep u (h.closed v hv hold (fun hmem => ?_) u hu)
        exact hoff (hclaims.stacked v ((List.mem_cons.mp hmem).resolve_left hvn))

/-- **A flood numbers exactly the steps that reach its start through steps without a number.** -/
theorem flood_spec (base : Fin n → Option ℕ) (current : ℕ) (start : Fin n) (stack : List (Fin n))
    (component : Fin n → Option ℕ) (h : Flooding successors base current start stack component) :
    Flooding successors base current start []
      (flood (reversed successors) current stack component) := by
  fun_induction flood (reversed successors) current stack component with
  | case1 component => exact h
  | case2 component node rest ih => exact ih h.turn

theorem Flooding.reaches (h : Flooding successors base current start [] component)
    (hpath : ReflTransGen (Free successors base) v start) : component v = some current := by
  -- Backwards along the path, from `start`.
  have hassigned : base v = none ∧ component v ≠ none := by
    induction hpath using ReflTransGen.head_induction_on with
    | refl => exact h.begun
    | head hedge _ ih => exact ⟨hedge.2.1, h.closed _ ih.1 ih.2 List.not_mem_nil _ hedge.1⟩
  exact (h.fresh v hassigned.1 hassigned.2).1

theorem Flooding.begin (current : ℕ) (hstart : base start = none) :
    Flooding successors base current start [start] (Function.update base start (some current)) := by
  refine ⟨fun v hv => ?_, fun v hv hv' => ?_, ⟨hstart, by simp⟩, fun v hv =>
      ?_, fun v hv hv' hoff => ?_⟩
  · refine Function.update_of_ne ?_ _ _
    rintro rfl
    exact hv hstart
  · by_cases hvs : v = start
    · subst hvs
      exact ⟨by simp, .refl⟩
    · exact absurd (by simpa [hvs] using hv) hv'
  · rw [List.mem_singleton.mp hv]
    exact ⟨hstart, by simp⟩
  · by_cases hvs : v = start
    · exact absurd (by simp [hvs]) hoff
    · exact absurd (by simpa [hvs] using hv) hv'

/-- A flood from a step without a number, as a whole. -/
theorem flood_flooding (successors : Fin n → List (Fin n)) (current : ℕ)
    (hstart : base start = none) : Flooding successors base current start []
      (flood (reversed successors) current [start] (Function.update base start (some current))) :=
  flood_spec base current start _ _ (Flooding.begin current hstart)

/-- The state of the second pass between floods: whole components are numbered, each with a
number of its own. -/
structure Numbered (successors : Fin n → List (Fin n)) (component : Fin n → Option ℕ)
    (current : ℕ) : Prop where
  below : ∀ v k, component v = some k → k < current
  same : ∀ u v, component u ≠ none → (component u = component v ↔ Mutual (Edge successors) u v)

/-- What reaches a step without a number and is reached by it does so through free edges. -/
theorem Numbered.free (h : Numbered successors component current) (hstart : component start = none)
    (hmutual : Mutual (Edge successors) v start) :
    ReflTransGen (Free successors component) v start := by
  have hnone : ∀ w, Mutual (Edge successors) w start → component w = none := by
    intro w hw
    by_contra hassigned
    exact hassigned (((h.same w start hassigned).mpr hw).trans hstart)
  obtain ⟨hto, hback⟩ := hmutual
  induction hto using ReflTransGen.head_induction_on with
  | refl => exact .refl
  | head hedge hrest ih =>
    have hback' := hback.tail hedge
    exact .head ⟨hedge, hnone _ ⟨.head hedge hrest, hback⟩, hnone _ ⟨hrest, hback'⟩⟩ (ih hback')

theorem Numbered.next {before after : List (Fin n)} (h : Numbered successors component current)
    (hstart : component start = none) (hspl : postOrder successors = before ++ start :: after)
    (hafter : ∀ w ∈ after, component w ≠ none) :
    Numbered successors (flood (reversed successors) current [start]
        (Function.update component start (some current)))
      (current + 1) := by
  have hflood := flood_flooding successors current hstart
  generalize flood (reversed successors) current [start]
    (Function.update component start (some current)) = component' at hflood ⊢
  obtain ⟨hfinishing, hnd, hall⟩ := postOrder_spec successors
  -- A step numbered by this flood and its start reach each other.
  have hmutual : ∀ v, component v = none → component' v ≠ none →
      Mutual (Edge successors) v start := by
    intro v hv hv'
    have hpath := (hflood.fresh v hv hv').2
    refine ⟨ReflTransGen.mono (fun _ _ hedge => hedge.1) _ _ hpath, ?_⟩
    exact hfinishing.reaches_of_avoids hall hnd hspl hafter
      (ReflTransGen.mono (fun _ _ hedge => ⟨hedge.1, not_not.mpr hedge.2.1, not_not.mpr hedge.2.2⟩) _ _ hpath) (not_not.mpr hv)
  refine ⟨fun v k hk => ?_, fun u v hu => ?_⟩
  · by_cases hv : component v = none
    · have hcur := (hflood.fresh v hv (by simp [hk])).1
      rw [hk, Option.some.injEq] at hcur
      omega
    · rw [hflood.kept v hv] at hk
      exact Nat.lt_succ_of_lt (h.below v k hk)
  · by_cases hold : component u = none
    · obtain ⟨hcur, -⟩ := hflood.fresh u hold hu
      have hustart := hmutual u hold hu
      constructor
      · intro heq
        have hv : component v = none := by
          by_contra hv
          obtain ⟨k, hk⟩ := Option.ne_none_iff_exists'.mp hv
          rw [hflood.kept v hv, hk, hcur, Option.some.injEq] at heq
          exact absurd (h.below v k hk) (by omega)
        exact hustart.trans (hmutual v hv (heq ▸ hu)).symm
      · intro huv
        rw [hcur, hflood.reaches (h.free hstart (huv.symm.trans hustart))]
    · rw [hflood.kept u hold]
      by_cases hv : component v = none
      · -- A step numbered before and one without a number are in different components.
        have hapart : ¬ Mutual (Edge successors) u v := fun huv => hold (((h.same u v hold).mpr huv).trans hv)
        refine ⟨fun heq => ?_, fun huv => absurd huv hapart⟩
        obtain ⟨k, hk⟩ := Option.ne_none_iff_exists'.mp hold
        have hcur := (hflood.fresh v hv (heq ▸ hold)).1
        rw [hk, hcur, Option.some.injEq] at heq
        exact absurd (h.below u k hk) (by omega)
      · rw [hflood.kept v hv]
        exact h.same u v hold

theorem number_spec (starts after : List (Fin n)) (current : ℕ) (component : Fin n → Option ℕ)
    (hspl : postOrder successors = starts.reverse ++ after)
    (h : Numbered successors component current) (hafter : ∀ w ∈ after, component w ≠ none) :
    ∃ current', Numbered successors (number (reversed successors) starts current component)
      current' ∧
      ∀ w, number (reversed successors) starts current component w ≠ none := by
  induction starts generalizing after current component with
  | nil =>
    refine ⟨current, h, fun w => hafter w ?_⟩
    have hall := (postOrder_spec successors).2.2 w
    rw [hspl] at hall
    simpa using hall
  | cons start rest ih =>
    rw [List.reverse_cons, List.append_assoc, List.singleton_append] at hspl
    rw [number]
    split_ifs with hstart
    · have hflood := flood_flooding successors current hstart
      refine ih (start :: after) (current + 1) _ hspl (h.next hstart hspl hafter) fun w hw => ?_
      rcases List.mem_cons.mp hw with rfl | hw
      · exact hflood.begun.2
      · rw [hflood.kept w (hafter w hw)]
        exact hafter w hw
    · refine ih (start :: after) current component hspl h fun w hw => ?_
      rcases List.mem_cons.mp hw with rfl | hw
      · exact hstart
      · exact hafter w hw

/-- **Two steps get one number exactly when each reaches the other.** -/
theorem stronglyConnected_eq_iff {u : Fin n} :
    stronglyConnected successors u = stronglyConnected successors v ↔
      Mutual (Edge successors) u v := by
  have hstart : Numbered successors (fun _ => none) 0 := ⟨by simp, by simp⟩
  obtain ⟨current, hnum, hall⟩ :=
    number_spec (postOrder successors).reverse [] 0 (fun _ => none) (by simp) hstart (by simp)
  exact hnum.same u v (hall u)

theorem stronglyConnected_ne_none (successors : Fin n → List (Fin n)) (v : Fin n) :
    stronglyConnected successors v ≠ none := by
  have hstart : Numbered successors (fun _ => none) 0 := ⟨by simp, by simp⟩
  obtain ⟨current, hnum, hall⟩ :=
    number_spec (postOrder successors).reverse [] 0 (fun _ => none) (by simp) hstart (by simp)
  exact hall v

end SecondPass

end Aion.Awl
