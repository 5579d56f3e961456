import Aion.Awl.Diagnostics
import Aion.Library.Digraph
import Mathlib.Data.Finset.Basic
import Mathlib.Data.Fintype.Card
import Mathlib.Data.List.FinRange

/-!
# The step graph of a flow

What the graph pass of the AWL checker reads off the steps of a flow: the routes a step
writes, whether it can hand control to the step below it, and the cycles of its `after`
dependencies. A step is known by its position in the list of steps.

`findAfterCycle` is a depth-first search with three colours. `findAfterCycle_eq_none_iff`: it
finds nothing exactly when no step waits, through `after`, for itself.

Recording references for the editor is left out.
-/

namespace Aion.Awl

open Digraph Relation

/-! ### Names a step binds -/

/-- The name of an optional binding. -/
def boundName : Option Binding → Finset String
  | none => ∅
  | some binding => {binding.name}

mutual

/-- Every name that statements bind for what comes after them. -/
def definedInStatements : List Statement → Finset String
  | [] => ∅
  | statement :: rest => definedInStatement statement ∪ definedInStatements rest

/-- The names a statement binds. -/
def definedInStatement : Statement → Finset String
  | .call call => boundName call.bind
  | .pipe ⟨_, _, _, .bind binding⟩ => {binding.name}
  | .pipe ⟨_, _, _, .route _⟩ => ∅
  | .wait wait => {wait.bind.name}
  -- Branches of a collection keep their bindings to themselves.
  | .fork ⟨_, .named, body, join⟩ => definedInStatements body ∪ boundName join.bind
  | .fork ⟨_, .collection .., _, join⟩ => boundName join.bind
  | .loop looped => insert looped.var (boundName looped.counter)
  | .distribute distribute => {distribute.var}
  | .collect collect => {collect.bind.name}
  | .subStep ⟨_, _, _, _, body, _, _, _⟩ => definedInStatements body
  | .spawn _ => ∅
  | .sleep _ => ∅
  | .route _ => ∅

end

/-! ### Routes -/

/-- What a route carries to its target: all that a completed step has bound, or, from an
`on failure` block, what the step was entered with and what the block bound before it. -/
inductive Provenance
  | success
  | failure (defines : Finset String)
  deriving DecidableEq

/-- A route between two of `n` steps. -/
structure RouteEdge (n : ℕ) where
  source : Fin n
  target : Fin n
  span : Span
  provenance : Provenance

/-- A route as it is written, before its target is resolved. -/
structure RouteRef where
  name : String
  span : Span
  provenance : Provenance

mutual

/-- The route targets that statements write, through forks and loops but not into substeps. -/
def collectFromStatements : List Statement → List (String × Span)
  | [] => []
  | statement :: rest => collectFromStatement statement ++ collectFromStatements rest

/-- The routes in a statement. -/
def collectFromStatement : Statement → List (String × Span)
  | .pipe ⟨_, _, _, .route target⟩ => [(target.name, target.nameSpan)]
  | .pipe ⟨_, _, _, .bind _⟩ => []
  | .route route => [(route.target.name, route.target.nameSpan)]
  | .fork ⟨_, _, body, _⟩ => collectFromStatements body
  | .loop ⟨_, _, _, _, _, body, _, _⟩ => collectFromStatements body
  | .call _ => []
  | .spawn _ => []
  | .wait _ => []
  | .sleep _ => []
  | .subStep _ => []
  | .distribute _ => []
  | .collect _ => []

end

/-- The routes of an `on failure` block, each with what the block bound before its statement. -/
def compensationRefs : List Statement → Finset String → List RouteRef
  | [], _ => []
  | statement :: rest, defines =>
    (collectFromStatement statement).map (fun route => ⟨route.1, route.2, .failure defines⟩) ++
      compensationRefs rest (defines ∪ definedInStatement statement)

/-- Every route a step writes itself: in its body, in its `on failure` block, in its outcomes. -/
def collectRouteRefs (step : Step) : List RouteRef :=
  (collectFromStatements step.body).map (fun route => ⟨route.1, route.2, .success⟩) ++
    (match step.onFailure with
      | none => []
      | some onFailure => compensationRefs onFailure.body ∅) ++
    step.outcomes.map fun clause => ⟨clause.route.name, clause.route.nameSpan, .success⟩

/-- The names a step routes to. -/
def collectRouteNames (step : Step) : List (String × Span) :=
  (collectRouteRefs step).map fun route => (route.name, route.span)

/-- Statements that end in a `route` line or in a pipe into a route. -/
def bodyEndsInRoute (body : List Statement) : Bool :=
  match body.getLast? with
  | some (.route _) => true
  | some (.pipe ⟨_, _, _, .route _⟩) => true
  | _ => false

/-- Whether a step can complete and hand control to the step below it. -/
def fallsThrough (step : Step) : Bool := step.outcomes.isEmpty && !bodyEndsInRoute step.body

/-- The step above, when it falls through and neither a dependency nor a route leads to this one. -/
def fallPred (steps : List Step) (after : Fin steps.length → List (Fin steps.length))
    (routes : List (RouteEdge steps.length)) : Fin steps.length → Option (Fin steps.length)
  | ⟨0, _⟩ => none
  | ⟨previous + 1, h⟩ =>
    if (after ⟨previous + 1, h⟩).isEmpty && !routes.any (·.target = ⟨previous + 1, h⟩) &&
        fallsThrough (steps.get ⟨previous, Nat.lt_of_succ_lt h⟩) then
      some ⟨previous, Nat.lt_of_succ_lt h⟩
    else none

/-! ### Cycles of `after` dependencies -/

/-- The colours of a depth-first search. -/
inductive Color
  | white
  | gray
  | black
  deriving DecidableEq

variable {n : ℕ}

/-- How many steps are still white. -/
def whites (color : Fin n → Color) : ℕ := (Finset.univ.filter fun v => color v = .white).card

variable {color : Fin n → Color} {node : Fin n}

theorem whites_update_lt (shade : Color) (hwhite : color node = .white)
    (hshade : shade ≠ .white) : whites (Function.update color node shade) < whites color := by
  refine Finset.card_lt_card (Finset.ssubset_iff_of_subset ?_ |>.mpr ⟨node, ?_, ?_⟩)
  · intro v hv
    by_cases hvn : v = node
    · subst hvn
      simpa using hwhite
    · simpa [hvn] using hv
  · simpa using hwhite
  · simpa using hshade

theorem whites_update_le {shade : Color} (hshade : shade ≠ .white) :
    whites (Function.update color node shade) ≤ whites color := by
  refine Finset.card_le_card fun v hv => ?_
  by_cases hvn : v = node
  · subst hvn
    simp [hshade] at hv
  · simpa [hvn] using hv

section AfterCycle

variable (after : Fin n → List (Fin n))

mutual

/-- Visit a white step: the error is a cycle, the result the colours afterwards. -/
def visit (node : Fin n) (color : Fin n → Color) (stack : List (Fin n))
    (hwhite : color node = .white) :
    Except (List (Fin n)) {color' : Fin n → Color // whites color' < whites color} :=
  have hgray := whites_update_lt .gray hwhite (by decide)
  match visitNexts (after node) (Function.update color node .gray) (stack ++ [node]) with
  | .error cycle => .error cycle
  | .ok ⟨color', h⟩ =>
    .ok ⟨Function.update color' node .black, lt_of_le_of_lt (whites_update_le (by decide)) (lt_of_le_of_lt h hgray)⟩
termination_by (whites color, 0)

/-- Go through the dependencies of the step on top of the stack. -/
def visitNexts (nexts : List (Fin n)) (color : Fin n → Color) (stack : List (Fin n)) :
    Except (List (Fin n)) {color' : Fin n → Color // whites color' ≤ whites color} :=
  match nexts with
  | [] => .ok ⟨color, le_rfl⟩
  | next :: rest =>
    if color next = .gray then
      .error (stack.drop ((stack.idxOf? next).getD 0))
    else if hwhite : color next = .white then
      match visit next color stack hwhite with
      | .error cycle => .error cycle
      | .ok ⟨color', h⟩ =>
        match visitNexts rest color' stack with
        | .error cycle => .error cycle
        | .ok ⟨color'', h'⟩ => .ok ⟨color'', h'.trans h.le⟩
    else visitNexts rest color stack
termination_by (whites color, nexts.length + 1)

end

/-- Start a visit at each step that is still white. -/
def findAfterCycleFrom : List (Fin n) → (Fin n → Color) → Option (List (Fin n))
  | [], _ => none
  | node :: rest, color =>
    if hwhite : color node = .white then
      match visit after node color [] hwhite with
      | .error cycle => some cycle
      | .ok color' => findAfterCycleFrom rest color'.1
    else findAfterCycleFrom rest color

/-- A cycle of `after` clauses, where there is one. -/
def findAfterCycle : Option (List (Fin n)) :=
  findAfterCycleFrom after (List.finRange n) fun _ => .white

end AfterCycle

/-! ### What the search finds -/

section AfterCycle

variable {after : Fin n → List (Fin n)}

/-- A step and one it waits for. -/
def Waits (after : Fin n → List (Fin n)) (u w : Fin n) : Prop := w ∈ after u

/-- The state of the search: the gray steps are those on the stack, each waiting for the next,
and the black steps wait only for black ones, none of them for itself. -/
structure Colored (after : Fin n → List (Fin n)) (color : Fin n → Color) (stack : List (Fin n)) :
    Prop where
  gray_iff : ∀ v, color v = .gray ↔ v ∈ stack
  nodup : stack.Nodup
  chain : stack.IsChain (Waits after)
  black : ∀ v, color v = .black → ∀ w, Waits after v w → color w = .black
  acyclic : ∀ v, color v = .black → ¬ TransGen (Waits after) v v

/-- What the search does to the colours: black stays, and only white steps change. -/
def Darkens (color color' : Fin n → Color) : Prop :=
  (∀ v, color v = .black → color' v = .black) ∧ ∀ v, color' v = .white → color v = .white

theorem Darkens.refl (color : Fin n → Color) : Darkens color color := ⟨fun _ h => h, fun _ h => h⟩

theorem Darkens.trans {a b c : Fin n → Color} (h : Darkens a b) (h' : Darkens b c) : Darkens a c :=
  ⟨fun v hv => h'.1 v (h.1 v hv), fun v hv => h.2 v (h'.2 v hv)⟩

variable {stack : List (Fin n)}

/-- A white step that the top of the stack waits for is put on it. -/
theorem Colored.enter (h : Colored after color stack)
    (hwhite : color node = .white) (hchain : (stack ++ [node]).IsChain (Waits after)) :
    Colored after (Function.update color node .gray) (stack ++ [node]) := by
  have hother : ∀ v, color v = .black → v ≠ node := by
    rintro v hv rfl
    rw [hwhite] at hv
    contradiction
  have hblack : ∀ v, Function.update color node .gray v = .black → color v = .black := by
    intro v hv
    by_cases hvn : v = node
    · subst hvn
      simp at hv
    · simpa [hvn] using hv
  refine ⟨fun v => ?_, ?_, hchain, fun v hv w hw => ?_, fun v hv => h.acyclic v (hblack v hv)⟩
  · by_cases hvn : v = node
    · simp [hvn]
    · simp [hvn, h.gray_iff v]
  · rw [List.nodup_append]
    refine ⟨h.nodup, List.nodup_singleton node, fun u hu w hw => ?_⟩
    rw [List.mem_singleton.mp hw]
    rintro rfl
    rw [(h.gray_iff u).mpr hu] at hwhite
    contradiction
  · have hw := h.black v (hblack v hv) w hw
    rwa [Function.update_of_ne (hother w hw)]

/-- The top of the stack becomes black once all it waits for is. -/
theorem Colored.leave (h : Colored after color (stack ++ [node]))
    (hnexts : ∀ w, Waits after node w → color w = .black) :
    Colored after (Function.update color node .black) stack := by
  have hnode : color node = .gray := (h.gray_iff node).mpr (by simp)
  have hother : ∀ v, color v = .black → v ≠ node := by
    rintro v hv rfl
    rw [hnode] at hv
    contradiction
  have hfresh : node ∉ stack :=
    fun hmem => (List.nodup_append.mp h.nodup).2.2 node hmem node (by simp) rfl
  -- What a black step reaches is black, so none of them reaches the new one.
  have hreach : ∀ v w, TransGen (Waits after) v w → (∀ x, Waits after v x → color x = .black) → color w = .black := by
    intro v w hvw hv
    induction hvw with
    | single hedge => exact hv _ hedge
    | tail _ hedge ih => exact h.black _ ih _ hedge
  refine ⟨fun v => ?_, (List.nodup_append.mp h.nodup).1, h.chain.left_of_append, fun v hv w hw =>
      ?_, fun v hv hcycle => ?_⟩
  · by_cases hvn : v = node
    · subst hvn
      simp [hfresh]
    · simp [hvn, h.gray_iff v]
  · have hw : color w = .black := by
      by_cases hvn : v = node
      · subst hvn
        exact hnexts w hw
      · exact h.black v (by simpa [hvn] using hv) w hw
    rwa [Function.update_of_ne (hother w hw)]
  · by_cases hvn : v = node
    · subst hvn
      exact hother v (hreach v v hcycle hnexts) rfl
    · exact h.acyclic v (by simpa [hvn] using hv) hcycle

/-- A gray step that the top of the stack waits for closes a cycle with the stack above it. -/
theorem Colored.cycle {next : Fin n} (h : Colored after color (stack ++ [node]))
    (hgray : color next = .gray) (hwaits : Waits after node next) :
    IsCycle (Waits after) ((stack ++ [node]).drop (((stack ++ [node]).idxOf? next).getD 0)) := by
  have hmem : next ∈ stack ++ [node] := (h.gray_iff next).mp hgray
  obtain ⟨i, hi⟩ : ∃ i, (stack ++ [node]).idxOf? next = some i := by
    rw [← Option.isSome_iff_exists, List.isSome_idxOf?]
    exact hmem
  obtain ⟨hlt, hget, -⟩ := List.idxOf?_eq_some_iff.mp hi
  rw [hi, Option.getD_some, List.drop_eq_getElem_cons hlt, hget]
  refine ⟨?_, ?_⟩
  · rw [← hget, ← List.drop_eq_getElem_cons hlt]
    exact h.nodup.sublist (List.drop_sublist i _)
  · have hdrop : next :: (stack ++ [node]).drop (i + 1) = (stack ++ [node]).drop i := by
      rw [← hget, ← List.drop_eq_getElem_cons hlt]
    have hlast : ((stack ++ [node]).drop i).getLast? = some node := by
      rw [List.getLast?_drop, if_neg (by omega)]
      simp
    rw [hdrop, List.isChain_append]
    refine ⟨h.chain.drop i, List.isChain_singleton next, fun u hu w hw => ?_⟩
    rw [hlast, Option.mem_def, Option.some.injEq] at hu
    rw [List.head?_cons, Option.mem_def, Option.some.injEq] at hw
    rw [← hu, ← hw]
    exact hwaits

/-- What a visit owes: the error is a cycle; otherwise the step is black afterwards. -/
def VisitSpec (after : Fin n → List (Fin n)) (bound : ℕ) : Prop :=
  ∀ (node : Fin n) (color : Fin n → Color) (stack : List (Fin n)) (hwhite : color node = .white),
    whites color < bound →
    Colored after color stack → (stack ++ [node]).IsChain (Waits after) →
    (∀ cycle, visit after node color stack hwhite = .error cycle → IsCycle (Waits after) cycle) ∧
      ∀ color', visit after node color stack hwhite = .ok color' →
        Colored after color'.1 stack ∧ Darkens color color'.1 ∧ color'.1 node = .black

/-- Going through the dependencies of the top of the stack, given what visits owe. -/
theorem visitNexts_spec {bound : ℕ} (hvisit : VisitSpec after bound) (nexts : List (Fin n))
    (hnexts : ∀ next ∈ nexts, Waits after node next) (color : Fin n → Color)
    (hbound : whites color < bound) (h : Colored after color (stack ++ [node])) :
    (∀ cycle, visitNexts after nexts color (stack ++ [node]) = .error cycle →
        IsCycle (Waits after) cycle) ∧
      ∀ color', visitNexts after nexts color (stack ++ [node]) = .ok color' →
        Colored after color'.1 (stack ++ [node]) ∧ Darkens color color'.1 ∧ ∀ next ∈ nexts,
          color'.1 next = .black := by
  induction nexts generalizing color with
  | nil =>
    rw [visitNexts]
    refine ⟨fun cycle hcycle => (nomatch hcycle), fun color' hcolor => ?_⟩
    cases hcolor
    exact ⟨h, Darkens.refl color, by simp⟩
  | cons next rest ih =>
    have hwaits : Waits after node next := hnexts next List.mem_cons_self
    have hrest : ∀ next ∈ rest, Waits after node next :=
      fun next hnext => hnexts next (List.mem_cons_of_mem _ hnext)
    rw [visitNexts]
    by_cases hgray : color next = .gray
    · rw [if_pos hgray]
      refine ⟨fun cycle hcycle => ?_, fun color' hcolor => nomatch hcolor⟩
      cases hcycle
      exact h.cycle hgray hwaits
    rw [if_neg hgray]
    by_cases hwhite : color next = .white
    · rw [dif_pos hwhite]
      have hchain : (stack ++ [node] ++ [next]).IsChain (Waits after) := by
        rw [List.isChain_append]
        refine ⟨h.chain, List.isChain_singleton next, fun u hu w hw => ?_⟩
        simp only [List.getLast?_append, List.getLast?_singleton, Option.some_or, Option.mem_def, Option.some.injEq] at hu
        simp only [List.head?_cons, Option.mem_def, Option.some.injEq] at hw
        rw [← hu, ← hw]
        exact hwaits
      obtain ⟨hfd, hdone⟩ := hvisit next color (stack ++ [node]) hwhite hbound h hchain
      cases hres : visit after next color (stack ++ [node]) hwhite with
      | error cycle =>
        refine ⟨fun cycle' hcycle => ?_, fun color' hcolor => nomatch hcolor⟩
        cases hcycle
        exact hfd cycle hres
      | ok visited =>
        obtain ⟨hcolored, hdark, hnext⟩ := hdone visited hres
        obtain ⟨hfd', hdone'⟩ := ih hrest visited.1 (visited.2.trans hbound) hcolored
        cases hres' : visitNexts after rest visited.1 (stack ++ [node]) with
        | error cycle =>
          refine ⟨fun cycle' hcycle => ?_, fun color' hcolor => ?_⟩
          · simp only [hres'] at hcycle
            cases hcycle
            exact hfd' cycle hres'
          · simp [hres'] at hcolor
        | ok final =>
          obtain ⟨hcolored', hdark', hnexts'⟩ := hdone' final hres'
          refine ⟨fun cycle' hcycle => ?_, fun color' hcolor => ?_⟩
          · simp [hres'] at hcycle
          · simp only [hres', Except.ok.injEq] at hcolor
            subst hcolor
            refine ⟨hcolored', hdark.trans hdark', fun w hw => ?_⟩
            rcases List.mem_cons.mp hw with rfl | hw
            · exact hdark'.1 _ hnext
            · exact hnexts' w hw
    · rw [dif_neg hwhite]
      have hblack : color next = .black := by
        cases hcolor : color next with
        | white => exact absurd hcolor hwhite
        | gray => exact absurd hcolor hgray
        | black => rfl
      obtain ⟨hfd, hdone⟩ := ih hrest color hbound h
      refine ⟨hfd, fun color' hcolor => ?_⟩
      obtain ⟨hcolored, hdark, hnexts'⟩ := hdone color' hcolor
      refine ⟨hcolored, hdark, fun w hw => ?_⟩
      rcases List.mem_cons.mp hw with rfl | hw
      · exact hdark.1 _ hblack
      · exact hnexts' w hw

theorem visit_spec (bound : ℕ) : VisitSpec after bound := by
  induction bound with
  | zero => exact fun _ _ _ _ hbound => absurd hbound (Nat.not_lt_zero _)
  | succ bound ih =>
    intro node color stack hwhite hbound h hchain
    have hgray : whites (Function.update color node .gray) < bound :=
      lt_of_lt_of_le (whites_update_lt .gray hwhite (by decide)) (Nat.lt_succ_iff.mp hbound)
    obtain ⟨hfd, hdone⟩ :=
      visitNexts_spec ih (after node) (fun _ hnext => hnext)
        (Function.update color node .gray) hgray (h.enter hwhite hchain)
    rw [visit]
    cases hres : visitNexts after (after node) (Function.update color node .gray) (stack ++ [node]) with
    | error cycle =>
      refine ⟨fun cycle' hcycle => ?_, fun color' hcolor => nomatch hcolor⟩
      cases hcycle
      exact hfd cycle hres
    | ok visited =>
      obtain ⟨hcolored, hdark, hnexts⟩ := hdone visited hres
      refine ⟨fun cycle' hcycle => (nomatch hcycle), fun color' hcolor => ?_⟩
      cases hcolor
      refine ⟨hcolored.leave fun w hw => hnexts w hw, ⟨fun v hv => ?_, fun v hv => ?_⟩, by simp⟩
      · by_cases hvn : v = node
        · simp [hvn]
        · simpa [hvn] using hdark.1 v (by simpa [hvn] using hv)
      · by_cases hvn : v = node
        · simp [hvn] at hv
        · simpa [hvn] using hdark.2 v (by simpa [hvn] using hv)

/-- The loop over all steps: an error is a cycle, and without one the listed steps are black. -/
theorem findAfterCycleFrom_spec (nodes : List (Fin n)) (color : Fin n → Color)
    (h : Colored after color []) :
    (∀ cycle, findAfterCycleFrom after nodes color = some cycle → IsCycle (Waits after) cycle) ∧
      (findAfterCycleFrom after nodes color = none → ∃ color', Colored after color' [] ∧
          Darkens color color' ∧
        ∀ node ∈ nodes, color' node = .black) := by
  induction nodes generalizing color with
  | nil =>
    exact ⟨fun cycle hcycle => (nomatch hcycle), fun _ => ⟨color, h, Darkens.refl color, by simp⟩⟩
  | cons node rest ih =>
    rw [findAfterCycleFrom]
    by_cases hwhite : color node = .white
    · rw [dif_pos hwhite]
      obtain ⟨hfd, hdone⟩ :=
        visit_spec (whites color + 1) node color [] hwhite (Nat.lt_succ_self _) h (List.isChain_singleton node)
      cases hres : visit after node color [] hwhite with
      | error cycle =>
        refine ⟨fun cycle' hcycle => ?_, fun hnone => nomatch hnone⟩
        cases hcycle
        exact hfd cycle hres
      | ok visited =>
        obtain ⟨hcolored, hdark, hnode⟩ := hdone visited hres
        obtain ⟨hfd', hdone'⟩ := ih visited.1 hcolored
        refine ⟨hfd', fun hnone => ?_⟩
        obtain ⟨color', hcolored', hdark', hnodes⟩ := hdone' hnone
        refine ⟨color', hcolored', hdark.trans hdark', fun w hw => ?_⟩
        rcases List.mem_cons.mp hw with rfl | hw
        · exact hdark'.1 _ hnode
        · exact hnodes w hw
    · rw [dif_neg hwhite]
      have hblack : color node = .black := by
        cases hcolor : color node with
        | white => exact absurd hcolor hwhite
        | gray => exact absurd ((h.gray_iff node).mp hcolor) List.not_mem_nil
        | black => rfl
      obtain ⟨hfd, hdone⟩ := ih color h
      refine ⟨hfd, fun hnone => ?_⟩
      obtain ⟨color', hcolored, hdark, hnodes⟩ := hdone hnone
      refine ⟨color', hcolored, hdark, fun w hw => ?_⟩
      rcases List.mem_cons.mp hw with rfl | hw
      · exact hdark.1 _ hblack
      · exact hnodes w hw

theorem Colored.start : Colored after (fun _ => .white) [] where
  gray_iff := by simp
  nodup := List.nodup_nil
  chain := List.isChain_nil
  black := by simp
  acyclic := by simp

theorem findAfterCycle_isCycle {cycle : List (Fin n)} (h : findAfterCycle after = some cycle) :
    IsCycle (Waits after) cycle := (findAfterCycleFrom_spec _ _ Colored.start).1 cycle h

/-- **The search finds a cycle of `after` dependencies exactly when there is one.** -/
theorem findAfterCycle_eq_none_iff :
    findAfterCycle after = none ↔ ¬ ∃ cycle, IsCycle (Waits after) cycle := by
  constructor
  · intro hnone
    obtain ⟨color, hcolored, -, hall⟩ := (findAfterCycleFrom_spec _ _ Colored.start).2 hnone
    rintro ⟨cycle, hcycle⟩
    obtain ⟨v, hv⟩ : ∃ v, v ∈ cycle := by
      cases cycle with
      | nil => exact hcycle.elim
      | cons first rest => exact ⟨first, List.mem_cons_self⟩
    exact hcolored.acyclic v (hall v (List.mem_finRange v))
      (exists_isCycle_iff.mp ⟨cycle, hcycle, hv⟩)
  · intro hacyclic
    cases hres : findAfterCycle after with
    | none => rfl
    | some cycle => exact absurd ⟨cycle, findAfterCycle_isCycle hres⟩ hacyclic

end AfterCycle

/-- Reported at the earliest step of the cycle, naming the steps and the first one again. -/
def reportAfterCycle (steps : Fin n → Step) (cycle : List (Fin n)) : List CheckError :=
  match cycle.min? with
  | none => []
  | some anchor =>
    [⟨(steps anchor).nameSpan,
      .afterCycle (cycle.map (fun member => (steps member).name) ++ (cycle.head?.map fun first => (steps first).name).toList)⟩]

end Aion.Awl
