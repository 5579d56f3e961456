import Aion.Awl.EmitterGraph
import Aion.Awl.Regions
import Aion.Library.Result

/-!
# The layers of a region

`regions_layered`: when a flow passes the checker's reachability check and the emitter's
refusals and region check, each step stands in one layer of one region, the first layer of a
region is its entry, and a step stands below everything it waits for.

The relaxation that computes the layers is right when no step waits for itself along `after`
and fall-through edges together, which the check of `after` cycles alone does not give. It
follows from reachability: a step that waits for others is reached in no other way than
through them (`Reached.acc`), for the emitter refuses a step that is both routed to and
dependent, and a flow whose first step waits for something.
-/

namespace Aion.Awl

/-- The checks of the graph pass on which the layers rest. -/
def Flow.PassesChecks (flow : Flow) : Prop :=
  findAfterCycle flow.after = none ∧ flow.reachabilityErrors = []

/-! ### How a step is reached -/

/-- The ways in which the reachability check reaches a step. -/
inductive Flow.Reached (flow : Flow) : Fin flow.count → Prop
  | start {v : Fin flow.count} : v.val = 0 → Reached flow v
  | after {v : Fin flow.count} : flow.after v ≠ [] → (∀ u ∈ flow.after v, Reached flow u) →
    Reached flow v
  | unknown {v : Fin flow.count} : flow.afterUnknown v = true → Reached flow v
  | route {edge : RouteEdge flow.count} : edge ∈ flow.collectEdges → Reached flow edge.source →
    Reached flow edge.target
  | fall {u v : Fin flow.count} : flow.edges.fallPred v = some u → Reached flow u → Reached flow v

section Reached

variable {flow : Flow}

theorem Flow.reached_of_reachedFrom {reachable : Fin flow.count → Bool}
    (h : ∀ v, reachable v = true → flow.Reached v) {position : Fin flow.count}
    (hrch : flow.reachedFrom reachable position = true) : flow.Reached position := by
  simp only [Flow.reachedFrom, Bool.or_eq_true, Bool.and_eq_true, Bool.not_eq_true',
    List.isEmpty_eq_false_iff, List.all_eq_true,
    List.any_eq_true, Option.any_eq_true, decide_eq_true_eq] at hrch
  rcases hrch with ((⟨hne, hall⟩ | hunk) | ⟨edge, hedge, rfl, hsrc⟩) | ⟨u, hfall, hu⟩
  · exact .after hne fun u hu => h u (hall u hu)
  · exact .unknown hunk
  · exact .route hedge (h _ hsrc)
  · exact .fall hfall (h u hu)

theorem Flow.reached_of_reachPass {reachable : Fin flow.count → Bool}
    (h : ∀ v, reachable v = true → flow.Reached v) (positions : List (Fin flow.count))
    {v : Fin flow.count} (hv : positions.foldl flow.reachOnce reachable v = true) :
    flow.Reached v := by
  induction positions generalizing reachable with
  | nil => exact h v hv
  | cons position rest ih =>
    refine ih (fun w hw => ?_) hv
    unfold Flow.reachOnce at hw
    split_ifs at hw with hpos hrch
    · exact h w hw
    · by_cases hwp : w = position
      · subst hwp
        exact reached_of_reachedFrom h hrch
      · rw [Function.update_of_ne hwp] at hw
        exact h w hw
    · exact h w hw

theorem Flow.reached_of_reach (reachable : Fin flow.count → Bool)
    (h : ∀ v, reachable v = true → flow.Reached v) {v : Fin flow.count}
    (hv : flow.reach reachable v = true) : flow.Reached v := by
  induction reachable using Flow.reach.induct flow with
  | case1 reachable hsame =>
    rw [Flow.reach, dif_pos hsame] at hv
    exact h v hv
  | case2 reachable hgrown ih =>
    rw [Flow.reach, dif_neg hgrown] at hv
    exact ih (fun w hw => reached_of_reachPass h _ hw) hv

theorem Flow.PassesChecks.reached (h : flow.PassesChecks) (v : Fin flow.count) :
    flow.Reached v := by
  refine reached_of_reach (fun v => v.val = 0) (fun u hu => .start (by simpa using hu)) ?_
  by_contra hunreached
  have hmem : (⟨(flow.steps.get v).nameSpan,
      .unreachableStep (flow.steps.get v).name⟩ : CheckError) ∈ flow.reachabilityErrors :=
    List.mem_filterMap.mpr ⟨v, List.mem_finRange v, if_neg hunreached⟩
  rw [h.2] at hmem
  cases hmem

end Reached

namespace Emitter

open UnionFind Digraph

/-! ### The emitter sees the routes that the checker sees -/

mutual

theorem routeNamesIn_eq : ∀ statements : List Statement,
    routeNamesIn statements = (collectFromStatements statements).map Prod.fst
  | [] => rfl
  | statement :: rest => by
    rw [routeNamesIn, collectFromStatements, List.map_append, routeNamesInStatement_eq statement,
      routeNamesIn_eq rest]

theorem routeNamesInStatement_eq : ∀ statement : Statement,
    routeNamesInStatement statement = (collectFromStatement statement).map Prod.fst
  | .pipe ⟨_, _, _, .route _⟩ => rfl
  | .pipe ⟨_, _, _, .bind _⟩ => rfl
  | .route _ => rfl
  | .fork ⟨_, _, body, _⟩ =>
    by rw [routeNamesInStatement, collectFromStatement, routeNamesIn_eq body]
  | .loop ⟨_, _, _, _, _, body, _, _⟩ =>
    by rw [routeNamesInStatement, collectFromStatement, routeNamesIn_eq body]
  | .call _ => rfl
  | .spawn _ => rfl
  | .wait _ => rfl
  | .sleep _ => rfl
  | .subStep _ => rfl
  | .distribute _ => rfl
  | .collect _ => rfl

end

theorem routeNamesIn_eq_compensationRefs (statements : List Statement) (defines : Finset String) :
    routeNamesIn statements = (compensationRefs statements defines).map RouteRef.name := by
  induction statements generalizing defines with
  | nil => rfl
  | cons statement rest ih =>
    rw [routeNamesIn, compensationRefs, List.map_append, ← ih, routeNamesInStatement_eq,
      List.map_map]
    rfl

theorem stepRouteNames_eq (step : Step) :
    stepRouteNames step = (collectRouteRefs step).map RouteRef.name := by
  unfold stepRouteNames collectRouteRefs
  rw [List.map_append, List.map_append, List.map_map, List.map_map, routeNamesIn_eq]
  cases step.onFailure with
  | none => rfl
  | some onFailure =>
    simp only [routeNamesIn_eq_compensationRefs onFailure.body ∅]
    rfl

section Edges

variable (flow : Flow)

theorem mem_stepRoutes_iff {source target : Fin flow.count} :
    target ∈ stepRoutes flow.steps source ↔ ∃ edge ∈ flow.collectEdges, edge.source = source ∧
      edge.target = target := by
  simp only [stepRoutes, stepRouteNames_eq, List.mem_filterMap, List.mem_map, Flow.collectEdges,
    List.mem_flatMap,
    Option.map_eq_some_iff]
  constructor
  · rintro ⟨_, ⟨route, hroute, rfl⟩, hindex⟩
    exact ⟨_, ⟨source, List.mem_finRange source, route, hroute, target, hindex, rfl⟩, rfl, rfl⟩
  · rintro ⟨_, ⟨position, -, route, hroute, found, hindex, rfl⟩, rfl, rfl⟩
    exact ⟨route.name, ⟨route, hroute, rfl⟩, hindex⟩

theorem routeTargeted_eq (target : Fin flow.count) :
    routeTargeted flow.steps target = flow.collectEdges.any fun edge => edge.target = target := by
  rw [Bool.eq_iff_iff]
  simp only [routeTargeted, List.any_eq_true, List.contains_iff_mem, decide_eq_true_eq]
  constructor
  · rintro ⟨position, -, hmem⟩
    obtain ⟨edge, hedge, -, htgt⟩ := (mem_stepRoutes_iff flow).mp hmem
    exact ⟨edge, hedge, htgt⟩
  · rintro ⟨edge, hedge, htgt⟩
    exact ⟨edge.source, List.mem_finRange _, (mem_stepRoutes_iff flow).mpr ⟨edge, hedge, rfl, htgt⟩⟩

theorem fallPred_eq : fallPred flow.steps = flow.edges.fallPred := by
  funext position
  obtain ⟨position, hpos⟩ := position
  cases position with
  | zero => rfl
  | succ previous =>
    change (if (after flow.steps _).isEmpty && !routeTargeted flow.steps _ && _ then _ else _) = _
    rw [routeTargeted_eq]
    rfl

end Edges

/-! ### What the emitter has checked -/

section Checked

variable {flow : Flow} {edges : Edges flow.count}

theorem buildEdges_eq_ok (h : buildEdges flow.steps = .ok edges) :
    edges = ⟨index flow.steps, flow.after, flow.edges.fallPred, routeTargeted flow.steps,
        stepRoutes flow.steps⟩ ∧
      ∀ v, flow.afterUnknown v = false := by
  unfold buildEdges at h
  cases hrefd : (duplicateStep flow.steps).or (unknownAfter flow.steps) with
  | some error =>
    rw [hrefd] at h
    cases h
  | none =>
    rw [hrefd] at h
    obtain ⟨-, hknown⟩ := Option.or_eq_none_iff.mp hrefd
    refine ⟨?_, fun v => ?_⟩
    · cases h
      rw [fallPred_eq]
      rfl
    · refine List.any_eq_false.mpr fun dependency hdep hnone => ?_
      have hinner :=
        List.findSome?_eq_none_iff.mp (List.findSome?_eq_none_iff.mp hknown v (List.mem_finRange v))
          dependency hdep
      rw [if_pos (show (index flow.steps dependency.name).isNone = true from hnone)] at hinner
      cases hinner

theorem after_eq_nil_of_routeTargeted (h : checkRefusals edges = .ok ()) {v : Fin flow.count}
    (hv : edges.routeTargeted v = true) : edges.after v = [] := by
  by_contra hne
  have hstep := Result.forM_eq_ok h (List.mem_finRange v)
  have htrue : (edges.routeTargeted v && !(edges.after v).isEmpty) = true := by simp [hv, hne]
  simp only [htrue, if_true] at hstep
  cases hstep

/-- A step takes the fall-through edge only when nothing else leads to it. -/
theorem alone_of_fallPred {u v : Fin flow.count} (h : fallPred flow.steps v = some u) :
    after flow.steps v = [] ∧ routeTargeted flow.steps v = false := by
  obtain ⟨position, hpos⟩ := v
  cases position with
  | zero => cases h
  | succ previous =>
    simp only [fallPred] at h
    split_ifs at h with hfalls
    simp only [Bool.and_eq_true, List.isEmpty_iff, Bool.not_eq_true'] at hfalls
    exact hfalls.1

theorem exists_entry_of_entryRegion {n : ℕ} {regions : List (Region n)} {v : Fin n}
    (h : (entryRegion regions v).isSome) : ∃ region ∈ regions, region.entry = v := by
  have hfold : ∀ (found : List (Region n × ℕ)) (heads : Fin n → Option ℕ),
      (found.foldl (fun (heads : Fin n → Option ℕ) entry =>
          Function.update heads entry.1.entry (some entry.2)) heads v).isSome →
        (heads v).isSome ∨ ∃ entry ∈ found, entry.1.entry = v := by
    intro found
    induction found with
    | nil => exact fun heads hheads => .inl hheads
    | cons next rest ih =>
      intro heads hheads
      rcases ih (Function.update heads next.1.entry (some next.2)) hheads with hsome | ⟨entry, hent, heq⟩
      · by_cases hv : v = next.1.entry
        · exact .inr ⟨next, List.mem_cons_self, hv.symm⟩
        · exact .inl (by rwa [Function.update_of_ne hv] at hsome)
      · exact .inr ⟨entry, List.mem_cons_of_mem _ hent, heq⟩
  rcases hfold regions.zipIdx (fun _ => none) h with hnone | ⟨entry, hent, heq⟩
  · cases hnone
  · exact ⟨entry.1, (List.mem_zipIdx' hent).2 ▸ List.getElem_mem _, heq⟩

/-- A region holds the layers of its group, and its entry is the one member that waits for
nothing. -/
theorem region_eq_ok {group : Group flow.count} {result : Region flow.count}
    (h : region edges group = .ok result) :
    result.layers = edges.layer group.members ∧
      group.members.filter (fun member => (edges.dependencies member).isEmpty) =
      [result.entry] := by
  have hroots : group.members.filter
    (fun member => (edges.after member).isEmpty && (edges.fallPred member).isNone) =
      group.members.filter fun member => (edges.dependencies member).isEmpty :=
    List.filter_congr fun member _ => by
      unfold Edges.dependencies
      cases edges.fallPred member <;> simp
  unfold region at h
  rw [← hroots]
  split at h
  · rename_i entry hent
    obtain ⟨_, -, hres⟩ := Result.bind_eq_ok h
    cases hres
    exact ⟨rfl, hent⟩
  · cases h

variable {regions : List (Region flow.count)} {heads : Fin flow.count → Option ℕ}

theorem buildRegions_eq_ok (h : buildRegions edges = .ok (regions, heads)) :
    edges.groups.mapM (region edges) = .ok regions ∧ ∀ v : Fin flow.count, v.val = 0 →
      edges.dependencies v = [] := by
  unfold buildRegions at h
  obtain ⟨found, hfd, h'⟩ := Result.bind_eq_ok h
  obtain ⟨_, hfst, h''⟩ := Result.bind_eq_ok h'
  obtain ⟨_, -, hdone⟩ := Result.bind_eq_ok h''
  cases hdone
  refine ⟨hfd, fun v hv => ?_⟩
  obtain ⟨position, hpos⟩ := v
  cases hv
  have hsome : (entryRegion regions ⟨0, hpos⟩).isSome := by
    by_contra hnone
    rw [Bool.not_eq_true, Option.isSome_eq_false_iff] at hnone
    rw [checkFirst, dif_pos hpos, if_pos hnone] at hfst
    cases hfst
  obtain ⟨result, hres, hent⟩ := exists_entry_of_entryRegion hsome
  obtain ⟨group, -, hgrp⟩ := Result.mem_of_mapM_eq_ok hfd hres
  have hmem : (⟨0, hpos⟩ : Fin flow.count) ∈ group.members.filter fun member => (edges.dependencies member).isEmpty := by
    rw [(region_eq_ok hgrp).2, hent]
    exact List.mem_singleton_self _
  simpa using (List.mem_filter.mp hmem).2

/-! ### No step waits for itself -/

/-- A step that is reached waits, through however many others, for finitely many. -/
theorem acc_of_reached (hedges : buildEdges flow.steps = .ok edges)
    (hrefusals : checkRefusals edges = .ok ())
    (hfst : ∀ v : Fin flow.count, v.val = 0 → edges.dependencies v = []) {v : Fin flow.count}
    (h : flow.Reached v) : Acc (fun u w => u ∈ edges.dependencies w) v := by
  have hnone : ∀ w, edges.dependencies w = [] → Acc (fun u w => u ∈ edges.dependencies w) w := by
    intro w hw
    refine Acc.intro w fun u hu => ?_
    rw [hw] at hu
    cases hu
  obtain ⟨rfl, hknown⟩ := buildEdges_eq_ok hedges
  induction h with
  | start hv => exact hnone _ (hfst _ hv)
  | @after v hne hall ih =>
    have hfall : flow.edges.fallPred v = none := by
      by_contra hsome
      obtain ⟨u, hu⟩ := Option.ne_none_iff_exists'.mp hsome
      rw [← fallPred_eq] at hu
      exact hne (alone_of_fallPred hu).1
    refine Acc.intro v fun u hu => ih u ?_
    simpa [Edges.dependencies, hfall] using hu
  | @unknown v hunk =>
    rw [hknown v] at hunk
    cases hunk
  | @route edge hedge _ _ =>
    have htargeted : routeTargeted flow.steps edge.target = true := by
      rw [routeTargeted_eq]
      exact List.any_eq_true.mpr ⟨edge, hedge, decide_eq_true rfl⟩
    have hfall : flow.edges.fallPred edge.target = none := by
      by_contra hsome
      obtain ⟨u, hu⟩ := Option.ne_none_iff_exists'.mp hsome
      rw [← fallPred_eq] at hu
      rw [(alone_of_fallPred hu).2] at htargeted
      cases htargeted
    have hafter : flow.after edge.target = [] := after_eq_nil_of_routeTargeted hrefusals htargeted
    exact hnone _ (by simp [Edges.dependencies, hfall, hafter])
  | @fall u v hfall _ ih =>
    have hafter : flow.after v = [] := by
      rw [← fallPred_eq] at hfall
      exact (alone_of_fallPred hfall).1
    refine Acc.intro v fun w hw => ?_
    have hwu : w = u := by simpa [Edges.dependencies, hfall, hafter] using hw
    rwa [hwu]

theorem wellFounded_dependencies (hchecked : flow.PassesChecks)
    (hedges : buildEdges flow.steps = .ok edges) (hrefusals : checkRefusals edges = .ok ())
    (hfst : ∀ v : Fin flow.count, v.val = 0 → edges.dependencies v = []) :
    WellFounded fun u v => u ∈ edges.dependencies v :=
  ⟨fun v => acc_of_reached hedges hrefusals hfst (hchecked.reached v)⟩

end Checked

/-! ### Groups -/

section Groups

variable {n : ℕ} (edges : Edges n)

variable {group : Group n}

theorem members_of_ofMembers {members : List (Fin n)} (h : Group.ofMembers members = some group) :
    group.members = members := by
  cases members with
  | nil => cases h
  | cons first rest =>
    cases h
    rfl

theorem groups_eq : edges.groups = (List.finRange n).filterMap fun root =>
    Group.ofMembers ((List.finRange n).filter fun v => edges.parent.root v = root) := by
  simp [Edges.groups, Forest.members_eq]

variable {edges}

/-- A group is the steps of one root. -/
theorem members_of_mem_groups (h : group ∈ edges.groups) :
    ∃ root, group.members = (List.finRange n).filter fun v => edges.parent.root v = root := by
  rw [groups_eq] at h
  obtain ⟨root, -, hroot⟩ := List.mem_filterMap.mp h
  exact ⟨root, members_of_ofMembers hroot⟩

/-- Leaving empty groups out loses no member. -/
theorem flatMap_ofMembers (members : Fin n → List (Fin n)) (roots : List (Fin n)) :
    (roots.filterMap fun root => Group.ofMembers (members root)).flatMap Group.members =
      roots.flatMap members := by
  induction roots with
  | nil => rfl
  | cons root rest ih =>
    rw [List.flatMap_cons, List.filterMap_cons]
    cases hmems : Group.ofMembers (members root) with
    | none =>
      have hnil : members root = [] := by
        cases hroot : members root with
        | nil => rfl
        | cons first later =>
          rw [hroot] at hmems
          cases hmems
      rw [hnil, List.nil_append]
      exact ih
    | some group => rw [← members_of_ofMembers hmems, ← ih, List.flatMap_cons]

theorem perm_groups : (edges.groups.flatMap Group.members).Perm (List.finRange n) := by
  rw [groups_eq, flatMap_ofMembers fun root => (List.finRange n).filter fun v =>
    edges.parent.root v = root]
  refine (List.perm_ext_iff_of_nodup ?_ (List.nodup_finRange n)).mpr fun v => ?_
  · refine List.nodup_flatMap.mpr ⟨fun root _ => (List.nodup_finRange n).filter _, ?_⟩
    refine (List.nodup_finRange n).imp fun hne v hv hv' => hne ?_
    simp only [List.mem_filter, decide_eq_true_eq] at hv hv'
    rw [← hv.2, ← hv'.2]
  · simp [List.mem_finRange]

theorem root_eq_of_dependencies {u v : Fin n} (h : u ∈ edges.dependencies v) :
    edges.parent.root u = edges.parent.root v := by
  refine (Forest.root_unions_of_mem ?_).symm
  rcases List.mem_append.mp h with h | h
  · exact List.mem_append_left _ (List.mem_flatMap.mpr ⟨v, List.mem_finRange v, List.mem_map.mpr ⟨u, h, rfl⟩⟩)
  · have hfall : edges.fallPred v = some u := by simpa using h
    exact List.mem_append_right _ (List.mem_filterMap.mpr ⟨v, List.mem_finRange v, by rw [hfall]; rfl⟩)

theorem closed_of_mem_groups (h : group ∈ edges.groups) :
    ∀ v ∈ group.members, ∀ u ∈ edges.dependencies v, u ∈ group.members := by
  obtain ⟨root, hroot⟩ := members_of_mem_groups h
  intro v hv u hu
  rw [hroot, List.mem_filter, decide_eq_true_eq] at hv ⊢
  exact ⟨List.mem_finRange u, (root_eq_of_dependencies hu).trans hv.2⟩

theorem nodup_of_mem_groups (h : group ∈ edges.groups) : group.members.Nodup := by
  obtain ⟨root, hroot⟩ := members_of_mem_groups h
  rw [hroot]
  exact (List.nodup_finRange n).filter _

end Groups

/-! ### The layers -/

section Layers

variable {flow : Flow} {edges : Edges flow.count}

theorem perm_layers {regions : List (Region flow.count)}
    (hwf : WellFounded fun u v => u ∈ edges.dependencies v)
    (hregions : edges.groups.mapM (region edges) = .ok regions) :
    List.Forall₂ (fun group result => result.layers.flatten.Perm group.members) edges.groups
      regions := by
  obtain ⟨height, hheights⟩ := Layering.exists_heights hwf
  refine ((List.forall₂_and_left _ _).mpr
      ⟨fun _ hgrp => hgrp, Result.forall₂_of_mapM_eq_ok hregions⟩).imp ?_
  rintro group result ⟨hgrp, hres⟩
  rw [(region_eq_ok hres).1]
  exact Layering.flatten_layers hheights (closed_of_mem_groups hgrp) (nodup_of_mem_groups hgrp)

theorem perm_flatMap_of_forall₂ {n : ℕ} {groups : List (Group n)} {regions : List (Region n)}
    (h : List.Forall₂ (fun group result => result.layers.flatten.Perm group.members)
        groups regions) :
    (regions.flatMap fun result => result.layers.flatten).Perm (groups.flatMap Group.members) := by
  induction h with
  | nil => exact .nil
  | cons hperm _ ih => exact hperm.append ih

/-- **The regions of a flow are layered**: they partition the steps, each region holds every
step of one group once, its first layer is its entry, and what a member waits for, by `after`
or by falling through, stands in an earlier layer of the same region. -/
theorem regions_layered (flow : Flow) (edges : Edges flow.count)
    (regions : List (Region flow.count)) (heads : Fin flow.count → Option ℕ)
    (hchecked : flow.PassesChecks) (hedges : buildEdges flow.steps = .ok edges)
    (hrefusals : checkRefusals edges = .ok ())
    (hregions : buildRegions edges = .ok (regions, heads)) :
    (regions.flatMap fun region => region.layers.flatten).Perm (List.finRange flow.count) ∧
      List.Forall₂ (fun group region => region.layers.flatten.Perm group.members)
        edges.groups regions ∧
      ∀ region ∈ regions, region.layers.head? = some [region.entry] ∧
        ∀ (depth : ℕ) (layer : List (Fin flow.count)), region.layers[depth]? = some layer →
          ∀ member ∈ layer, ∀ before,
          before ∈ edges.after member ∨ edges.fallPred member = some before →
            ∃ earlier < depth, ∃ above : List (Fin flow.count),
              region.layers[earlier]? = some above ∧ before ∈ above := by
  obtain ⟨hbuilt, hfst⟩ := buildRegions_eq_ok hregions
  have hwf := wellFounded_dependencies hchecked hedges hrefusals hfst
  have hperm := perm_layers hwf hbuilt
  refine ⟨(perm_flatMap_of_forall₂ hperm).trans perm_groups, hperm, fun result hres => ?_⟩
  obtain ⟨height, hheights⟩ := Layering.exists_heights hwf
  obtain ⟨group, hgrp, hok⟩ := Result.mem_of_mapM_eq_ok hbuilt hres
  obtain ⟨hlayers, hent⟩ := region_eq_ok hok
  have hcl := closed_of_mem_groups hgrp
  rw [hlayers]
  refine ⟨?_, fun depth layer hlayer member hmb before hbef => ?_⟩
  · rw [← hent]
    exact Layering.head_layers hheights hcl (List.cons_ne_nil _ _)
  · refine Layering.needs_earlier hheights hcl hlayer hmb
      (List.mem_append.mpr (hbef.imp_right fun hfall => ?_))
    rw [hfall]
    exact Option.mem_toList.mpr rfl

end Layers

/-- A release: `check` waits for `build`, which is written below it; `pack` is fallen into from
`build`; `ship` waits for both and routes away. -/
def release : Flow where
  steps :=
    let span : Span := ⟨0, 0, 1, 1⟩
    [bodied "plan" [], { bodied "check" [] with after := [⟨span, "build"⟩] },
      { bodied "build" [] with after := [⟨span, "plan"⟩] }, bodied "pack" [],
      { bodied "ship" [.route ⟨span, ⟨span, "done", span, none⟩⟩] with after := [⟨span, "check"⟩, ⟨span, "pack"⟩] }]
  outcomes := {"done"}

theorem release_checks : release.PassesChecks := by
  -- How many steps still wait for a step: fewer at each end of an `after`.
  let rank : Fin release.count → ℕ := fun v => ([3, 1, 2, 1, 0] : List ℕ)[v]
  have hrank : ∀ u w, Waits release.after u w → rank u < rank w := by
    unfold Waits
    decide
  have hall : release.reach (fun v => v.val = 0) = fun _ => true := by
    rw [Flow.reach, dif_neg (by decide), Flow.reach, dif_neg (by decide), Flow.reach,
      dif_pos (by decide)]
    decide
  refine ⟨findAfterCycle_eq_none_iff.mpr (@not_isCycle_of_ascending _ _ (Preorder.lift rank) hrank),
      ?_⟩
  unfold Flow.reachabilityErrors
  rw [hall]
  decide

/-- The edges of the release flow. -/
def releaseEdges : Edges release.count :=
  ⟨index release.steps, after release.steps, fallPred release.steps, routeTargeted release.steps,
      stepRoutes release.steps⟩

theorem release_groups : releaseEdges.groups =
    [⟨⟨0, by decide⟩, [⟨1, by decide⟩, ⟨2, by decide⟩, ⟨3, by decide⟩, ⟨4, by decide⟩]⟩] := by
  rw [groups_eq, Edges.parent, Forest.root_unions, Forest.root_singletons]
  decide +kernel

theorem release_regions :
    ∃ regions heads, buildRegions releaseEdges = .ok (regions, heads) ∧
    regions.map (fun region => (region.entry.val, region.layers.map (List.map Fin.val))) =
      [(0, [[0], [2], [1, 3], [4]])] := by
  unfold buildRegions
  rw [release_groups]
  exact ⟨_, _, rfl, rfl⟩

/-- Its steps make one region of four layers. -/
theorem release_layered :
    ∃ regions : List (Region release.count),
    regions.map (fun region => (region.entry.val, region.layers.map (List.map Fin.val))) =
      [(0, [[0], [2], [1, 3], [4]])] ∧
      (regions.flatMap fun region => region.layers.flatten).Perm (List.finRange release.count) ∧
      ∀ region ∈ regions, region.layers.head? = some [region.entry] := by
  obtain ⟨regions, heads, hregions, hlayers⟩ := release_regions
  obtain ⟨hperm, -, hregion⟩ :=
    regions_layered release releaseEdges regions heads release_checks rfl rfl hregions
  exact ⟨regions, hlayers, hperm, fun region hmem => (hregion region hmem).1⟩

end Emitter

end Aion.Awl
