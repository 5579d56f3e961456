import Aion.Awl.Dataflow
import Mathlib.Data.Finset.Lattice.Fold
import Mathlib.Order.Filter.AtTopBot.Basic
import Mathlib.Order.Filter.Finite

/-!
# What the dataflow of bindings settles on

`availability_settles`: in whatever orders the positions are visited, the iteration of the
guaranteed names ends, with one and the same solution of its equations.

The equations of different names have nothing to do with each other (`nameStep`), so each name
is followed by itself. A name that some body binds starts everywhere and only descends; it ends
on its greatest solution. A name that only `on failure` blocks bind is not in the universe from
which the iteration starts: it starts nowhere, ascends, and ends on its least solution. So the
result is the greatest solution exactly when those names have only one.

The origins are a second iteration, over the values `nothing < known sites < unknown`. It
starts from tables in which a step does not yet hand on what it binds itself. Where that gap is
read before it is filled, by the step itself or by one above it, it can go round a cycle of
routes for ever (`handsBack_never_settles`). Where filling it makes no difference to the first
pass (`GapUnread`), the origins only descend; so it is where steps hand what they bind only
forward (`gapUnread_of_handsForward`).
-/

namespace Aion.Awl

open Iteration

namespace Dataflow

variable (graph : Dataflow)

/-! ### Lists of paths -/

section Paths

variable {graph} {α β : Type}

theorem map_paths (f : α → β) (inputs arming : α) (route : TracedEdge graph.count → α)
    (out : Fin graph.count → α) (position : Fin graph.count) :
    (graph.paths inputs arming route out position).map f = graph.paths (f inputs) (f arming)
      (f ∘ route) (f ∘ out) position := by
  unfold paths
  simp only [List.map_append, List.map_map]
  split <;> split <;> rfl

/-- Paths that are related one by one. -/
theorem forall₂_paths {R : α → β → Prop} {inputs arming : α} {inputs' arming' : β}
    {route : TracedEdge graph.count → α} {route' : TracedEdge graph.count → β}
    {out : Fin graph.count → α} {out' : Fin graph.count → β} {position : Fin graph.count}
    (hinputs : R inputs inputs') (harming : R arming arming')
    (hroute : ∀ edge ∈ graph.routes, edge.target = position → R (route edge) (route' edge))
    (hout : ∀ predecessor, graph.fallPred position = some predecessor →
        R (out predecessor) (out' predecessor)) :
    List.Forall₂ R (graph.paths inputs arming route out position)
      (graph.paths inputs' arming' route' out' position) := by
  unfold paths
  refine List.rel_append (List.rel_append (List.rel_append ?_ ?_) ?_) ?_
  · split
    · exact .cons hinputs .nil
    · exact .nil
  · split
    · exact .nil
    · exact .cons harming .nil
  · rw [List.forall₂_map_left_iff, List.forall₂_map_right_iff, List.forall₂_same]
    intro edge hedge
    obtain ⟨hmem, htgt⟩ := List.mem_filter.mp hedge
    exact hroute edge hmem (of_decide_eq_true htgt)
  · cases hfall : graph.fallPred position with
    | none => exact .nil
    | some predecessor => exact .cons (hout predecessor hfall) .nil

theorem ne_nil_of_forall₂ {R : α → β → Prop} {paths : List α} {paths' : List β}
    (h : List.Forall₂ R paths paths') (hne : paths ≠ []) : paths' ≠ [] := by
  rintro rfl
  exact hne (List.forall₂_nil_right_iff.mp h)

theorem forall_of_forall₂ {paths paths' : List Prop}
    (h : List.Forall₂ (fun path path' : Prop => path → path') paths paths')
    (hall : ∀ path ∈ paths, path) : ∀ path ∈ paths', path := by
  induction h with
  | nil => exact hall
  | cons hfst _ ih =>
    obtain ⟨hhead, htail⟩ := List.forall_mem_cons.mp hall
    exact List.forall_mem_cons.mpr ⟨hfst hhead, ih htail⟩

end Paths

/-! ### The guaranteed names, one by one -/

/-- A way to the step on which the name is bound, through the arming. -/
def armingAt (name : String) (avail : Node graph.count → Prop) (position : Fin graph.count) :
    Prop :=
  name ∈ graph.inputs ∨ ∃ dependency ∈ graph.after position, avail (.out dependency)

/-- The name is bound where the edge leaves its source. -/
def contributionAt (name : String) (avail : Node graph.count → Prop)
    (edge : TracedEdge graph.count) : Prop :=
  match edge.provenance with
  | .success => avail (.out edge.source)
  | .failure defines _ => avail (.into edge.source) ∨ name ∈ defines

/-- The ways to a position, each as whether the name is bound on it. -/
def pathsAt (name : String) (avail : Node graph.count → Prop) (position : Fin graph.count) :
    List Prop :=
  graph.paths (name ∈ graph.inputs) (graph.armingAt name avail position)
    (graph.contributionAt name avail)
    (fun predecessor => avail (.out predecessor)) position

/-- The equations of one name. -/
def nameStep (name : String) : Node graph.count → (Node graph.count → Prop) → Prop
  | .into position, avail =>
    (graph.afterUnknown position = true ∧ name ∈ graph.universeNames) ∨
      (graph.afterUnknown position = false ∧
        (graph.armingAt name avail position ∨
          (graph.pathsAt name avail position ≠ [] ∧ ∀ path ∈ graph.pathsAt name avail position, path)))
  | .out position, avail =>
    (avail (.into position) ∧ name ∉ graph.masks position) ∨ name ∈ graph.defined position

section Names

variable {graph}

theorem mem_foldl_union {ι : Type} {f : ι → Finset String} {name : String} (items : List ι)
    (start : Finset String) :
    name ∈ items.foldl (fun names item => names ∪ f item) start ↔ name ∈ start ∨ ∃ item ∈ items,
      name ∈ f item := by
  induction items generalizing start with
  | nil => simp
  | cons item rest ih =>
    rw [List.foldl_cons, ih, Finset.mem_union, List.exists_mem_cons_iff, or_assoc]

theorem mem_foldl_inter {name : String} (rest : List (Finset String)) (first : Finset String) :
    name ∈ rest.foldl (· ∩ ·) first ↔ ∀ path ∈ first :: rest, name ∈ path := by
  induction rest generalizing first with
  | nil => simp
  | cons next rest ih =>
    rw [List.foldl_cons, ih, List.forall_mem_cons, List.forall_mem_cons, List.forall_mem_cons,
      Finset.mem_inter, and_assoc]

/-- A name is in the value of an equation when its own equation says so. -/
theorem mem_availStep {name : String} {v : Node graph.count}
    {avail : Node graph.count → Finset String} :
    name ∈ graph.availStep v avail ↔ graph.nameStep name v fun w => name ∈ avail w := by
  cases v with
  | out position =>
    simp [availStep, nameStep]
  | into position =>
    simp only [availStep, nameStep, incoming]
    cases graph.afterUnknown position with
    | true => simp
    | false =>
      have harming : name ∈ (graph.after position).foldl (fun names dependency =>
          names ∪ avail (.out dependency)) graph.inputs ↔
          graph.armingAt name (fun w => name ∈ avail w) position := mem_foldl_union _ _
      have hroute : (fun names : Finset String => name ∈ names) ∘ graph.contribution avail =
          graph.contributionAt name fun w => name ∈ avail w := by
        funext edge
        unfold contribution contributionAt
        simp only [Function.comp_apply]
        cases edge.provenance with
        | success => rfl
        | failure defines origins => simp
      have hpaths := @map_paths graph _ _ (fun names : Finset String => name ∈ names) graph.inputs
        ((graph.after position).foldl (fun names dependency => names ∪ avail (.out dependency)) graph.inputs)
        (graph.contribution avail) (fun predecessor => avail (.out predecessor)) position
      rw [hroute, propext harming] at hpaths
      have hpathsAt : graph.pathsAt name (fun w => name ∈ avail w) position = _ := hpaths.symm
      rw [hpathsAt]
      simp only [Bool.false_eq_true, if_false, false_and, false_or, true_and]
      split
      · rename_i hnil
        simp [hnil, harming]
      · rename_i first rest hcons
        rw [hcons, Finset.mem_union, mem_foldl_inter, harming, List.forall_mem_map]
        simp

theorem nameStep_mono (name : String) (v : Node graph.count) :
    Monotone (graph.nameStep name v) := by
  intro avail avail' hle
  cases v with
  | out position => exact Or.imp_left (And.imp_left (hle (.into position)))
  | into position =>
    have harming : graph.armingAt name avail position → graph.armingAt name avail' position :=
      Or.imp_right fun ⟨dependency, hmem, hout⟩ => ⟨dependency, hmem, hle _ hout⟩
    have hpaths : List.Forall₂ (fun path path' : Prop => path → path')
      (graph.pathsAt name avail position)
        (graph.pathsAt name avail' position) := by
      refine forall₂_paths (fun h => h) harming (fun edge _ _ => ?_) fun predecessor _ => hle (.out predecessor)
      unfold contributionAt
      cases edge.provenance with
      | success => exact hle (.out edge.source)
      | failure defines origins => exact Or.imp_left (hle (.into edge.source))
    exact Or.imp_right (And.imp_right (Or.imp harming (And.imp (ne_nil_of_forall₂ hpaths) (forall_of_forall₂ hpaths))))

theorem mem_universeNames {name : String} :
    name ∈ graph.universeNames ↔ name ∈ graph.inputs ∨ ∃ position,
      name ∈ graph.defined position := by
  simp [universeNames, mem_foldl_union]

/-- The names that a compensation route brings. -/
def compensated {n : ℕ} (edge : TracedEdge n) : Finset String :=
  match edge.provenance with
  | .success => ∅
  | .failure defines _ => defines

variable (graph) in
/-- Every name of the flow: an input, bound in a body, or bound in an `on failure` block before a
route. -/
def allNames : Finset String :=
  graph.routes.foldl (fun names edge => names ∪ compensated edge) graph.universeNames

theorem mem_allNames {name : String} :
    name ∈ graph.allNames ↔ name ∈ graph.universeNames ∨ ∃ edge ∈ graph.routes,
      name ∈ compensated edge :=
  mem_foldl_union _ _

/-- A name of no other flow than this is nowhere. -/
theorem solves_of_notMem_allNames {name : String} (h : name ∉ graph.allNames) :
    Solves (graph.nameStep name) fun _ => False := by
  rw [mem_allNames, mem_universeNames] at h
  push Not at h
  obtain ⟨⟨hinputs, hdefd⟩, hcompensated⟩ := h
  intro v
  cases v with
  | out position => simpa [nameStep] using hdefd position
  | into position =>
    have harming : ¬ graph.armingAt name (fun _ => False) position := by simp [armingAt, hinputs]
    have hpaths : List.Forall₂ (fun path path' : Prop => path → path')
      (graph.pathsAt name (fun _ => False) position)
        (graph.paths False False (fun _ => False) (fun _ => False) position) := by
      refine forall₂_paths hinputs harming (fun edge hedge _ => ?_) fun _ _ => id
      have hedge := hcompensated edge hedge
      unfold contributionAt
      unfold compensated at hedge
      cases hprovenance : edge.provenance with
      | success => simp
      | failure defines origins => simpa [hprovenance] using hedge
    have hnone : ∀ path ∈ graph.paths False False (fun _ => False) (fun _ => False) position, ¬ path := by
      intro path hpath
      simp only [paths, List.mem_append, List.mem_map] at hpath
      rcases hpath with ((h | h) | ⟨_, _, rfl⟩) | ⟨_, _, rfl⟩
      · split at h <;> simp_all
      · split at h <;> simp_all
      · exact id
      · exact id
    have hnever : ¬ (graph.pathsAt name (fun _ => False) position ≠ [] ∧
        ∀ path ∈ graph.pathsAt name (fun _ => False) position, path) := by
      rintro ⟨hne, hall⟩
      obtain ⟨path, hpath⟩ := List.exists_mem_of_ne_nil _ (ne_nil_of_forall₂ hpaths hne)
      exact hnone path hpath (forall_of_forall₂ hpaths hall path hpath)
    have huniverse : name ∉ graph.universeNames := by simp [mem_universeNames, hinputs, hdefd]
    simp [nameStep, huniverse, harming, hnever]

/-! ### Where the iteration ends -/

theorem covers_visits {n : ℕ} {orders : ℕ → List (Fin n)}
    (h : ∀ pass, (orders pass).Perm (List.finRange n)) :
    Covers fun pass => visits (orders pass) := by
  intro pass
  refine ⟨?_, fun v => ?_⟩
  · refine List.nodup_flatMap.mpr ⟨fun position _ => by simp, ?_⟩
    have hnd : (orders pass).Nodup := (h pass).nodup_iff.mpr (List.nodup_finRange n)
    refine hnd.imp fun hne v hv hv' => ?_
    simp only [List.mem_cons, List.not_mem_nil, or_false] at hv hv'
    rcases hv with rfl | rfl <;> rcases hv' with heq | heq <;> cases heq <;> exact hne rfl
  · cases v with
    | into position => exact List.mem_flatMap.mpr ⟨position, (h pass).mem_iff.mpr (List.mem_finRange position), by simp⟩
    | out position => exact List.mem_flatMap.mpr ⟨position, (h pass).mem_iff.mpr (List.mem_finRange position), by simp⟩

variable (graph) in
/-- The solution of a name's equations on which the iteration ends. -/
structure NameLimit (name : String) (limit : Node graph.count → Prop) : Prop where
  solves : Solves (graph.nameStep name) limit
  greatest : name ∈ graph.universeNames → ∀ solution, Solves (graph.nameStep name) solution →
    solution ≤ limit
  least : name ∉ graph.universeNames → ∀ solution, Solves (graph.nameStep name) solution →
    limit ≤ solution

theorem NameLimit.unique {name : String} {limit limit' : Node graph.count → Prop}
    (h : graph.NameLimit name limit) (h' : graph.NameLimit name limit') : limit = limit' := by
  by_cases hname : name ∈ graph.universeNames
  · exact le_antisymm (h'.greatest hname _ h.solves) (h.greatest hname _ h'.solves)
  · exact le_antisymm (h.least hname _ h'.solves) (h'.least hname _ h.solves)

variable {nodes : ℕ → List (Node graph.count)}

/-- A name starts everywhere and descends, or nowhere and ascends. -/
theorem exists_nameLimit (hnodes : Covers nodes) (name : String) :
    ∃ limit, graph.NameLimit name limit ∧
      ∃ settled, ∀ k, settled ≤ k → passes (graph.nameStep name) nodes
        (fun _ => name ∈ graph.universeNames) k = limit := by
  by_cases hname : name ∈ graph.universeNames
  · obtain ⟨limit, hsolves, -, hgreatest, hsett⟩ :=
      @exists_limit _ _ _ _ _ _ nodes _ _ (nameStep_mono name)
      (show Descends (graph.nameStep name) fun _ => name ∈ graph.universeNames from fun _ _ => hname) hnodes
    exact ⟨limit, ⟨hsolves, fun _ solution hsol => hgreatest solution hsol fun _ _ => hname,
      fun hnot => absurd hname hnot⟩, hsett⟩
  · obtain ⟨limit, hsolves, -, hleast, hsett⟩ :=
      @exists_limit (Node graph.count) Propᵒᵈ _ _ (graph.nameStep name)
      (fun _ => name ∈ graph.universeNames) nodes _ _ (fun v _ _ hle => nameStep_mono name v hle)
      (fun _ hmem => absurd hmem hname) hnodes
    exact ⟨limit, ⟨hsolves, fun hmem => absurd hmem hname,
      fun _ solution hsol => hleast solution hsol fun _ hmem => absurd hmem hname⟩, hsett⟩

theorem map_passes_availStep (name : String) (k : ℕ) :
    (fun v => name ∈ passes graph.availStep nodes graph.availStart k v) =
      passes (graph.nameStep name) nodes (fun _ => name ∈ graph.universeNames) k :=
  map_passes (f := fun names : Finset String => name ∈ names)
    (fun _ _ => propext mem_availStep) nodes graph.availStart k

/-- Whatever the orders, the iteration comes to the limit of every name, and stays there. -/
theorem eventually_passes {avail : Node graph.count → Finset String}
    (hlimit : ∀ name, graph.NameLimit name fun v => name ∈ avail v) (hnodes : Covers nodes) :
    ∃ settled, ∀ k, settled ≤ k → passes graph.availStep nodes graph.availStart k = avail := by
  have hnames : ∀ᶠ k in Filter.atTop, ∀ name ∈ graph.allNames,
      passes (graph.nameStep name) nodes (fun _ => name ∈ graph.universeNames) k = fun v => name ∈ avail v := by
    rw [Filter.eventually_all_finset]
    intro name _
    obtain ⟨limit, h, settled, hsett⟩ := exists_nameLimit hnodes name
    exact Filter.eventually_atTop.mpr ⟨settled, fun k hk => (hsett k hk).trans (h.unique (hlimit name))⟩
  obtain ⟨settled, hsett⟩ := Filter.eventually_atTop.mp hnames
  refine ⟨settled, fun k hk => funext fun v => Finset.ext fun name => ?_⟩
  have hname : passes (graph.nameStep name) nodes (fun _ => name ∈ graph.universeNames) k = fun v => name ∈ avail v := by
    by_cases hmem : name ∈ graph.allNames
    · exact hsett k hk name hmem
    · -- A name of no step is nowhere at the start and nowhere in the end, and so nowhere between.
      obtain ⟨hstart, -⟩ : name ∉ graph.universeNames ∧ _ := not_or.mp (mt mem_allNames.mpr hmem)
      have hnever : Solves (graph.nameStep name) fun _ => False := solves_of_notMem_allNames hmem
      have hfalse : (fun _ : Node graph.count => name ∈ graph.universeNames) = fun _ => False :=
        funext fun _ => eq_false hstart
      rw [hfalse, hnever.passes_eq]
      exact (le_antisymm ((hlimit name).least hstart _ hnever) fun _ => False.elim).symm
  have hv := congrFun ((map_passes_availStep name k).trans hname) v
  exact iff_of_eq hv

/-- There are names for each place with which every iteration ends. -/
theorem exists_available (graph : Dataflow) : ∃ avail : Node graph.count → Finset String,
    ∀ name, graph.NameLimit name fun v => name ∈ avail v := by
  classical
  have hcov : Covers fun _ : ℕ => visits (List.finRange graph.count) :=
    covers_visits fun _ => List.Perm.refl _
  choose limit hlimit _ using fun name => @exists_nameLimit graph _ hcov name
  refine ⟨fun v => graph.allNames.filter fun name => limit name v, fun name => ?_⟩
  have heq : (fun v => name ∈ graph.allNames.filter fun name => limit name v) = limit name := by
    funext v
    rw [Finset.mem_filter]
    refine propext (and_iff_right_of_imp fun hv => ?_)
    by_contra hmem
    have hstart : name ∉ graph.universeNames := (not_or.mp (mt mem_allNames.mpr hmem)).1
    exact (hlimit name).least hstart _ (solves_of_notMem_allNames hmem) v hv
  rw [heq]
  exact hlimit name

theorem available_iff {avail : Node graph.count → Finset String}
    (hlimit : ∀ name, graph.NameLimit name fun v => name ∈ avail v)
    {orders : ℕ → List (Fin graph.count)}
    (horders : ∀ pass, (orders pass).Perm (List.finRange graph.count))
    {result : Node graph.count → Finset String} :
    graph.Available orders result ↔ result = avail := by
  have hcov := covers_visits horders
  obtain ⟨settled, hsett⟩ := eventually_passes hlimit hcov
  constructor
  · intro hres
    have hsolves : Solves graph.availStep result := Settles.solves hcov hres
    obtain ⟨k, hk, -⟩ := hres
    have hstays : ∀ later, passes graph.availStep (fun pass => visits (orders pass)) graph.availStart (k + later) = result := by
      intro later
      induction later with
      | zero => exact hk
      | succ later ih => exact (congrArg (pass graph.availStep _) ih).trans hsolves.pass_eq
    exact (hstays settled).symm.trans (hsett _ (Nat.le_add_left settled k))
  · rintro rfl
    exact ⟨settled, hsett settled le_rfl,
        (congrArg _ (hsett settled le_rfl)).symm.trans (hsett (settled + 1) (Nat.le_succ settled))⟩

/-! ### Solutions -/

variable (graph) in
/-- A solution of the equations, in names of the flow. -/
def Solution (avail : Node graph.count → Finset String) : Prop :=
  Solves graph.availStep avail ∧ ∀ v, avail v ⊆ graph.allNames

variable (graph) in
/-- The equations of a name have one solution only. -/
def Determined (name : String) : Prop :=
  ∀ avail avail', graph.Solution avail → graph.Solution avail' → ∀ v, name ∈ avail v →
    name ∈ avail' v

theorem Solution.nameStep {avail : Node graph.count → Finset String} (h : graph.Solution avail)
    (name : String) : Solves (graph.nameStep name) fun v => name ∈ avail v := by
  intro v
  rw [← propext mem_availStep, h.1 v]

variable {avail : Node graph.count → Finset String}

theorem solution_of_limits (hlimit : ∀ name, graph.NameLimit name fun v => name ∈ avail v) :
    graph.Solution avail := by
  refine ⟨fun v => Finset.ext fun name => ?_, fun v name hname => ?_⟩
  · rw [mem_availStep]
    exact iff_of_eq ((hlimit name).solves v)
  · by_contra hmem
    have hstart : name ∉ graph.universeNames := (not_or.mp (mt mem_allNames.mpr hmem)).1
    exact (hlimit name).least hstart _ (solves_of_notMem_allNames hmem) v hname

/-- The result is the greatest solution exactly when the names outside the universe have one
only. -/
theorem greatest_iff (hlimit : ∀ name, graph.NameLimit name fun v => name ∈ avail v) :
    (∀ solution, graph.Solution solution → ∀ v, solution v ⊆ avail v) ↔
      ∀ name, name ∉ graph.universeNames → graph.Determined name := by
  have havail : graph.Solution avail := solution_of_limits hlimit
  constructor
  · intro hgreatest name hname solution solution' hsol hsol' v hv
    exact (hlimit name).least hname _ (hsol'.nameStep name) v (hgreatest solution hsol v hv)
  · intro hdetermined solution hsol v name hv
    by_cases hname : name ∈ graph.universeNames
    · exact (hlimit name).greatest hname _ (hsol.nameStep name) v hv
    · exact hdetermined name hname solution avail hsol havail v hv

end Names

/-! ### Origins, one name at a time -/

/-- The origins of one name: it is not there, it is known to come from some sites, or from
anywhere. -/
abbrev Sites : Type := WithBot (WithTop (Finset Span))

/-- Origins as sites: none below, an unknown binding above. -/
def sites : Option OriginSet → Sites
  | none => ⊥
  | some (.known spans) => ((spans : WithTop (Finset Span)) : WithBot (WithTop (Finset Span)))
  | some .unknown => ⊤

/-- What all paths carry, from any of its sites. -/
def meetPaths (paths : List Sites) : Sites :=
  if paths ≠ [] ∧ ∀ path ∈ paths, path ≠ ⊥ then paths.foldl (· ⊔ ·) (sites (some (.known ∅))) else ⊥

section Sites

theorem sites_injective : Function.Injective sites := by
  intro origin origin' h
  rcases origin with _ | ⟨spans⟩ | _ <;> rcases origin' with _ | ⟨spans'⟩ | _ <;> simp_all [sites]

theorem sites_ne_bot_iff {origin : Option OriginSet} : sites origin ≠ ⊥ ↔ origin.isSome = true := by
  rcases origin with _ | ⟨spans⟩ | _ <;> simp [sites]

theorem sites_mergeOrigin (origin origin' : Option OriginSet) :
    sites (mergeOrigin origin origin') = sites origin ⊔ sites origin' := by
  rcases origin with _ | ⟨spans⟩ | _ <;> rcases origin' with _ | ⟨spans'⟩ | _ <;> simp [sites,
    mergeOrigin, ← WithBot.coe_sup, ← WithTop.coe_sup]

theorem sites_unionPaths {paths : List (Option OriginSet)}
    (h : ∀ path ∈ paths, path.isSome = true) :
    sites (some (unionPaths paths)) = (paths.map sites).foldl (· ⊔ ·)
      (sites (some (.known ∅))) := by
  unfold unionPaths
  generalize OriginSet.known ∅ = union
  induction paths generalizing union with
  | nil => rfl
  | cons path rest ih =>
    obtain ⟨hpath, hrest⟩ := List.forall_mem_cons.mp h
    obtain ⟨origin, rfl⟩ := Option.isSome_iff_exists.mp hpath
    rw [List.foldl_cons, ih hrest, List.map_cons, List.foldl_cons, ← sites_mergeOrigin]
    cases union <;> cases origin <;> rfl

theorem sites_mergeDisjunctive (incoming : Origins) (paths : List Origins) (name : String) :
    sites (mergeDisjunctive incoming paths name) = sites (incoming name) ⊔ meetPaths
      (paths.map fun path => sites (path name)) := by
  have hall : (paths ≠ [] ∧ paths.all (fun path => (path name).isSome) = true) ↔
      (paths.map fun path => sites (path name)) ≠ [] ∧ ∀ path ∈ paths.map fun path => sites (path name), path ≠ ⊥ := by
    simp [sites_ne_bot_iff]
  unfold mergeDisjunctive meetPaths
  by_cases h : paths ≠ [] ∧ paths.all (fun path => (path name).isSome) = true
  · rw [if_pos h, if_pos (hall.mp h), sites_mergeOrigin, sites_unionPaths (by simpa using h.2),
      List.map_map]
    rfl
  · rw [if_neg h, if_neg (mt hall.mpr h), sup_bot_eq]

theorem foldl_sup_mono {paths paths' : List Sites} (h : List.Forall₂ (· ≤ ·) paths paths')
    {start start' : Sites} (hstart : start ≤ start') :
    paths.foldl (· ⊔ ·) start ≤ paths'.foldl (· ⊔ ·) start' := by
  induction h generalizing start start' with
  | nil => exact hstart
  | cons hle _ ih => exact ih (sup_le_sup hstart hle)

theorem meetPaths_mono {paths paths' : List Sites} (h : List.Forall₂ (· ≤ ·) paths paths') :
    meetPaths paths ≤ meetPaths paths' := by
  unfold meetPaths
  split
  · rename_i hall
    have hall' : ∀ path ∈ paths', path ≠ ⊥ := by
      have hne := hall.2
      clear hall
      induction h with
      | nil => simp
      | cons hle _ ih =>
        obtain ⟨hfst, hrest⟩ := List.forall_mem_cons.mp hne
        exact List.forall_mem_cons.mpr ⟨ne_bot_of_le_ne_bot hfst hle, ih hrest⟩
    rw [if_pos ⟨ne_nil_of_forall₂ h hall.1, hall'⟩]
    exact foldl_sup_mono h le_rfl
  · exact bot_le

end Sites

variable (avail : Node graph.count → Finset String) (name : String)

/-- The sites the arming of a step hands on. -/
def armingSites (origins : Node graph.count → Sites) (position : Fin graph.count) : Sites :=
  ((graph.after position).map fun dependency => origins (.out dependency)).foldl (· ⊔ ·)
    (sites (graph.inputOriginsMap name))

/-- The sites an edge hands on. -/
def contributionSites (origins : Node graph.count → Sites) (edge : TracedEdge graph.count) :
    Sites :=
  match edge.provenance with
  | .success => origins (.out edge.source)
  | .failure _ carried => origins (.into edge.source) ⊔ sites (carried name)

/-- The ways to a position, each as the sites it hands on. -/
def pathsSites (origins : Node graph.count → Sites) (position : Fin graph.count) : List Sites :=
  graph.paths (sites (graph.inputOriginsMap name)) (graph.armingSites name origins position)
    (graph.contributionSites name origins)
    (fun predecessor => origins (.out predecessor)) position

/-- The equations for the origins of one name. -/
def siteStep : Node graph.count → (Node graph.count → Sites) → Sites
  | .into position, origins =>
    if name ∈ avail (.into position) then
      if graph.afterUnknown position then ⊤
      else graph.armingSites name origins position ⊔ meetPaths (graph.pathsSites name origins position)
    else ⊥
  | .out position, origins =>
    match definedOrigins (graph.steps.get position) name with
    | some origin => sites (some origin)
    | none => if name ∈ graph.masks position then ⊥ else origins (.into position)

section Origins

variable {graph avail name}

theorem sites_originStep {v : Node graph.count} {origins : Node graph.count → Origins} :
    sites (graph.originStep avail v origins name) = graph.siteStep avail name v fun w =>
      sites (origins w name) := by
  cases v with
  | out position =>
    unfold originStep siteStep
    simp only
    cases definedOrigins (graph.steps.get position) name with
    | some origin => rfl
    | none => simp only [apply_ite sites]; rfl
  | into position =>
    unfold originStep siteStep incomingOrigins
    simp only
    cases graph.afterUnknown position with
    | true => simp only [if_true, unknownOrigins, apply_ite sites]; rfl
    | false =>
      simp only [Bool.false_eq_true, if_false, apply_ite sites]
      refine if_congr Iff.rfl ?_ rfl
      have harming : ∀ merged : Origins, sites ((graph.after position).foldl
          (fun merged dependency => mergeOrigins merged (origins (.out dependency))) merged name) =
          ((graph.after position).map fun dependency =>
              sites (origins (.out dependency) name)).foldl (· ⊔ ·) (sites (merged name)) := by
        induction graph.after position with
        | nil => exact fun _ => rfl
        | cons dependency rest ih =>
          intro merged
          rw [List.foldl_cons, ih, List.map_cons, List.foldl_cons, ← sites_mergeOrigin]
          rfl
      have hroute : (fun path : Origins => sites (path name)) ∘ graph.originContribution origins =
          graph.contributionSites name fun w => sites (origins w name) := by
        funext edge
        unfold originContribution contributionSites
        simp only [Function.comp_apply]
        cases edge.provenance with
        | success => rfl
        | failure defines carried => exact sites_mergeOrigin _ _
      rw [sites_mergeDisjunctive, harming, map_paths fun path : Origins => sites (path name), hroute, harming]
      rfl

theorem siteStep_mono (v : Node graph.count) : Monotone (graph.siteStep avail name v) := by
  intro origins origins' hle
  cases v with
  | out position =>
    unfold siteStep
    simp only
    cases definedOrigins (graph.steps.get position) name with
    | some origin => exact le_rfl
    | none =>
      simp only
      split
      · exact le_rfl
      · exact hle (.into position)
  | into position =>
    have harming : graph.armingSites name origins position ≤ graph.armingSites name origins' position := by
      refine foldl_sup_mono ?_ le_rfl
      rw [List.forall₂_map_left_iff, List.forall₂_map_right_iff, List.forall₂_same]
      exact fun dependency _ => hle (.out dependency)
    have hpaths : List.Forall₂ (· ≤ ·) (graph.pathsSites name origins position) (graph.pathsSites name origins' position) := by
      refine forall₂_paths le_rfl harming (fun edge _ _ => ?_) fun predecessor _ => hle (.out predecessor)
      unfold contributionSites
      cases edge.provenance with
      | success => exact hle (.out edge.source)
      | failure defines carried => exact sup_le_sup_right (hle (.into edge.source)) _
    unfold siteStep
    simp only
    split
    · split
      · exact le_rfl
      · exact sup_le_sup harming (meetPaths_mono hpaths)
    · exact le_rfl

variable (graph) in
/-- What a step hands on reaches the next one along a dependency, a route of a completed step, or a
fall. -/
def Feeds (source target : Fin graph.count) : Prop :=
  source ∈ graph.after target ∨ (∃ edge ∈ graph.routes, edge.source = source ∧
      edge.target = target ∧ edge.provenance = .success) ∨
    graph.fallPred target = some source

/-- An equation reads only what feeds its step, and what steps are entered with. -/
theorem siteStep_congr {origins origins' : Node graph.count → Sites} {position : Fin graph.count}
    (hinto : ∀ w, origins (.into w) = origins' (.into w))
    (hout : ∀ w, graph.Feeds w position → origins (.out w) = origins' (.out w)) :
    graph.siteStep avail name (.into position) origins =
      graph.siteStep avail name (.into position) origins' := by
  have harming : graph.armingSites name origins position = graph.armingSites name origins' position := by
    unfold armingSites
    rw [List.map_congr_left fun dependency hmem => hout dependency (.inl hmem)]
  have hpaths : List.Forall₂ Eq (graph.pathsSites name origins position) (graph.pathsSites name origins' position) := by
    refine forall₂_paths rfl harming (fun edge hedge htgt => ?_) fun predecessor hfall =>
      hout predecessor (.inr (.inr hfall))
    unfold contributionSites
    cases hprovenance : edge.provenance with
    | success => exact hout edge.source (.inr (.inl ⟨edge, hedge, rfl, htgt, hprovenance⟩))
    | failure defines carried => simp only [hinto edge.source]
  unfold siteStep
  simp only [harming, List.forall₂_eq_eq_eq ▸ hpaths]

theorem siteStep_out_congr {origins origins' : Node graph.count → Sites}
    {position : Fin graph.count} (hinto : origins (.into position) = origins' (.into position)) :
    graph.siteStep avail name (.out position) origins =
      graph.siteStep avail name (.out position) origins' := by
  unfold siteStep
  simp only [hinto]

/-! ### Names that a body binds have an origin -/

theorem isSome_insertOrigin {origins : Origins} {bound : String} {span : Span} :
    (insertOrigin origins bound span name).isSome = true ↔ name = bound ∨
      (origins name).isSome = true := by
  unfold insertOrigin
  by_cases h : name = bound
  · subst h
    rw [Function.update_self]
    simp only [true_or, iff_true]
    rcases origins name with _ | ⟨spans⟩ | _
    · rfl
    · simp only
      split <;> rfl
    · rfl
  · rw [Function.update_of_ne h]
    simp [h]

theorem isSome_insertBinding {origins : Origins} {binding : Option Binding} :
    (insertBinding origins binding name).isSome = true ↔ name ∈ boundName binding ∨
      (origins name).isSome = true := by
  cases binding with
  | none => simp [insertBinding, boundName]
  | some binding => simp [insertBinding, boundName, isSome_insertOrigin]

mutual

theorem isSome_originsInStatements : ∀ (statements : List Statement) (origins : Origins),
    (originsInStatements statements origins name).isSome = true ↔
      name ∈ definedInStatements statements ∨ (origins name).isSome = true
  | [], origins => by simp [originsInStatements, definedInStatements]
  | statement :: rest, origins => by
    rw [originsInStatements, definedInStatements, isSome_originsInStatements rest,
      isSome_originsInStatement statement,
      Finset.mem_union]
    tauto

theorem isSome_originsInStatement :
    ∀ (statement : Statement) (origins : Origins),
    (originsInStatement statement origins name).isSome = true ↔
      name ∈ definedInStatement statement ∨ (origins name).isSome = true
  | .call _, _ => isSome_insertBinding
  | .pipe ⟨_, _, _, .bind _⟩, _ =>
    by simp [originsInStatement, definedInStatement, isSome_insertOrigin]
  | .pipe ⟨_, _, _, .route _⟩, _ => by simp [originsInStatement, definedInStatement]
  | .wait _, _ => by simp [originsInStatement, definedInStatement, isSome_insertOrigin]
  | .fork ⟨_, .named, body, _⟩, origins => by
    rw [originsInStatement, definedInStatement, isSome_insertBinding,
      isSome_originsInStatements body, Finset.mem_union]
    tauto
  | .fork ⟨_, .collection .., _, _⟩, _ => isSome_insertBinding
  | .loop _, _ => by
    rw [originsInStatement, definedInStatement, isSome_insertBinding, isSome_insertOrigin,
      Finset.mem_insert]
    tauto
  | .distribute _, _ => by simp [originsInStatement, definedInStatement, isSome_insertOrigin]
  | .collect _, _ => by simp [originsInStatement, definedInStatement, isSome_insertOrigin]
  | .subStep ⟨_, _, _, _, body, _, _, _⟩, origins => by
    rw [originsInStatement, definedInStatement, isSome_originsInStatements body]
  | .spawn _, _ => by simp [originsInStatement, definedInStatement]
  | .sleep _, _ => by simp [originsInStatement, definedInStatement]
  | .route _, _ => by simp [originsInStatement, definedInStatement]

end

theorem isSome_definedOrigins {position : Fin graph.count} :
    (definedOrigins (graph.steps.get position) name).isSome = true ↔
      name ∈ graph.defined position := by
  rw [definedOrigins, isSome_originsInStatements]
  simp [defined, definedNames]

/-! ### The iteration of the origins -/

variable (graph avail name) in
/-- The start from above: an available name may come from anywhere. -/
def siteStart : Node graph.count → Sites
  | .into position => if name ∈ avail (.into position) then ⊤ else ⊥
  | .out position => if name ∈ avail (.into position) then ⊤ else ⊥

variable (graph avail name) in
/-- The start with the gap filled: a step hands on what it binds. -/
def siteTop : Node graph.count → Sites
  | .into position => if name ∈ avail (.into position) then ⊤ else ⊥
  | .out position => if name ∈ avail (.into position) ∨ name ∈ graph.defined position then ⊤ else ⊥

theorem descends_siteTop : Descends (graph.siteStep avail name) (graph.siteTop avail name) := by
  intro v
  cases v with
  | into position =>
    unfold siteStep siteTop
    simp only
    split
    · exact le_top
    · exact bot_le
  | out position =>
    unfold siteStep
    simp only
    cases horigin : definedOrigins (graph.steps.get position) name with
    | some origin =>
      have hdefd : name ∈ graph.defined position := isSome_definedOrigins.mp (by rw [horigin]; rfl)
      simp only [siteTop, hdefd, or_true, if_true]
      exact le_top
    | none =>
      simp only [siteTop]
      by_cases hname : name ∈ avail (.into position)
      · simp only [hname, true_or, if_true]
        exact le_top
      · simp only [hname, if_false, ite_self]
        exact bot_le

variable (graph avail name) in
/-- Filling the gap makes no difference to the first pass: no step reads other origins for it. -/
def FirstPassAgrees : Prop :=
  pass (graph.siteStep avail name) (visits (List.finRange graph.count))
    (graph.siteStart avail name) =
    pass (graph.siteStep avail name) (visits (List.finRange graph.count)) (graph.siteTop avail name)

variable (graph avail name) in
/-- Where a step feeds itself or one above it, a name that it binds was there when it was
entered. -/
def Forward : Prop :=
  ∀ source target, graph.Feeds source target → target ≤ source → graph.afterUnknown target = false →
    name ∈ graph.defined source → name ∈ avail (.into target) → name ∈ avail (.into source)

@[simp]
theorem visit_into_out {L : Type} {step : Node graph.count → (Node graph.count → L) → L}
    {values : Node graph.count → L} (position w : Fin graph.count) :
    Iteration.visit step values (.into position) (.out w) = values (.out w) :=
  visit_of_ne (by simp)

@[simp]
theorem visit_out_into {L : Type} {step : Node graph.count → (Node graph.count → L) → L}
    {values : Node graph.count → L} (position w : Fin graph.count) :
    Iteration.visit step values (.out position) (.into w) = values (.into w) :=
  visit_of_ne (by simp)

/-- One pass makes up for gaps at steps that are still to be visited. -/
theorem pass_eq_of_forward (hforward : graph.Forward avail name)
    (positions : List (Fin graph.count)) (hascending : positions.Pairwise (· < ·))
    {origins origins' : Node graph.count → Sites}
    (hinto : ∀ w, origins (.into w) = origins' (.into w))
    (hout : ∀ w, origins (.out w) ≠ origins' (.out w) → w ∈ positions ∧ name ∈ graph.defined w ∧
        name ∉ avail (.into w)) :
    pass (graph.siteStep avail name) (visits positions) origins = pass (graph.siteStep avail name)
      (visits positions) origins' := by
  induction positions generalizing origins origins' with
  | nil =>
    refine funext fun v => ?_
    cases v with
    | into w => exact hinto w
    | out w =>
      by_contra hne
      exact absurd (hout w hne).1 List.not_mem_nil
  | cons position rest ih =>
    obtain ⟨hfst, hrest⟩ := List.pairwise_cons.mp hascending
    have hstep : graph.siteStep avail name (.into position) origins = graph.siteStep avail name (.into position) origins' := by
      by_cases hunk : graph.afterUnknown position = true
      · simp [siteStep, hunk]
      by_cases hname : name ∈ avail (.into position)
      · refine siteStep_congr hinto fun w hfeeds => ?_
        by_contra hne
        obtain ⟨hmem, hdefd, hgap⟩ := hout w hne
        have hle : position ≤ w := by
          rcases List.mem_cons.mp hmem with rfl | hmem
          · exact le_rfl
          · exact (hfst w hmem).le
        exact hgap (hforward w position hfeeds hle (Bool.eq_false_iff.mpr hunk) hdefd hname)
      · simp [siteStep, hname]
    change pass _ (visits rest) (Iteration.visit _ (Iteration.visit _ origins (.into position)) (.out position)) =
      pass _ (visits rest) (Iteration.visit _ (Iteration.visit _ origins' (.into position)) (.out position))
    have hinto' : ∀ w, Iteration.visit (graph.siteStep avail name) origins (.into position)
      (.into w) =
        Iteration.visit (graph.siteStep avail name) origins' (.into position) (.into w) := by
      intro w
      by_cases hw : w = position
      · subst hw
        rw [visit_self, visit_self, hstep]
      · have hne : Node.into w ≠ Node.into position := by simpa using hw
        rw [visit_of_ne hne, visit_of_ne hne, hinto w]
    refine ih hrest (fun w => by rw [visit_out_into, visit_out_into, hinto' w]) fun w hdiffers => ?_
    by_cases hw : w = position
    · subst hw
      rw [visit_self, visit_self] at hdiffers
      exact absurd (siteStep_out_congr (hinto' w)) hdiffers
    · have hne : Node.out w ≠ Node.out position := by simpa using hw
      rw [visit_of_ne hne, visit_of_ne hne, visit_into_out, visit_into_out] at hdiffers
      obtain ⟨hmem, hgap⟩ := hout w hdiffers
      exact ⟨(List.mem_cons.mp hmem).resolve_left hw, hgap⟩

variable (graph) in
/-- The places of the flow in the order of its positions, the same in every pass. -/
def inOrder : ℕ → List (Node graph.count) := fun _ => visits (List.finRange graph.count)

theorem covers_inOrder : Covers graph.inOrder := covers_visits fun _ => List.Perm.refl _

/-- What steps hand only forward is in time for every step that reads it. -/
theorem firstPassAgrees_of_forward (hforward : graph.Forward avail name) :
    graph.FirstPassAgrees avail name := by
  refine pass_eq_of_forward hforward _ (List.pairwise_lt_finRange graph.count) (fun w => rfl)
    fun w hne => ?_
  refine ⟨List.mem_finRange w, ?_⟩
  by_contra hgap
  rw [not_and_or, not_not] at hgap
  refine hne ?_
  simp only [siteStart, siteTop]
  rcases hgap with hdefd | hname
  · simp only [hdefd, or_false]
  · simp only [hname, true_or]

/-- A name that no body binds leaves no gap. -/
theorem firstPassAgrees_of_notMem (hdefd : ∀ position, name ∉ graph.defined position) :
    graph.FirstPassAgrees avail name :=
  firstPassAgrees_of_forward fun source _ _ _ _ hmem => absurd hmem (hdefd source)

theorem passes_siteStart (hagrees : graph.FirstPassAgrees avail name) (k : ℕ) :
    passes (graph.siteStep avail name) graph.inOrder (graph.siteStart avail name) (k + 1) =
      passes (graph.siteStep avail name) graph.inOrder (graph.siteTop avail name) (k + 1) := by
  induction k with
  | zero => exact hagrees
  | succ k ih => exact congrArg (pass (graph.siteStep avail name) _) ih

/-- A name whose gap is not read settles. -/
theorem exists_settled (hagrees : graph.FirstPassAgrees avail name) : ∃ settled, ∀ k, settled ≤ k →
    passes (graph.siteStep avail name) graph.inOrder (graph.siteStart avail name) (k + 1) =
      passes (graph.siteStep avail name) graph.inOrder (graph.siteStart avail name) k := by
  obtain ⟨limit, -, -, -, settled, hsett⟩ :=
    exists_limit siteStep_mono (@descends_siteTop graph avail name) covers_inOrder
  refine ⟨settled + 1, fun k hk => ?_⟩
  obtain ⟨k, rfl⟩ := Nat.exists_eq_add_of_le' hk
  rw [passes_siteStart hagrees, hsett _ (by omega), ← Nat.add_assoc, passes_siteStart hagrees,
    hsett _ (by omega)]

/-- A name that is nowhere guaranteed and nowhere bound has no origin at any time. -/
theorem passes_siteStart_of_nowhere (havail : ∀ position, name ∉ avail (.into position))
    (hdefd : ∀ position, name ∉ graph.defined position) (k : ℕ) :
    passes (graph.siteStep avail name) graph.inOrder (graph.siteStart avail name) k = ⊥ := by
  have htop : graph.siteTop avail name = ⊥ := by
    funext v
    cases v <;> simp [siteTop, havail, hdefd]
  have hstart : graph.siteStart avail name = graph.siteTop avail name := by
    funext v
    cases v <;> simp [siteStart, siteTop, havail, hdefd]
  have hbelow : passes (graph.siteStep avail name) graph.inOrder (graph.siteTop avail name) k ≤
    graph.siteTop avail name :=
    (descends_siteTop.passes siteStep_mono k).2.1
  rw [hstart]
  rw [htop] at hbelow ⊢
  exact le_bot_iff.mp hbelow

theorem map_passes_originStep (k : ℕ) :
    (fun v => sites (passes (graph.originStep avail) graph.inOrder
        (graph.originStart avail) k v name)) =
      passes (graph.siteStep avail name) graph.inOrder (graph.siteStart avail name) k := by
  have hstart : (fun origins : Origins => sites (origins name)) ∘ graph.originStart avail = graph.siteStart avail name := by
    funext v
    cases v <;> simp only [Function.comp_apply, originStart, siteStart, unknownOrigins,
      apply_ite sites] <;> rfl
  rw [← hstart]
  exact map_passes (f := fun origins : Origins => sites (origins name))
    (fun _ _ => sites_originStep) graph.inOrder _ k

/-- With no gap read, the iteration of the origins ends. -/
theorem exists_origins (havail : ∀ v, avail v ⊆ graph.allNames)
    (hagrees : ∀ name, graph.FirstPassAgrees avail name) :
    ∃ origins, graph.Origin avail origins := by
  have hnames : ∀ᶠ k in Filter.atTop, ∀ name ∈ graph.allNames,
      passes (graph.siteStep avail name) graph.inOrder (graph.siteStart avail name) (k + 1) =
        passes (graph.siteStep avail name) graph.inOrder (graph.siteStart avail name) k := by
    rw [Filter.eventually_all_finset]
    exact fun name _ => Filter.eventually_atTop.mpr (exists_settled (hagrees name))
  obtain ⟨settled, hsett⟩ := Filter.eventually_atTop.mp hnames
  refine ⟨_, settled, rfl, funext fun v => funext fun name => sites_injective ?_⟩
  have hname : passes (graph.siteStep avail name) graph.inOrder (graph.siteStart avail name)
    (settled + 1) =
      passes (graph.siteStep avail name) graph.inOrder (graph.siteStart avail name) settled := by
    by_cases hmem : name ∈ graph.allNames
    · exact hsett settled le_rfl name hmem
    · have hnowhere : ∀ position, name ∉ graph.defined position := fun position hdefd =>
        hmem (mem_allNames.mpr (.inl (mem_universeNames.mpr (.inr ⟨position, hdefd⟩))))
      rw [passes_siteStart_of_nowhere (fun position h => hmem (havail _ h)) hnowhere,
        passes_siteStart_of_nowhere (fun position h => hmem (havail _ h)) hnowhere]
  exact congrFun ((map_passes_originStep (settled + 1)).trans
      (hname.trans (map_passes_originStep settled).symm)) v

end Origins

/-! ### The two iterations -/

/-- Some solution has the name at this place. -/
def Guaranteed (name : String) (v : Node graph.count) : Prop :=
  ∃ avail, graph.Solution avail ∧ name ∈ avail v

/-- The gap of a name is not read: with a solution that has the name wherever any has it, the first
pass over the origins is as if every step already handed on what it binds. -/
def GapUnread (name : String) : Prop :=
  ∀ avail, graph.Solution avail → (∀ v, name ∈ avail v ↔ graph.Guaranteed name v) →
    graph.FirstPassAgrees avail name

/-- No step that binds a name which it may be entered without feeds itself, or a step above it,
where that name is guaranteed. -/
def HandsForward : Prop :=
  ∀ source target name, graph.Feeds source target → target ≤ source →
    graph.afterUnknown target = false →
    name ∈ graph.defined source → graph.Guaranteed name (.into target) →
      graph.Guaranteed name (.into source)

theorem gapUnread_of_handsForward (hforward : graph.HandsForward) (name : String) :
    graph.GapUnread name :=
  fun _ _ hguaranteed => firstPassAgrees_of_forward fun source target hfeeds hle hunk hdefd htgt =>
    (hguaranteed _).mpr (hforward source target name hfeeds hle hunk hdefd ((hguaranteed _).mp htgt))

/-- **Where the dataflow of bindings ends.** In whatever orders the positions are visited, the
iteration of the guaranteed names ends with one result, a solution of its equations. It is the
greatest exactly when every name that only `on failure` blocks bind has one solution. When no gap
is read, the iteration of the origins ends as well. -/
theorem availability_settles (graph : Dataflow) :
    ∃ avail : Node graph.count → Finset String,
    (∀ orders, (∀ pass, (orders pass).Perm (List.finRange graph.count)) →
        ∀ result, graph.Available orders result ↔ result = avail) ∧
      graph.Solution avail ∧
      ((∀ solution, graph.Solution solution → ∀ v, solution v ⊆ avail v) ↔
        ∀ name, name ∉ graph.universeNames → graph.Determined name) ∧
      ((∀ name, graph.GapUnread name) → ∃ origins, graph.Origin avail origins) := by
  obtain ⟨avail, hlimit⟩ := exists_available graph
  have hsol : graph.Solution avail := solution_of_limits hlimit
  refine ⟨avail, fun orders horders result => available_iff hlimit horders, hsol,
      greatest_iff hlimit, fun hunread => ?_⟩
  refine exists_origins hsol.2 fun name => ?_
  by_cases hdefd : ∃ position, name ∈ graph.defined position
  · -- The name is bound in a body, so the result is the greatest solution for it.
    have hbound : name ∈ graph.universeNames := mem_universeNames.mpr (.inr hdefd)
    refine hunread name avail hsol fun v => ⟨fun hv => ⟨avail, hsol, hv⟩, ?_⟩
    rintro ⟨solution, hsolves, hv⟩
    exact (hlimit name).greatest hbound _ (hsolves.nameStep name) v hv
  · exact firstPassAgrees_of_notMem (not_exists.mp hdefd)

/-! ### Origins that never settle -/

/-- A step that ends in a route. -/
def routing (name : String) (body : List Statement) (target : String) : Step :=
  bodied name (body ++ [.route ⟨⟨0, 0, 1, 1⟩, ⟨⟨0, 0, 1, 1⟩, target, ⟨0, 0, 1, 1⟩, none⟩⟩])

/-- The draft is written below the steps that go over it in turn: `check`, `file`, `again`. -/
def handsBack : Flow where
  steps :=
    [routing "open" [] "draft", routing "check" [] "file", routing "again" [] "check", routing "file" [] "again",
      routing "draft" [.call ⟨⟨0, 0, 1, 1⟩, ⟨⟨0, 0, 1, 1⟩, "write", ⟨0, 0, 1, 1⟩, []⟩, some ⟨⟨7, 11, 1, 8⟩, "text"⟩⟩] "check"]
  outcomes := {"done"}

/-- The graph of the flow that hands back. -/
def handsBackGraph : Dataflow := handsBack.dataflow []

/-- The text is there in `check`, `again` and `file`, and behind them and the draft. -/
def handsBackAvail : Node handsBackGraph.count → Finset String
  | .into position => if position.val ∈ [1, 2, 3] then {"text"} else ∅
  | .out position => if position.val = 0 then ∅ else {"text"}

theorem handsBack_available :
    handsBackGraph.Available (fun _ => List.finRange handsBackGraph.count) handsBackAvail := by
  have hfst : pass handsBackGraph.availStep
      (visits (List.finRange handsBackGraph.count)) handsBackGraph.availStart = handsBackAvail := by
    decide +kernel
  have hstays : ∀ v, handsBackGraph.availStep v handsBackAvail = handsBackAvail v := by
    decide +kernel
  exact ⟨1, hfst, Solves.pass_eq hstays⟩

/-- The origins of the text after an odd and after an even number of passes. -/
def tossed (odd : Bool) : Node handsBackGraph.count → Sites
  | .into position => if position.val ∈ [1, 2, 3] ∧ (position.val = 2) = (odd = true) then ⊤ else ⊥
  | .out position =>
    if position.val = 4 then sites (some (.known {⟨7, 11, 1, 8⟩}))
    else if position.val ∈ [1, 2, 3] ∧ (position.val = 2) = (odd = true) then ⊤ else ⊥

theorem pass_tossed (odd : Bool) :
    pass (handsBackGraph.siteStep handsBackAvail "text")
      (visits (List.finRange handsBackGraph.count)) (tossed odd) = tossed !odd := by
  cases odd <;> decide +kernel

theorem pass_start_tossed :
    pass (handsBackGraph.siteStep handsBackAvail "text")
      (visits (List.finRange handsBackGraph.count))
      (handsBackGraph.siteStart handsBackAvail "text") = tossed true := by
  decide +kernel

theorem exists_tossed (k : ℕ) :
    ∃ odd,
    passes (handsBackGraph.siteStep handsBackAvail "text") handsBackGraph.inOrder
      (handsBackGraph.siteStart handsBackAvail "text")
      (k + 1) = tossed odd := by
  induction k with
  | zero => exact ⟨true, pass_start_tossed⟩
  | succ k ih =>
    obtain ⟨odd, hodd⟩ := ih
    exact ⟨!odd, (congrArg (pass _ _) hodd).trans (pass_tossed odd)⟩

/-- The guaranteed names settle there, but the origins of the text do not: it goes round the
three steps as a gap and as a value, in turns. -/
theorem handsBack_never_settles :
    handsBackGraph.Available (fun _ => List.finRange handsBackGraph.count) handsBackAvail ∧
      ¬ ∃ origins, handsBackGraph.Origin handsBackAvail origins := by
  refine ⟨handsBack_available, ?_⟩
  rintro ⟨origins, k, hk, hpass⟩
  have hchgs : ∀ odd, pass (handsBackGraph.siteStep handsBackAvail "text")
    (visits (List.finRange handsBackGraph.count))
      (tossed odd) ≠ tossed odd := by
    intro odd
    rw [pass_tossed]
    cases odd <;> decide +kernel
  have hsett : passes (handsBackGraph.siteStep handsBackAvail "text") handsBackGraph.inOrder
      (handsBackGraph.siteStart handsBackAvail "text") (k + 2) =
        passes (handsBackGraph.siteStep handsBackAvail "text") handsBackGraph.inOrder
          (handsBackGraph.siteStart handsBackAvail "text") (k + 1) := by
    rw [← map_passes_originStep, ← map_passes_originStep]
    have hnext : passes (handsBackGraph.originStep handsBackAvail) handsBackGraph.inOrder
      (handsBackGraph.originStart handsBackAvail)
        (k + 1) = origins := (congrArg (pass _ _) hk).trans hpass
    have hlat : passes (handsBackGraph.originStep handsBackAvail) handsBackGraph.inOrder
      (handsBackGraph.originStart handsBackAvail)
        (k + 2) = origins := (congrArg (pass _ _) hnext).trans hpass
    rw [hnext, hlat]
  obtain ⟨odd, hodd⟩ := exists_tossed k
  refine hchgs odd ?_
  rw [← hodd]
  exact hsett

end Dataflow

end Aion.Awl
