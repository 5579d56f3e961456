import Mathlib.Data.Finset.Card
import Mathlib.Data.List.Nodup
import Mathlib.Data.List.Range
import Mathlib.Logic.Function.Iterate
import Mathlib.Order.WellFounded

/-!
# Layers of a dependency relation

A group of vertices, each needing others of the group, is sorted into layers: a vertex stands
one layer below the deepest of those it needs. The levels are computed by relaxation, in as
many passes over the group as it has members, whatever the order of the members.

When the needs have no infinite descent the relaxation settles: `levels_eq` gives each member
its height, the length of the longest chain of needs below it, and `layers_eq` reads the layers
off the heights, none of them empty.
-/

namespace Layering

variable {V : Type*}

/-- The least level above those of some vertices. -/
def above (level : V → ℕ) (vertices : List V) : ℕ :=
  vertices.foldl (fun depth u => max depth (level u + 1)) 0

section Definitions

variable [DecidableEq V] (needs : V → List V)

/-- One vertex of a pass: its level becomes the least above what it needs, nothing known counting as
zero. -/
def relaxOnce (level : V → Option ℕ) (v : V) : V → Option ℕ :=
  Function.update level v (some (above (fun u => (level u).getD 0) (needs v)))

/-- As many passes over the group as it has members. -/
def levels (group : List V) : V → Option ℕ :=
  (fun level => group.foldl (relaxOnce needs) level)^[group.length] fun _ => none

/-- Adds a vertex to a layer, after the layers there are not yet. -/
def place (layers : List (List V)) (depth : ℕ) (v : V) : List (List V) :=
  (layers ++ List.replicate (depth + 1 - layers.length) []).modify depth (· ++ [v])

/-- The members by their levels, without empty layers. -/
def layers (group : List V) : List (List V) :=
  (group.foldl (fun layers v => place layers ((levels needs group v).getD 0) v) []).filter
    fun layer => !layer.isEmpty

/-- The length of the longest chain of needs below each vertex. -/
def Heights (height : V → ℕ) : Prop := ∀ v, height v = above height (needs v)

end Definitions

/-! ### Levels above others -/

@[simp]
theorem above_nil (level : V → ℕ) : above level [] = 0 := rfl

theorem above_concat (level : V → ℕ) (vertices : List V) (v : V) :
    above level (vertices ++ [v]) = max (above level vertices) (level v + 1) := by
  simp [above]

variable {vertices layer : List V} {level : V → ℕ} {depth : ℕ} {v u : V}

theorem above_congr {level' : V → ℕ} (h : ∀ u ∈ vertices, level u = level' u) :
    above level vertices = above level' vertices :=
  List.foldl_ext _ _ 0 fun depth u hu => by rw [h u hu]

theorem lt_above (h : u ∈ vertices) : level u < above level vertices := by
  induction vertices using List.reverseRecOn with
  | nil => cases h
  | append_singleton vertices v ih =>
    rw [above_concat]
    rcases List.mem_append.mp h with h | h
    · exact lt_max_of_lt_left (ih h)
    · rw [List.mem_singleton.mp h]
      exact lt_max_of_lt_right (Nat.lt_succ_self _)

/-- The level above is the next one to some vertex, when there are any. -/
theorem above_eq_zero_or (level : V → ℕ) (vertices : List V) :
    above level vertices = 0 ∨ ∃ u ∈ vertices, above level vertices = level u + 1 := by
  induction vertices using List.reverseRecOn with
  | nil => exact .inl rfl
  | append_singleton vertices v ih =>
    rw [above_concat]
    rcases max_choice (above level vertices) (level v + 1) with h | h
    · rw [h]
      exact ih.imp_right fun ⟨u, hu, heq⟩ => ⟨u, List.mem_append_left _ hu, heq⟩
    · rw [h]
      exact .inr ⟨v, by simp, rfl⟩

/-! ### Filing by level -/

theorem place_concat (level : V → ℕ) (placed : List V) (v : V) :
    place ((List.range (above level placed)).map fun depth => placed.filter (level · = depth))
      (level v) v =
      (List.range (above level (placed ++ [v]))).map fun depth =>
        (placed ++ [v]).filter (level · = depth) := by
  have hemp : ∀ depth, above level placed ≤ depth → placed.filter (level · = depth) = [] := by
    intro depth hle
    refine List.filter_eq_nil_iff.mpr fun u hu heq => ?_
    have hlt : level u < above level placed := lt_above hu
    have hlevel : level u = depth := by simpa using heq
    omega
  rw [above_concat]
  refine List.ext_getElem (by simp [place]; omega) fun depth hdepth hdepth' => ?_
  simp only [place, List.getElem_modify, List.getElem_append, List.getElem_map, List.getElem_range,
    List.length_map,
    List.length_range, List.getElem_replicate, List.filter_append, List.filter_cons,
      List.filter_nil]
  have hknown : (if _ : depth < above level placed then placed.filter (level · = depth) else []) =
      placed.filter (level · = depth) := by
    split
    · rfl
    · rename_i hle
      exact (hemp depth (not_lt.mp hle)).symm
  rw [hknown]
  by_cases hv : level v = depth
  · simp [hv]
  · simp [hv]

theorem foldl_place (level : V → ℕ) (group : List V) :
    group.foldl (fun layers v => place layers (level v) v) [] =
      (List.range (above level group)).map fun depth => group.filter (level · = depth) := by
  induction group using List.reverseRecOn with
  | nil => rfl
  | append_singleton placed v ih => rw [List.foldl_concat, ih, place_concat]

/-! ### Heights -/

variable {needs : V → List V} {height : V → ℕ} {group : List V}

theorem exists_heights (h : WellFounded fun u v => u ∈ needs v) :
    ∃ height, Heights needs height := by
  refine ⟨h.fix fun v below => (needs v).attach.foldl
      (fun depth u => max depth (below u.1 u.2 + 1)) 0, fun v => ?_⟩
  rw [h.fix_eq, above]
  exact List.foldl_attach (l := needs v) (f := fun depth u => max depth
    (h.fix (fun v below => (needs v).attach.foldl (fun depth u => max depth (below u.1 u.2 + 1)) 0) u + 1)) (b := 0)

theorem Heights.lt (h : Heights needs height) (hneeds : u ∈ needs v) : height u < height v := by
  rw [h v]
  exact lt_above hneeds

theorem Heights.eq_zero_iff (h : Heights needs height) : height v = 0 ↔ needs v = [] := by
  constructor
  · intro hzero
    refine List.eq_nil_iff_forall_not_mem.mpr fun u hu => ?_
    have hlt : height u < height v := h.lt hu
    omega
  · intro hnil
    rw [h v, hnil, above_nil]

/-- Below a member of a closed group stands a member of every smaller height. -/
theorem Heights.exists_of_le (h : Heights needs height)
    (hcl : ∀ v ∈ group, ∀ u ∈ needs v, u ∈ group) (hv : v ∈ group) (hdepth : depth ≤ height v) :
    ∃ u ∈ group, height u = depth := by
  induction hheight : height v generalizing v with
  | zero => exact ⟨v, hv, by omega⟩
  | succ level ih =>
    by_cases heq : depth = level + 1
    · exact ⟨v, hv, by omega⟩
    · have hsome : above height (needs v) = level + 1 := by rw [← h v, hheight]
      rcases above_eq_zero_or height (needs v) with hzero | ⟨u, hu, hnext⟩
      · omega
      · exact ih (hcl v hv u hu) (by omega) (by omega)

theorem Heights.lt_length (h : Heights needs height) (hcl : ∀ v ∈ group, ∀ u ∈ needs v, u ∈ group)
    (hv : v ∈ group) : height v < group.length := by
  have hsubset : Finset.range (height v + 1) ⊆ (group.map height).toFinset := by
    intro depth hdepth
    obtain ⟨u, hu, heq⟩ := h.exists_of_le hcl hv (Nat.lt_succ_iff.mp (Finset.mem_range.mp hdepth))
    simp only [List.mem_toFinset, List.mem_map]
    exact ⟨u, hu, heq⟩
  have hcard := (Finset.card_le_card hsubset).trans (List.toFinset_card_le _)
  rw [Finset.card_range, List.length_map] at hcard
  exact hcard

/-! ### The relaxation settles -/

variable [DecidableEq V]

/-- A pass that starts with every height below `bound` known learns the height `bound` of what it
visits, and forgets none. -/
theorem foldl_relaxOnce (h : Heights needs height) (hcl : ∀ v ∈ group, ∀ u ∈ needs v, u ∈ group)
    {bound : ℕ} (visits : List V) {level : V → Option ℕ}
    (hlevel : ∀ v ∈ group, height v < bound → level v = some (height v)) (hv : v ∈ group)
    (hheight : height v ≤ bound) (hvisit : level v = some (height v) ∨ v ∈ visits) :
    visits.foldl (relaxOnce needs) level v = some (height v) := by
  induction visits generalizing level with
  | nil => simpa using hvisit
  | cons next rest ih =>
    -- What a member of height at most `bound` needs is known already.
    have hnext : next ∈ group → height next ≤ bound → relaxOnce needs level next next = some (height next) := by
      intro hmem hle
      rw [relaxOnce, Function.update_self, h next]
      refine congrArg some (above_congr fun u hu => ?_)
      have hlt : height u < height next := h.lt hu
      rw [hlevel u (hcl next hmem u hu) (by omega), Option.getD_some]
    rw [List.foldl_cons]
    refine ih (fun w hw hlt => ?_) ?_
    · by_cases hwn : w = next
      · subst hwn
        exact hnext hw hlt.le
      · rw [relaxOnce, Function.update_of_ne hwn]
        exact hlevel w hw hlt
    · by_cases hvn : v = next
      · subst hvn
        exact .inl (hnext hv hheight)
      · rw [relaxOnce, Function.update_of_ne hvn]
        exact hvisit.imp_right fun hmem => (List.mem_cons.mp hmem).resolve_left hvn

/-- After as many passes as the group has members every level is a height. -/
theorem levels_eq (h : Heights needs height) (hcl : ∀ v ∈ group, ∀ u ∈ needs v, u ∈ group)
    (hv : v ∈ group) : levels needs group v = some (height v) := by
  have hpasses : ∀ passes : ℕ, ∀ w ∈ group, height w < passes →
      (fun level => group.foldl (relaxOnce needs) level)^[passes] (fun _ => none) w = some (height w) := by
    intro passes
    induction passes with
    | zero => exact fun w _ hlt => absurd hlt (Nat.not_lt_zero _)
    | succ passes ih =>
      intro w hw hlt
      rw [Function.iterate_succ_apply']
      exact foldl_relaxOnce h hcl group ih hw (by omega) (.inr hw)
  exact hpasses group.length v hv (h.lt_length hcl hv)

/-! ### The layers -/

/-- The layers are the members of each height. -/
theorem layers_eq (h : Heights needs height) (hcl : ∀ v ∈ group, ∀ u ∈ needs v, u ∈ group) :
    layers needs group = (List.range (above height group)).map fun depth =>
      group.filter (height · = depth) := by
  have hlevels : group.foldl (fun layers v => place layers ((levels needs group v).getD 0) v) [] =
      group.foldl (fun layers v => place layers (height v) v) [] :=
    List.foldl_ext _ _ [] fun layers v hv => by rw [levels_eq h hcl hv, Option.getD_some]
  rw [layers, hlevels, foldl_place, List.filter_eq_self]
  intro layer hlayer
  obtain ⟨depth, hdepth, rfl⟩ := List.mem_map.mp hlayer
  -- No layer is empty: under the deepest member stands one of every height.
  obtain ⟨u, hu, heq⟩ : ∃ u ∈ group, height u = depth := by
    have hlt := List.mem_range.mp hdepth
    rcases above_eq_zero_or height group with hzero | ⟨v, hv, hnext⟩
    · omega
    · exact h.exists_of_le hcl hv (by omega)
  have hmem : u ∈ group.filter (height · = depth) := by simp [hu, heq]
  simpa using List.ne_nil_of_mem hmem

theorem getElem?_layers (h : Heights needs height) (hcl : ∀ v ∈ group, ∀ u ∈ needs v, u ∈ group)
    (hlayer : (layers needs group)[depth]? = some layer) :
    layer = group.filter (height · = depth) := by
  rw [layers_eq h hcl, List.getElem?_map] at hlayer
  obtain ⟨depth', hdepth', rfl⟩ := Option.map_eq_some_iff.mp hlayer
  obtain ⟨hlt, hget⟩ := List.getElem?_eq_some_iff.mp hdepth'
  rw [List.getElem_range] at hget
  rw [hget]

/-- The layers hold each member once. -/
theorem flatten_layers (h : Heights needs height) (hcl : ∀ v ∈ group, ∀ u ∈ needs v, u ∈ group)
    (hnd : group.Nodup) : (layers needs group).flatten.Perm group := by
  rw [layers_eq h hcl, ← List.flatMap_def]
  refine (List.perm_ext_iff_of_nodup ?_ hnd).mpr fun v => ?_
  · refine List.nodup_flatMap.mpr ⟨fun depth _ => hnd.filter _, ?_⟩
    refine List.nodup_range.imp fun hne v hv hv' => hne ?_
    simp only [List.mem_filter, decide_eq_true_eq] at hv hv'
    rw [← hv.2, ← hv'.2]
  · simp only [List.mem_flatMap, List.mem_range, List.mem_filter, decide_eq_true_eq]
    exact ⟨fun ⟨_, _, hv, _⟩ => hv, fun hv => ⟨height v, lt_above hv, hv, rfl⟩⟩

/-- What a member needs stands in an earlier layer. -/
theorem needs_earlier (h : Heights needs height) (hcl : ∀ v ∈ group, ∀ u ∈ needs v, u ∈ group)
    (hlayer : (layers needs group)[depth]? = some layer) (hv : v ∈ layer) (hu : u ∈ needs v) :
    ∃ earlier < depth, ∃ before, (layers needs group)[earlier]? = some before ∧ u ∈ before := by
  rw [getElem?_layers h hcl hlayer, List.mem_filter, decide_eq_true_eq] at hv
  obtain ⟨hgrp, rfl⟩ := hv
  have hmem : u ∈ group := hcl v hgrp u hu
  refine ⟨height u, h.lt hu, group.filter (height · = height u), ?_, by simp [hmem]⟩
  rw [layers_eq h hcl, List.getElem?_map, List.getElem?_range (lt_above hmem), Option.map_some]

/-- The first layer holds the members that need nothing. -/
theorem head_layers (h : Heights needs height) (hcl : ∀ v ∈ group, ∀ u ∈ needs v, u ∈ group)
    (hgrp : group ≠ []) :
    (layers needs group).head? = some (group.filter fun v => (needs v).isEmpty) := by
  obtain ⟨v, rest, rfl⟩ := List.exists_cons_of_ne_nil hgrp
  have hpositive : 0 < above height (v :: rest) := Nat.zero_lt_of_lt (lt_above List.mem_cons_self)
  rw [List.head?_eq_getElem?, layers_eq h hcl, List.getElem?_map, List.getElem?_range hpositive,
    Option.map_some]
  refine congrArg some (List.filter_congr fun u _ => ?_)
  rw [Bool.eq_iff_iff]
  simp [h.eq_zero_iff]

end Layering
