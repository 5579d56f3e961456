import Mathlib.Data.Fintype.EquivFin
import Mathlib.Data.Fintype.Pigeonhole
import Mathlib.Data.List.Chain
import Mathlib.Data.List.Nodup
import Mathlib.Logic.Relation
import Mathlib.Tactic.Common

/-!
# Directed graphs

A directed graph is a relation on its vertices. A vertex is on a cycle when it reaches
itself in at least one edge, that is when it has an edge to itself or reaches and is reached
by another vertex (`transGen_self_iff`).

`walk_meets`: in a finite graph, a set of vertices that meets every cycle meets every
infinite walk again and again.

A list of all vertices is a finishing order when each vertex stands after what a depth-first
search finishes below it (`FinishingOrder`). Taking the vertices from the end of such an
order, what reaches a vertex without meeting the ones taken before is reached by it
(`FinishingOrder.reaches_of_avoids`): this is why a search against the edges finds strongly
connected components.
-/

namespace Digraph

open Relation

variable {V : Type*}

/-! ### Cycles -/

variable {before after : List V} {v u : V}

section Cycles

variable (E : V → V → Prop)

/-- A directed cycle: vertices without repetition, each with an edge to the next and the last
with one to the first. -/
def IsCycle : List V → Prop
  | [] => False
  | first :: rest => (first :: rest).Nodup ∧ List.IsChain E (first :: rest ++ [first])

/-- Each vertex reaches the other. -/
def Mutual (u v : V) : Prop := ReflTransGen E u v ∧ ReflTransGen E v u

variable {E}

theorem Mutual.symm (h : Mutual E u v) : Mutual E v u := ⟨h.2, h.1⟩

theorem Mutual.trans {w : V} (h : Mutual E u v) (h' : Mutual E v w) : Mutual E u w :=
  ⟨h.1.trans h'.1, h'.2.trans h.2⟩

/-- A vertex that reaches itself has an edge to itself or is one of several that reach each
other. -/
theorem transGen_self_iff : TransGen E v v ↔ E v v ∨ ∃ w, w ≠ v ∧ Mutual E v w := by
  constructor
  · intro h
    obtain ⟨w, hedge, hback⟩ := TransGen.head'_iff.mp h
    by_cases hw : w = v
    · subst hw
      exact .inl hedge
    · exact .inr ⟨w, hw, .single hedge, hback⟩
  · rintro (hedge | ⟨w, hw, hto, hback⟩)
    · exact .single hedge
    · exact (TransGen.trans_left ((reflTransGen_iff_eq_or_transGen.mp hto).resolve_left hw) hback)

/-- A list that repeats a vertex can be cut at it. -/
theorem exists_repeat {vertices : List V} (h : ¬ vertices.Nodup) :
    ∃ before v between after, vertices = before ++ v :: (between ++ v :: after) := by
  induction vertices with
  | nil => exact absurd List.nodup_nil h
  | cons first rest ih =>
    rw [List.nodup_cons, not_and_or, not_not] at h
    rcases h with hmem | hrest
    · obtain ⟨between, after, rfl⟩ := List.append_of_mem hmem
      exact ⟨[], first, between, after, rfl⟩
    · obtain ⟨before, v, between, after, rfl⟩ := ih hrest
      exact ⟨first :: before, v, between, after, rfl⟩

/-- What is between two visits of a vertex can be left out of a walk. -/
theorem isChain_cut {between : List V}
    (h : List.IsChain E (before ++ v :: (between ++ v :: after))) :
    List.IsChain E (before ++ v :: after) := by
  obtain ⟨hfst, hsnd⟩ := List.isChain_split.mp h
  rw [← List.cons_append] at hsnd
  obtain ⟨-, hlast⟩ := List.isChain_split.mp hsnd
  exact List.isChain_split.mpr ⟨hfst, hlast⟩

/-- A closed walk from a vertex holds a cycle through it. -/
theorem exists_cycle_of_closed (v : V) (rest : List V) (h : List.IsChain E (v :: rest ++ [v])) :
    ∃ rest', IsCycle E (v :: rest') ∧ rest' ⊆ rest := by
  -- By induction on the length: a walk that repeats a vertex is cut short.
  induction hlen : rest.length using Nat.strong_induction_on generalizing rest with
  | _ length ih =>
    subst hlen
    by_cases hnd : (v :: rest).Nodup
    · exact ⟨rest, ⟨hnd, h⟩, List.Subset.refl rest⟩
    · obtain ⟨before, w, between, after, heq⟩ := exists_repeat hnd
      have hcut : List.IsChain E (before ++ w :: (after ++ [v])) := by
        have hrepeat : List.IsChain E (before ++ w :: (between ++ w :: (after ++ [v]))) := by
          rw [heq] at h
          simpa using h
        exact isChain_cut hrepeat
      cases before with
      | nil =>
        obtain ⟨rfl, rfl⟩ := List.cons.inj heq
        obtain ⟨rest', hcycle, hsub⟩ := ih after.length (by simp; omega) after hcut rfl
        refine ⟨rest', hcycle, fun u hu => ?_⟩
        simp [hsub hu]
      | cons first before =>
        obtain ⟨rfl, rfl⟩ := List.cons.inj heq
        obtain ⟨rest', hcycle, hsub⟩ := ih (before ++ w :: after).length
          (by simp only [List.append_eq, List.length_append, List.length_cons]; omega) (before ++ w :: after)
          (by simpa using hcut) rfl
        refine ⟨rest', hcycle, fun u hu => ?_⟩
        have hmem := hsub hu
        simp only [List.append_eq, List.mem_append, List.mem_cons] at hmem ⊢
        tauto

/-- The ends of a walk of at least one edge. -/
theorem transGen_of_isChain {w : V} {mid : List V} (h : List.IsChain E (u :: mid ++ [w])) :
    TransGen E u w := by
  induction mid generalizing u with
  | nil => exact .single (List.isChain_pair.mp h)
  | cons v rest ih =>
    obtain ⟨hedge, hrest⟩ := List.isChain_cons_cons.mp h
    exact .head hedge (ih hrest)

/-- A vertex is on a cycle exactly when it reaches itself in at least one edge. -/
theorem exists_isCycle_iff : (∃ cycle, IsCycle E cycle ∧ v ∈ cycle) ↔ TransGen E v v := by
  constructor
  · rintro ⟨cycle, hcycle, hmem⟩
    cases cycle with
    | nil => exact hcycle.elim
    | cons first rest =>
      obtain ⟨-, hchain⟩ := hcycle
      obtain ⟨before, after, heq⟩ := List.append_of_mem hmem
      rw [heq, List.append_assoc, List.cons_append] at hchain
      obtain ⟨hto, hback⟩ := List.isChain_split.mp hchain
      have hfst : TransGen E v first := transGen_of_isChain hback
      cases before with
      | nil =>
        obtain ⟨rfl, -⟩ := List.cons.inj heq
        exact hfst
      | cons first' before =>
        obtain ⟨rfl, -⟩ := List.cons.inj heq
        exact hfst.trans (transGen_of_isChain hto)
  · intro h
    obtain ⟨w, hedge, hback⟩ := TransGen.head'_iff.mp h
    obtain ⟨rest, hchain, hlast⟩ := List.exists_isChain_cons_of_relationReflTransGen hback
    have hcl : List.IsChain E (v :: (w :: rest).dropLast ++ [v]) := by
      rw [← hlast, List.cons_append, List.dropLast_append_getLast, hlast]
      exact List.isChain_cons_cons.mpr ⟨hedge, hchain⟩
    obtain ⟨rest', hcycle, -⟩ := exists_cycle_of_closed v _ hcl
    exact ⟨v :: rest', hcycle, List.mem_cons_self⟩

/-- Edges that all lead upward close no cycle. -/
theorem not_isCycle_of_ascending [Preorder V] (h : ∀ u w, E u w → u < w) :
    ¬ ∃ cycle, IsCycle E cycle := by
  rintro ⟨cycle, hcycle⟩
  cases cycle with
  | nil => exact hcycle.elim
  | cons first rest =>
    have hup : ∀ w, TransGen E first w → first < w := by
      intro w hw
      induction hw with
      | single hedge => exact h _ _ hedge
      | tail _ hedge ih => exact ih.trans (h _ _ hedge)
    exact lt_irrefl first (hup first (exists_isCycle_iff.mp ⟨first :: rest, hcycle, List.mem_cons_self⟩))

variable {p : V → Prop}

/-- There is a cycle that avoids a set exactly when the graph without the set has one. -/
theorem exists_cycle_avoiding_iff :
    (∃ cycle, IsCycle E cycle ∧ ∀ v ∈ cycle, ¬ p v) ↔
      ∃ v, TransGen (fun u w => E u w ∧ ¬ p u ∧ ¬ p w) v v := by
  constructor
  · rintro ⟨cycle, hcycle, havoids⟩
    cases cycle with
    | nil => exact hcycle.elim
    | cons first rest =>
      refine ⟨first, exists_isCycle_iff.mp ⟨first :: rest, ⟨hcycle.1, hcycle.2.imp_of_mem_imp ?_⟩, List.mem_cons_self⟩⟩
      have hmem : ∀ u ∈ first :: rest ++ [first], ¬ p u := by
        intro u hu
        refine havoids u ?_
        simp only [List.mem_append, List.mem_cons, List.not_mem_nil, or_false] at hu ⊢
        tauto
      intro u w hu hw hedge
      exact ⟨hedge, hmem u hu, hmem w hw⟩
  · rintro ⟨v, hv⟩
    obtain ⟨cycle, hcycle, -⟩ := exists_isCycle_iff.mpr hv
    refine ⟨cycle, ?_, fun u hu => ?_⟩
    · cases cycle with
      | nil => exact hcycle
      | cons first rest => exact ⟨hcycle.1, hcycle.2.imp fun _ _ hedge => hedge.1⟩
    · obtain ⟨w, hedge, -⟩ := TransGen.head'_iff.mp (exists_isCycle_iff.mp ⟨cycle, hcycle, hu⟩)
      exact hedge.2.1

/-- **A set that meets every cycle meets every infinite walk again and again.** -/
theorem walk_meets [Finite V] (h : ¬ ∃ cycle, IsCycle E cycle ∧ ∀ v ∈ cycle, ¬ p v) (walk : ℕ → V)
    (hwalk : ∀ k, E (walk k) (walk (k + 1))) (start : ℕ) : ∃ k ≥ start, p (walk k) := by
  by_contra hnever
  push Not at hnever
  -- From `start` on the walk stays in the graph without the set, and comes back to a vertex.
  have hstay : ∀ i k, TransGen (fun u w => E u w ∧ ¬ p u ∧ ¬ p w) (walk (start + i)) (walk (start + i + k + 1)) := by
    intro i k
    have hedge : ∀ k, E (walk (start + i + k)) (walk (start + i + k + 1)) ∧
      ¬ p (walk (start + i + k)) ∧
        ¬ p (walk (start + i + k + 1)) :=
      fun k => ⟨hwalk _, hnever _ (by omega), hnever _ (by omega)⟩
    induction k with
    | zero => exact .single (hedge 0)
    | succ k ih => exact ih.tail (hedge (k + 1))
  obtain ⟨i, j, hne, heq⟩ := Finite.exists_ne_map_eq_of_infinite fun k => walk (start + k)
  refine h (exists_cycle_avoiding_iff.mpr ?_)
  rcases Nat.lt_or_gt_of_ne hne with hlt | hlt
  · obtain ⟨k, rfl⟩ := Nat.exists_eq_add_of_lt hlt
    refine ⟨walk (start + i), ?_⟩
    have hback := hstay i k
    rwa [show start + i + k + 1 = start + (i + k + 1) by omega, ← heq] at hback
  · obtain ⟨k, rfl⟩ := Nat.exists_eq_add_of_lt hlt
    refine ⟨walk (start + j), ?_⟩
    have hback := hstay j k
    rwa [show start + j + k + 1 = start + (j + k + 1) by omega, heq] at hback

end Cycles

/-! ### Finishing orders -/

section Finishing

variable (E : V → V → Prop)

/-- What a depth-first search says of the order in which it finishes vertices: of those
finished before a vertex, the last ones are reached by it, and the edges of the others lead
to each other or to what is finished later. -/
def FinishingOrder (order : List V) : Prop :=
  ∀ before v after, order = before ++ v :: after → ∃ earlier inside, before = earlier ++ inside ∧
    (∀ w ∈ inside, ReflTransGen E v w) ∧ ∀ u ∈ earlier, ∀ w, E u w → w ∈ earlier ∨ w ∈ after

variable {E}

/-- Where a depth-first search stands: the opened vertices, the last one first, and the
finished ones. Each opened vertex reaches those opened after it and the last ones finished;
what was finished before it leads to itself or to what was opened before it. -/
structure DepthFirst (E : V → V → Prop) (opened finished : List V) : Prop where
  nodup : (opened ++ finished).Nodup
  known : ∀ u ∈ finished, ∀ w, E u w → w ∈ opened ∨ w ∈ finished
  reaches : ∀ above v rest, opened = above ++ v :: rest → ∀ u ∈ above, ReflTransGen E v u
  inside : ∀ above v rest, opened = above ++ v :: rest → ∃ earlier inside,
    finished = earlier ++ inside ∧
    (∀ w ∈ inside, ReflTransGen E v w) ∧ ∀ u ∈ earlier, ∀ w, E u w → w ∈ earlier ∨ w ∈ rest
  order : ∀ before v after, finished = before ++ v :: after → ∃ earlier inside,
    before = earlier ++ inside ∧
    (∀ w ∈ inside, ReflTransGen E v w) ∧ ∀ u ∈ earlier, ∀ w, E u w → w ∈ earlier ∨
      w ∈ after ∨ w ∈ opened

theorem DepthFirst.start : DepthFirst E [] [] where
  nodup := List.nodup_nil
  known := by simp
  reaches := by simp
  inside := by simp
  order := by simp

variable {finished order : List V}

/-- A vertex not yet met is opened, from the last opened one if there is one. -/
theorem DepthFirst.push {opened : List V} (h : DepthFirst E opened finished)
    (hnew : v ∉ opened ++ finished) (hedge : ∀ u rest, opened = u :: rest → E u v) :
    DepthFirst E (v :: opened) finished where
  nodup := List.nodup_cons.mpr ⟨hnew, h.nodup⟩
  known := by
    intro u hu w hw
    exact (h.known u hu w hw).imp_left (List.mem_cons_of_mem v)
  reaches := by
    intro above u rest hspl w hw
    cases above with
    | nil => exact absurd hw List.not_mem_nil
    | cons first above =>
      obtain ⟨rfl, rfl⟩ := List.cons.inj hspl
      -- The new vertex is reached through the one opened last.
      have hfst : ReflTransGen E u v := by
        cases above with
        | nil => exact .single (hedge u rest rfl)
        | cons last above =>
          exact (h.reaches (last :: above) u rest rfl last List.mem_cons_self).tail (hedge last _ rfl)
      rcases List.mem_cons.mp hw with rfl | hw
      · exact hfst
      · exact h.reaches above u rest rfl w hw
  inside := by
    intro above u rest hspl
    cases above with
    | nil =>
      obtain ⟨rfl, rfl⟩ := List.cons.inj hspl
      exact ⟨finished, [], (List.append_nil finished).symm, by simp, fun w hw x hx => (h.known w hw x hx).symm⟩
    | cons first above =>
      obtain ⟨rfl, rfl⟩ := List.cons.inj hspl
      exact h.inside above u rest rfl
  order := by
    intro before u after hspl
    obtain ⟨earlier, inside, hbef, hins, hearl⟩ := h.order before u after hspl
    refine ⟨earlier, inside, hbef, hins, fun w hw x hx => ?_⟩
    exact (hearl w hw x hx).imp_right (Or.imp_right (List.mem_cons_of_mem v))

/-- The vertex opened last is finished once all its successors are met. -/
theorem DepthFirst.finish {rest : List V} (h : DepthFirst E (v :: rest) finished)
    (hout : ∀ w, E v w → w ∈ v :: rest ∨ w ∈ finished) : DepthFirst E rest (finished ++ [v]) where
  nodup := by
    have hperm : (rest ++ (finished ++ [v])).Perm (v :: rest ++ finished) := by
      rw [← List.append_assoc]
      exact List.perm_append_singleton v (rest ++ finished)
    exact hperm.nodup_iff.mpr h.nodup
  known := by
    have hmove : ∀ w, w ∈ v :: rest ∨ w ∈ finished → w ∈ rest ∨ w ∈ finished ++ [v] := by
      intro w hw
      simp only [List.mem_cons, List.mem_append, List.not_mem_nil, or_false] at hw ⊢
      tauto
    intro u hu w hw
    rcases List.mem_append.mp hu with hu | hu
    · exact hmove w (h.known u hu w hw)
    · rw [List.mem_singleton.mp hu] at hw
      exact hmove w (hout w hw)
  reaches := by
    intro above u below hspl w hw
    exact h.reaches (v :: above) u below (by rw [hspl, List.cons_append]) w
      (List.mem_cons_of_mem v hw)
  inside := by
    intro above u below hspl
    have hspl' : v :: rest = (v :: above) ++ u :: below := by rw [hspl, List.cons_append]
    obtain ⟨earlier, inside, rfl, hins, hearl⟩ := h.inside (v :: above) u below hspl'
    refine ⟨earlier, inside ++ [v], List.append_assoc _ _ _, fun w hw => ?_, hearl⟩
    rcases List.mem_append.mp hw with hw | hw
    · exact hins w hw
    · rw [List.mem_singleton.mp hw]
      exact h.reaches (v :: above) u below hspl' v List.mem_cons_self
  order := by
    intro before u after hspl
    rcases List.eq_nil_or_concat after with rfl | ⟨after', last, rfl⟩
    · -- The vertex just finished: what it holds is what it held when it was open.
      obtain ⟨rfl, hu⟩ := List.append_inj' hspl rfl
      obtain rfl : v = u := by simpa using hu
      obtain ⟨earlier, inside, hfin, hins, hearl⟩ := h.inside [] v rest rfl
      exact ⟨earlier, inside, hfin, hins, fun w hw x hx => (hearl w hw x hx).imp_right .inr⟩
    · rw [List.concat_eq_append, ← List.cons_append, ← List.append_assoc] at hspl
      obtain ⟨hfin, hlast⟩ := List.append_inj' hspl rfl
      obtain rfl : v = last := by simpa using hlast
      obtain ⟨earlier, inside, hbef, hins, hearl⟩ := h.order before u after' hfin
      refine ⟨earlier, inside, hbef, hins, fun w hw x hx => ?_⟩
      have hx := hearl w hw x hx
      simp only [List.concat_eq_append, List.mem_cons, List.mem_append, List.not_mem_nil, or_false] at hx ⊢
      tauto

/-- A search with nothing open has met its vertices in a finishing order. -/
theorem DepthFirst.finishingOrder (h : DepthFirst E [] order) : FinishingOrder E order := by
  intro before v after hspl
  obtain ⟨earlier, inside, hbef, hins, hearl⟩ := h.order before v after hspl
  refine ⟨earlier, inside, hbef, hins, fun u hu w hw => ?_⟩
  simpa using hearl u hu w hw

/-- **The component rule**: what reaches a vertex without meeting those that are finished
later is reached by it. -/
theorem FinishingOrder.reaches_of_avoids (h : FinishingOrder E order) (hall : ∀ w, w ∈ order)
    (hnd : order.Nodup) (hspl : order = before ++ v :: after) {taken : V → Prop}
    (hafter : ∀ w ∈ after, taken w)
    (hpath : ReflTransGen (fun a b => E a b ∧ ¬ taken a ∧ ¬ taken b) u v) (hu : ¬ taken u) :
    ReflTransGen E v u := by
  obtain ⟨earlier, inside, rfl, hins, hearl⟩ := h before v after hspl
  -- A path that begins among the earlier ones stays there, and does not come to `v`.
  have hnot : ∀ w, ReflTransGen (fun a b => E a b ∧ ¬ taken a ∧ ¬ taken b) w v → w ∉ earlier := by
    intro w hw
    induction hw using ReflTransGen.head_induction_on with
    | refl =>
      rw [hspl] at hnd
      intro hv
      exact List.disjoint_of_nodup_append hnd (List.mem_append_left _ hv) List.mem_cons_self
    | head hedge _ ih =>
      intro hmem
      rcases hearl _ hmem _ hedge.1 with hmem | hmem
      · exact ih hmem
      · exact hedge.2.2 (hafter _ hmem)
  have hmem := hall u
  rw [hspl] at hmem
  simp only [List.mem_append, List.mem_cons] at hmem
  rcases hmem with (hmem | hmem) | rfl | hmem
  · exact absurd hmem (hnot u hpath)
  · exact hins u hmem
  · exact .refl
  · exact absurd (hafter u hmem) hu

end Finishing

end Digraph
