import Mathlib.Data.Fin.Basic
import Mathlib.Data.List.FinRange
import Mathlib.Logic.Function.Basic
import Mathlib.Order.MinMax

/-!
# Union-find

Classes of positions, kept as trees of parents: a root is its own parent, two positions are of
one class when they have one root. A parent never stands above its child, so every walk to a
root ends, and joining two trees puts the later root under the earlier.

`find` walks to the root and then hangs the whole path under it. That changes no root
(`root_find`); `union` joins two classes and parts none (`root_union_self`, `root_union_of_eq`).
-/

namespace UnionFind

variable {n : ℕ}

/-- Trees over `n` positions, no parent above its child. -/
structure Forest (n : ℕ) where
  parent : Fin n → Fin n
  parent_le : ∀ v, parent v ≤ v

namespace Forest

/-- Every position a tree of its own. -/
def singletons (n : ℕ) : Forest n := ⟨id, fun _ => le_rfl⟩

variable (forest : Forest n)

/-- Gives a position another parent. -/
def attach (v w : Fin n) (h : w ≤ v) : Forest n where
  parent := Function.update forest.parent v w
  parent_le u := by
    by_cases hu : u = v
    · subst hu
      rwa [Function.update_self]
    · rw [Function.update_of_ne hu]
      exact forest.parent_le u

variable {pairs : List (Fin n × Fin n)} {v w : Fin n}

theorem parent_lt (h : forest.parent v ≠ v) : forest.parent v < v :=
  lt_of_le_of_ne (forest.parent_le v) h

/-- The walk from parent to parent. -/
def root (v : Fin n) : Fin n := if _h : forest.parent v = v then v else root (forest.parent v)
termination_by v
decreasing_by exact forest.parent_lt _h

variable {forest}

theorem root_of_parent (h : forest.parent v = v) : forest.root v = v := by
  rw [root, dif_pos h]

theorem root_parent (v : Fin n) : forest.root (forest.parent v) = forest.root v := by
  by_cases h : forest.parent v = v
  · rw [h]
  · conv_rhs => rw [root, dif_neg h]

theorem root_le (v : Fin n) : forest.root v ≤ v := by
  induction v using WellFoundedLT.induction with
  | ind v ih =>
    by_cases h : forest.parent v = v
    · rw [root_of_parent h]
    · rw [← root_parent]
      exact (ih _ (forest.parent_lt h)).trans (forest.parent_le v)

theorem parent_root (v : Fin n) : forest.parent (forest.root v) = forest.root v := by
  induction v using WellFoundedLT.induction with
  | ind v ih =>
    by_cases h : forest.parent v = v
    · rw [root_of_parent h, h]
    · rw [← root_parent]
      exact ih _ (forest.parent_lt h)

theorem root_root (v : Fin n) : forest.root (forest.root v) = forest.root v :=
  root_of_parent (parent_root v)

/-! ### Another parent -/

theorem parent_attach_self (h : w ≤ v) : (forest.attach v w h).parent v = w :=
  Function.update_self ..

theorem parent_attach_of_ne {u : Fin n} (h : w ≤ v) (hu : u ≠ v) :
    (forest.attach v w h).parent u = forest.parent u :=
  Function.update_of_ne hu ..

/-- A position may hang under its root directly. -/
theorem root_attach_root (v u : Fin n) :
    (forest.attach v (forest.root v) (root_le v)).root u = forest.root u := by
  induction u using WellFoundedLT.induction with
  | ind u ih =>
    by_cases hu : u = v
    · subst hu
      by_cases hroot : forest.root u = u
      · rw [root_of_parent, hroot]
        rw [parent_attach_self, hroot]
      · rw [← root_parent, parent_attach_self, ih _ (lt_of_le_of_ne (root_le u) hroot), root_root]
    · by_cases hpar : forest.parent u = u
      · rw [root_of_parent hpar, root_of_parent]
        rw [parent_attach_of_ne _ hu, hpar]
      · rw [← root_parent, parent_attach_of_ne _ hu, ih _ (forest.parent_lt hpar), root_parent]

/-- A root that hangs under another takes its tree with it. -/
theorem root_attach (h : w ≤ v) (hv : forest.parent v = v) (hw : forest.parent w = w) (u : Fin n) :
    (forest.attach v w h).root u = if forest.root u = v then w else forest.root u := by
  have hroot : (forest.attach v w h).root w = w := by
    refine root_of_parent ?_
    by_cases hwv : w = v
    · subst hwv
      exact parent_attach_self h
    · rw [parent_attach_of_ne h hwv, hw]
  induction u using WellFoundedLT.induction with
  | ind u ih =>
    by_cases hu : u = v
    · subst hu
      rw [← root_parent, parent_attach_self, hroot, root_of_parent hv, if_pos rfl]
    · by_cases hpar : forest.parent u = u
      · rw [root_of_parent hpar, if_neg hu, root_of_parent]
        rw [parent_attach_of_ne h hu, hpar]
      · rw [← root_parent, parent_attach_of_ne h hu, ih _ (forest.parent_lt hpar), root_parent]

/-! ### Looking up and joining -/

/-- Hangs each position of a path to `root` under it. -/
def compress (forest : Forest n) (cursor root : Fin n) (hroot : forest.root cursor = root) :
    Forest n :=
  if hdone : forest.parent cursor = root then forest
  else
    compress (forest.attach cursor root (hroot ▸ root_le cursor)) (forest.parent cursor) root (by
      subst hroot
      rw [root_attach_root, root_parent])
termination_by cursor
decreasing_by
  refine forest.parent_lt fun hself => hdone ?_
  rw [hself, ← hroot, root_of_parent hself]

theorem root_compress {forest : Forest n} {cursor root : Fin n} (hroot : forest.root cursor = root)
    (u : Fin n) : (forest.compress cursor root hroot).root u = forest.root u := by
  induction cursor using WellFoundedLT.induction generalizing forest with
  | ind cursor ih =>
    rw [compress]
    split
    · rfl
    · rename_i hdone
      have hlt : forest.parent cursor < cursor := by
        refine forest.parent_lt fun hself => hdone ?_
        rw [hself, ← hroot, root_of_parent hself]
      rw [ih _ hlt]
      subst hroot
      exact root_attach_root cursor u

/-- The root of a position; its path is compressed on the way. -/
def find (forest : Forest n) (v : Fin n) : Fin n × Forest n :=
  (forest.root v, forest.compress v (forest.root v) rfl)

@[simp]
theorem find_fst (v : Fin n) : (forest.find v).1 = forest.root v := rfl

@[simp]
theorem root_find (v : Fin n) : (forest.find v).2.root = forest.root :=
  funext fun u => root_compress rfl u

/-- Joins the classes of two positions under the earlier root. -/
def union (forest : Forest n) (v w : Fin n) : Forest n :=
  let (a, found) := forest.find v
  let (b, found) := found.find w
  found.attach (max a b) (min a b) min_le_max

theorem root_union (v w u : Fin n) :
    (forest.union v w).root u = if forest.root u = max (forest.root v) (forest.root w) then
      min (forest.root v) (forest.root w)
      else forest.root u := by
  have hfixed : ∀ x, ((forest.find v).2.find w).2.parent (forest.root x) = forest.root x := by
    intro x
    have hroot : ((forest.find v).2.find w).2.root x = forest.root x := by rw [root_find, root_find]
    rw [← hroot]
    exact parent_root x
  have hmax : ((forest.find v).2.find w).2.parent (max (forest.root v) (forest.root w)) =
      max (forest.root v) (forest.root w) := by
    rcases max_choice (forest.root v) (forest.root w) with h | h <;> rw [h] <;> exact hfixed _
  have hmin : ((forest.find v).2.find w).2.parent (min (forest.root v) (forest.root w)) =
      min (forest.root v) (forest.root w) := by
    rcases min_choice (forest.root v) (forest.root w) with h | h <;> rw [h] <;> exact hfixed _
  have hattach := root_attach min_le_max hmax hmin u
  simpa [union] using hattach

/-- The two positions are of one class afterwards. -/
theorem root_union_self (v w : Fin n) : (forest.union v w).root v = (forest.union v w).root w := by
  rw [root_union, root_union]
  rcases le_total (forest.root v) (forest.root w) with h | h
  · rw [max_eq_right h, min_eq_left h, if_pos rfl]
    split <;> rfl
  · rw [max_eq_left h, min_eq_right h, if_pos rfl]
    split <;> rfl

/-- Positions of one class stay together. -/
theorem root_union_of_eq {x y : Fin n} (v w : Fin n) (h : forest.root x = forest.root y) :
    (forest.union v w).root x = (forest.union v w).root y := by
  rw [root_union, root_union, h]

/-- Joins along every pair of a list. -/
def unions (forest : Forest n) (pairs : List (Fin n × Fin n)) : Forest n :=
  pairs.foldl (fun forest pair => forest.union pair.1 pair.2) forest

/-- The roots after joining along pairs, from the roots before. -/
def merged (roots : Fin n → Fin n) (pairs : List (Fin n × Fin n)) : Fin n → Fin n :=
  pairs.foldl (fun roots pair u =>
    if roots u = max (roots pair.1) (roots pair.2) then min (roots pair.1) (roots pair.2)
    else roots u) roots

theorem root_unions (pairs : List (Fin n × Fin n)) :
    (forest.unions pairs).root = merged forest.root pairs := by
  induction pairs generalizing forest with
  | nil => rfl
  | cons pair rest ih =>
    change ((forest.union pair.1 pair.2).unions rest).root = _
    rw [ih, funext (root_union pair.1 pair.2)]
    rfl

theorem root_singletons : (singletons n).root = id := funext fun _ => root_of_parent rfl

theorem root_unions_of_eq {x y : Fin n} (h : forest.root x = forest.root y) :
    (forest.unions pairs).root x = (forest.unions pairs).root y := by
  induction pairs generalizing forest with
  | nil => exact h
  | cons pair rest ih => exact ih (root_union_of_eq pair.1 pair.2 h)

theorem root_unions_of_mem (h : (v, w) ∈ pairs) :
    (forest.unions pairs).root v = (forest.unions pairs).root w := by
  induction pairs generalizing forest with
  | nil => cases h
  | cons pair rest ih =>
    rcases List.mem_cons.mp h with rfl | hrest
    · change ((forest.union v w).unions rest).root v = ((forest.union v w).unions rest).root w
      exact root_unions_of_eq (root_union_self v w)
    · exact ih hrest

/-! ### The classes -/

/-- Looks each position up in turn and files it under its root. -/
def members (forest : Forest n) : List (Fin n) → (Fin n → List (Fin n)) → Fin n → List (Fin n)
  | [], filed => filed
  | v :: rest, filed =>
    let (root, found) := forest.find v
    found.members rest (Function.update filed root (filed root ++ [v]))

theorem members_eq (positions : List (Fin n)) (filed : Fin n → List (Fin n)) (root : Fin n) :
    forest.members positions filed root = filed root ++ positions.filter fun v =>
      forest.root v = root := by
  induction positions generalizing forest filed with
  | nil => simp [members]
  | cons v rest ih =>
    rw [members]
    simp only [find_fst, root_find, ih]
    by_cases hroot : forest.root v = root
    · subst hroot
      simp
    · rw [Function.update_of_ne (Ne.symm hroot), List.filter_cons_of_neg (by simpa using hroot)]

end Forest

end UnionFind
