import Mathlib.Data.Set.Image

/-!
# Liveness on paths

A path is the list of the points it goes through, each of which reads some variables and then
defines some. A variable is live on a set of paths when one of them reads it before it redefines it.

`live_through` is the transfer of a backward pass and `live_union` its merge of branches. Both are
equations, so a pass that follows them computes the live variables exactly, as long as no set of
paths is empty: what a point reads is live only where a path goes through it.
-/

namespace Liveness

/-- One point of a path: what it reads, and what it defines after that. -/
structure Point (V : Type*) where
  /-- The variables it reads. -/
  reads : Set V
  /-- The variables it defines. -/
  defs : Set V

variable {V : Type*} {v : V}

/-- The path reads the variable before it redefines it. -/
def ReadsFirst (v : V) : List (Point V) → Prop
  | [] => False
  | point :: rest => v ∈ point.reads ∨ v ∉ point.defs ∧ ReadsFirst v rest

/-- The variables that one of the paths reads before it redefines them. -/
def live (paths : Set (List (Point V))) : Set V := {v | ∃ path ∈ paths, ReadsFirst v path}

/-- The paths, each with this point before it. -/
def through (point : Point V) (paths : Set (List (Point V))) : Set (List (Point V)) :=
  (point :: ·) '' paths

/-- The paths, each with these points before it. -/
def along (points : List (Point V)) (paths : Set (List (Point V))) : Set (List (Point V)) :=
  points.foldr through paths

variable {point : Point V} {points : List (Point V)} {paths paths' : Set (List (Point V))}

@[simp]
theorem along_cons : along (point :: points) paths = through point (along points paths) := rfl

theorem nonempty_through (h : paths.Nonempty) : (through point paths).Nonempty := h.image _

theorem nonempty_along (h : paths.Nonempty) : (along points paths).Nonempty := by
  induction points with
  | nil => exact h
  | cons point points ih => exact nonempty_through ih

/-! ### What is live -/

@[simp]
theorem notMem_live_empty : v ∉ live (∅ : Set (List (Point V))) := by
  simp [live]

/-- Where the paths end, nothing is live. -/
@[simp]
theorem notMem_live_end : v ∉ live {([] : List (Point V))} := by
  simp [live, ReadsFirst]

/-- The merge of two branches. -/
theorem mem_live_union : v ∈ live (paths ∪ paths') ↔ v ∈ live paths ∨ v ∈ live paths' := by
  simp only [live, Set.mem_ofPred_eq, Set.mem_union, or_and_right, exists_or]

/-- The transfer through one point. -/
theorem mem_live_through (h : paths.Nonempty) :
    v ∈ live (through point paths) ↔ v ∈ point.reads ∨ v ∉ point.defs ∧ v ∈ live paths := by
  constructor
  · rintro ⟨_, ⟨path, hpath, rfl⟩, hread | ⟨hdef, hread⟩⟩
    · exact .inl hread
    · exact .inr ⟨hdef, path, hpath, hread⟩
  · rintro (hread | ⟨hdef, path, hpath, hread⟩)
    · obtain ⟨path, hpath⟩ := h
      exact ⟨point :: path, ⟨path, hpath, rfl⟩, .inl hread⟩
    · exact ⟨point :: path, ⟨path, hpath, rfl⟩, .inr ⟨hdef, hread⟩⟩

/-- A last point's variables are live before it. -/
theorem mem_live_last : v ∈ live (through point {[]}) ↔ v ∈ point.reads := by
  rw [mem_live_through (Set.singleton_nonempty _)]
  simp

end Liveness
