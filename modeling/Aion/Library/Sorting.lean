import Mathlib.Data.List.Sort

/-!
# Sorting by keys

Rows are often sorted by one key and, where it ties, by another that tells them apart
(`lexBy`). Such a sort depends on the rows alone and not on the order they come in
(`insertionSort_eq_of_perm`), it commutes with a filter (`filter_insertionSort`), and it
goes through an encoding of the rows that keeps the order (`select_map`).
-/

namespace Sorting

variable {α β γ : Type*}

/-- By `f`, and by `g` where `f` ties. -/
def lexBy [LinearOrder β] [LinearOrder γ] (f : α → β) (g : α → γ) (a b : α) : Prop :=
  f a < f b ∨ f a = f b ∧ g a ≤ g b

section LexBy

variable [LinearOrder β] [LinearOrder γ] {f : α → β} {g : α → γ}

instance : DecidableRel (lexBy f g) := fun _ _ => inferInstanceAs (Decidable (_ ∨ _))

instance : Std.Total (lexBy f g) where
  total a b := by
    rcases lt_trichotomy (f a) (f b) with h | h | h
    · exact .inl (.inl h)
    · rcases le_total (g a) (g b) with hg | hg
      · exact .inl (.inr ⟨h, hg⟩)
      · exact .inr (.inr ⟨h.symm, hg⟩)
    · exact .inr (.inl h)

instance : IsTrans α (lexBy f g) where
  trans a b c := by
    rintro (hab | ⟨hab, hgab⟩) (hbc | ⟨hbc, hgbc⟩)
    · exact .inl (hab.trans hbc)
    · exact .inl (hbc ▸ hab)
    · exact .inl (hab ▸ hbc)
    · exact .inr ⟨hab.trans hbc, hgab.trans hgbc⟩

/-- Rows that come before each other agree in the second key. -/
theorem eq_of_lexBy {a b : α} (hab : lexBy f g a b) (hba : lexBy f g b a) : g a = g b := by
  rcases hab with hab | ⟨hab, hgab⟩
  · rcases hba with hba | ⟨hba, -⟩
    · exact absurd hab hba.asymm
    · exact absurd hab hba.le.not_gt
  · rcases hba with hba | ⟨-, hgba⟩
    · exact absurd hab.le hba.not_ge
    · exact le_antisymm hgab hgba

/-- The order says no more than how the keys compare. -/
theorem lexBy_iff_lexBy {δ ε ζ : Type*} [LinearOrder ε] [LinearOrder ζ] {f' : δ → ε} {g' : δ → ζ}
    {a b : α} {c d : δ} (hlt : f a < f b ↔ f' c < f' d) (hgt : f b < f a ↔ f' d < f' c)
    (hle : g a ≤ g b ↔ g' c ≤ g' d) : lexBy f g a b ↔ lexBy f' g' c d := by
  have heq : f a = f b ↔ f' c = f' d := by
    rw [le_antisymm_iff, le_antisymm_iff, ← not_lt, ← not_lt, ← not_lt, ← not_lt, hlt, hgt]
  unfold lexBy
  rw [hlt, heq, hle]

end LexBy

variable {l : List α}

section Sorts

variable {r : α → α → Prop} [DecidableRel r] [Std.Total r] [IsTrans α r]

/-- The members of the list are told apart by the order. -/
def Antisymm (r : α → α → Prop) (l : List α) : Prop := ∀ a ∈ l, ∀ b ∈ l, r a b → r b a → a = b

omit [DecidableRel r] [Std.Total r] [IsTrans α r] in
theorem Antisymm.filter (h : Antisymm r l) (p : α → Bool) : Antisymm r (l.filter p) :=
  fun a ha b hb => h a (List.mem_of_mem_filter ha) b (List.mem_of_mem_filter hb)

/-- A sort does not depend on the order the members come in. -/
theorem insertionSort_eq_of_perm {m : List α} (hanti : Antisymm r m) (hperm : l.Perm m) :
    l.insertionSort r = m.insertionSort r := by
  refine List.Perm.eq_of_pairwise ?_ (List.pairwise_insertionSort r l)
    (List.pairwise_insertionSort r m)
    (((List.perm_insertionSort r l).trans hperm).trans (List.perm_insertionSort r m).symm)
  intro a b ha hb
  have hmem : a ∈ m := hperm.mem_iff.mp ((List.mem_insertionSort r).mp ha)
  exact hanti a hmem b ((List.mem_insertionSort r).mp hb)

/-- Filtering before or after the sort is the same. -/
theorem filter_insertionSort (hanti : Antisymm r l) (p : α → Bool) :
    (l.insertionSort r).filter p = (l.filter p).insertionSort r := by
  have hsorted : ((l.insertionSort r).filter p).Pairwise r :=
    (List.pairwise_insertionSort r l).filter p
  refine List.Perm.eq_of_pairwise ?_ hsorted (List.pairwise_insertionSort r _)
    (((List.perm_insertionSort r l).filter p).trans (List.perm_insertionSort r _).symm)
  intro a b ha hb
  have hmem : a ∈ l := (List.mem_insertionSort r).mp (List.mem_of_mem_filter ha)
  exact hanti a hmem b (List.mem_of_mem_filter ((List.mem_insertionSort r).mp hb))

end Sorts

/-- **Selections through an encoding**: where filter and order of the codes are those of the
members, what is selected from the codes are the codes of what is selected. -/
theorem select_map {r : α → α → Prop} [DecidableRel r] {s : β → β → Prop} [DecidableRel s]
    {f : α → β} {p : α → Bool} {q : β → Bool} (hfilter : ∀ a ∈ l, q (f a) = p a)
    (horder : ∀ a ∈ l.filter p, ∀ b ∈ l.filter p, r a b ↔ s (f a) (f b)) :
    ((l.map f).filter q).insertionSort s = ((l.filter p).insertionSort r).map f := by
  have hfiltered : (l.map f).filter q = (l.filter p).map f := by
    rw [List.filter_map]
    exact congrArg (List.map f) (List.filter_congr hfilter)
  rw [hfiltered, List.map_insertionSort r s f _ horder]

end Sorting
