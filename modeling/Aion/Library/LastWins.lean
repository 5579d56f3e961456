import Aion.Library.Scan
import Mathlib.Data.List.Induction

/-!
# A fold in which the last word counts

Some of what a fold keeps of a log is set by each entry that speaks of it and left alone by the
others. After the fold that is what the newest of these entries says (`read_foldl`), so two folds
with different containers agree wherever their readings are set by the same entries.

Entries that open a thing and close it again are such words: it is open at the end when it was
opened and never closed after that (`newest_eq_true_iff`).
-/

namespace Scan

variable {α σ γ : Type*} {step : σ → α → σ} {read : σ → γ} {word : α → Option γ} {inv : σ → Prop}

/-- The last word counts, in states that keep an invariant. -/
theorem read_foldl_of_invariant (hkeeps : ∀ s a, inv s → inv (step s a))
    (hstep : ∀ s a, inv s → read (step s a) = (word a).getD (read s)) (l : List α) {s : σ}
    (hinv : inv s) : read (l.foldl step s) = (newest word l).getD (read s) := by
  induction l generalizing s with
  | nil => rfl
  | cons a l ih =>
    rw [List.foldl_cons, ih (hkeeps s a hinv), hstep s a hinv, newest_cons]
    cases newest word l <;> rfl

/-- **The last word counts.** -/
theorem read_foldl (hstep : ∀ s a, read (step s a) = (word a).getD (read s)) (l : List α) (s : σ) :
    read (l.foldl step s) = (newest word l).getD (read s) :=
  @read_foldl_of_invariant _ _ _ step read word (fun _ => True) (fun _ _ _ => trivial)
    (fun s a _ => hstep s a) l s trivial

/-- What is last said to be open was opened at some entry and closed at none after it. -/
theorem newest_eq_true_iff {mark : α → Option Bool} {l : List α} :
    newest mark l = some true ↔
      ∃ before a after, l = before ++ a :: after ∧ mark a = some true ∧ ∀ x ∈ after,
        mark x ≠ some false := by
  constructor
  · intro h
    obtain ⟨before, a, after, hl, ha, hafter⟩ := newest_eq_some_iff.mp h
    refine ⟨before, a, after, hl, ha, fun x hx => ?_⟩
    rw [hafter x hx]
    simp
  · rintro ⟨before, a, after, rfl, ha, hafter⟩
    induction after using List.reverseRecOn with
    | nil => simp [ha]
    | append_singleton after x ih =>
      rw [← List.cons_append, ← List.append_assoc, newest_concat, ih fun y hy => hafter y (List.mem_append_left _ hy)]
      have hx := hafter x (List.mem_append_right _ List.mem_cons_self)
      cases hmark : mark x with
      | none => rfl
      | some isOpen =>
        rw [hmark] at hx
        cases isOpen
        · exact absurd rfl hx
        · rfl

end Scan
