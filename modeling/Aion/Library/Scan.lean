import Mathlib.Data.List.Basic
import Mathlib.Data.Nat.Notation

/-!
# Scanning a list from its newest entry

A log is read newest first: the answer is that of the last entry the reader has an
answer for. `newest f l` is that scan; the lemmas say how it goes over appended
entries and split a log at the entry that answered. `fromLast p l` is what stands from
the last entry of a kind on.
-/

namespace Scan

variable {α β : Type*} {f : α → Option β}

/-- The answer of the last entry of `l` that `f` answers. -/
def newest (f : α → Option β) (l : List α) : Option β := l.reverse.findSome? f

@[simp]
theorem newest_nil : newest f [] = none := rfl

/-- Newer entries answer first. -/
theorem newest_append (l r : List α) : newest f (l ++ r) = (newest f r).or (newest f l) := by
  simp [newest, List.findSome?_append]

@[simp]
theorem newest_concat (l : List α) (a : α) : newest f (l ++ [a]) = (f a).or (newest f l) := by
  rw [newest_append]
  simp [newest]

theorem newest_cons (a : α) (l : List α) : newest f (a :: l) = (newest f l).or (f a) := by
  rw [← List.singleton_append, newest_append]
  simp [newest]

variable {before after l : List α}

theorem newest_eq_none_iff : newest f l = none ↔ ∀ a ∈ l, f a = none := by
  simp [newest]

/-- The scan splits the log at the entry that answered. -/
theorem newest_eq_some_iff {b : β} :
    newest f l = some b ↔
      ∃ before a after, l = before ++ a :: after ∧ f a = some b ∧ ∀ x ∈ after, f x = none := by
  rw [newest, List.findSome?_eq_some_iff]
  constructor
  · rintro ⟨after, a, before, hl, ha, hafter⟩
    refine ⟨before.reverse, a, after.reverse, ?_, ha, fun x hx => hafter x (List.mem_reverse.mp hx)⟩
    rw [← List.reverse_inj, hl]
    simp
  · rintro ⟨before, a, after, rfl, ha, hafter⟩
    exact ⟨after.reverse, a, before.reverse, by simp, ha, fun x hx => hafter x (List.mem_reverse.mp hx)⟩

/-- Of two entries of a log one stands behind the other, or they are the same. -/
theorem compare_splits {before' after' : List α} {a b : α}
    (h : before ++ a :: after = before' ++ b :: after') :
    (a = b ∧ after = after') ∨ b ∈ after ∨ a ∈ after' := by
  rcases List.append_eq_append_iff.mp h with ⟨extra, rfl, hextra⟩ | ⟨extra, rfl, hextra⟩
  · rcases extra with _ | ⟨first, extra⟩
    · exact .inl (List.cons.inj hextra)
    · obtain ⟨rfl, rfl⟩ := List.cons.inj hextra
      exact .inr (.inl (List.mem_append_right _ List.mem_cons_self))
  · rcases extra with _ | ⟨first, extra⟩
    · obtain ⟨rfl, rfl⟩ := List.cons.inj hextra
      exact .inl ⟨rfl, rfl⟩
    · obtain ⟨rfl, rfl⟩ := List.cons.inj hextra
      exact .inr (.inr (List.mem_append_right _ List.mem_cons_self))

/-- An entry that was not appended stands where it stood. -/
theorem split_of_notMem {log appended : List α} {a : α} (h : log ++ appended = before ++ a :: after)
    (ha : a ∉ appended) : ∃ rest, log = before ++ a :: rest := by
  rcases List.append_eq_append_iff.mp h with ⟨extra, rfl, rfl⟩ | ⟨extra, rfl, hextra⟩
  · exact absurd (List.mem_append_right _ List.mem_cons_self) ha
  · rcases extra with _ | ⟨first, rest⟩
    · rw [List.nil_append] at hextra
      exact absurd (hextra ▸ List.mem_cons_self) ha
    · obtain ⟨rfl, rfl⟩ := List.cons.inj hextra
      exact ⟨rest, rfl⟩

/-- A log splits before the first entry of a kind. -/
theorem exists_first_split (p : α → Bool) (l : List α) :
    ∃ before tail, l = before ++ tail ∧ (∀ a ∈ before, p a = false) ∧ ∀ a ∈ tail.head?, p a := by
  induction l with
  | nil => exact ⟨[], [], rfl, by simp, by simp⟩
  | cons a l ih =>
    by_cases ha : p a
    · exact ⟨[], a :: l, rfl, by simp, by simpa using ha⟩
    · obtain ⟨before, tail, rfl, hbef, htail⟩ := ih
      exact ⟨a :: before, tail, rfl, by simpa [ha] using hbef, htail⟩

/-- The position of the last entry of a kind. -/
def rposition (p : α → Bool) (l : List α) : Option ℕ :=
  (l.reverse.findIdx? p).map fun i => l.length - 1 - i

/-- The log from the last entry of a kind on; all of it when there is none. -/
def fromLast (p : α → Bool) (l : List α) : List α := l.drop ((rposition p l).getD 0)

theorem fromLast_concat (p : α → Bool) (l : List α) (a : α) :
    fromLast p (l ++ [a]) = if p a then [a] else fromLast p l ++ [a] := by
  by_cases ha : p a
  · simp [fromLast, rposition, List.findIdx?_cons, ha]
  · rw [if_neg ha]
    cases hfind : l.reverse.findIdx? p with
    | none => simp [fromLast, rposition, List.findIdx?_cons, ha, hfind]
    | some i =>
      have hi : i < l.length := by simpa using (List.findIdx?_eq_some_iff_getElem.mp hfind).1
      have hpos : rposition p (l ++ [a]) = some (l.length - 1 - i) := by
        simp only [rposition, List.reverse_append, List.reverse_singleton, List.singleton_append, List.findIdx?_cons, ha,
          Bool.false_eq_true, if_false, hfind, Option.map_some, List.length_append, List.length_singleton]
        congr 1
        omega
      rw [fromLast, fromLast, hpos, rposition, hfind]
      exact List.drop_append_of_le_length (by simp; omega)

end Scan
