import Mathlib.Data.Nat.Notation
import Mathlib.Logic.Function.Basic

/-!
# Pins that are checked after they are set

A holder reads a key, pins it, checks that the key is still there and is given it, and drops the pin
in the end. The table counts the pins of each key. In a table that is `Counted` a key that is held
has a pin (`Counted.pos_of_held`), so one who hides the key first and finds no pin afterwards takes
it from nobody.
-/

namespace Pins

variable {κ : Type*}

/-- How far a holder is. -/
inductive Holder (κ : Type*) where
  | read (key : κ)
  | pinned (key : κ)
  /-- The key was still there. -/
  | held (key : κ)
  /-- The key was gone. -/
  | refused (key : κ)
  | done
  deriving DecidableEq

/-- The pins of each key, and the holders. -/
structure Table (κ : Type*) where
  counts : κ → ℕ
  holders : List (Holder κ)

namespace Table

/-- No pins. -/
def empty : Table κ := ⟨fun _ => 0, []⟩

/-- The key is held. -/
def Held (table : Table κ) (key : κ) : Prop := .held key ∈ table.holders

variable [DecidableEq κ]

instance (table : Table κ) (key : κ) : Decidable (table.Held key) :=
  inferInstanceAs (Decidable (_ ∈ _))

/-- A new holder reads a key. -/
def read (table : Table κ) (key : κ) : Table κ :=
  { table with holders := table.holders ++ [.read key] }

/-- A holder pins the key it read. -/
def pin (table : Table κ) (i : ℕ) : Option (Table κ) :=
  match table.holders[i]? with
  | some (.read key) => some ⟨Function.update table.counts key (table.counts key + 1), table.holders.set i (.pinned key)⟩
  | _ => none

/-- A holder checks that the key it pinned is there. -/
def recheck (table : Table κ) (i : ℕ) (there : κ → Bool) : Option (Table κ) :=
  match table.holders[i]? with
  | some (.pinned key) =>
    some { table with holders := table.holders.set i (if there key then .held key else .refused key) }
  | _ => none

/-- A holder drops its pin. -/
def drop (table : Table κ) (i : ℕ) : Option (Table κ) :=
  match table.holders[i]? with
  | some (.held key) | some (.refused key) =>
    some ⟨Function.update table.counts key (table.counts key - 1), table.holders.set i .done⟩
  | _ => none

end Table

/-! ### Holders and counts -/

section Counts

variable {table table' : Table κ} {i : ℕ} {key : κ}

theorem Table.held_of_read {other : κ} (h : (table.read other).Held key) : table.Held key := by
  simpa [Table.read, Table.Held] using h

variable {there : κ → Bool} {next : Holder κ} {counts : κ → ℕ}

theorem Table.held_of_set (h : (⟨counts, table.holders.set i next⟩ : Table κ).Held key) :
    table.Held key ∨ .held key = next :=
  List.mem_or_eq_of_mem_set h

/-- A key that is given to a holder was there. -/
theorem Table.held_of_recheck (hrecheck : table.recheck i there = some table')
    (h : table'.Held key) : table.Held key ∨ there key = true := by
  unfold Table.recheck at hrecheck
  split at hrecheck
  · cases hrecheck
    refine (Table.held_of_set h).imp_right fun heq => ?_
    split at heq
    · rename_i hthere
      obtain rfl := Holder.held.inj heq
      exact hthere
    · cases heq
  · cases hrecheck

variable [DecidableEq κ]

/-- Whether a holder has a pin of a key. -/
def Holder.pins : Holder κ → κ → Bool
  | .pinned own, key | .held own, key | .refused own, key => own = key
  | .read _, _ | .done, _ => false

/-- Every pin is counted. -/
def Table.Counted (table : Table κ) : Prop :=
  ∀ key, table.counts key = table.holders.countP fun holder => holder.pins key

theorem Table.counted_empty : (Table.empty : Table κ).Counted := fun _ => rfl

theorem Table.Counted.pos_of_held (h : table.Counted) (hheld : table.Held key) :
    0 < table.counts key := by
  rw [h key]
  exact List.countP_pos_iff.mpr ⟨.held key, hheld, by simp [Holder.pins]⟩

/-- A holder goes on, and the counts with it. -/
theorem Table.Counted.set (h : table.Counted) {holder : Holder κ}
    (hholder : table.holders[i]? = some holder)
    (hcounts : ∀ key, counts key + (if holder.pins key then 1 else 0) =
        table.counts key + if next.pins key then 1 else 0) :
    (⟨counts, table.holders.set i next⟩ : Table κ).Counted := by
  intro key
  obtain ⟨hi, hget⟩ := List.getElem?_eq_some_iff.mp hholder
  change counts key = (table.holders.set i next).countP fun holder => holder.pins key
  have hcount := hcounts key
  rw [List.countP_set hi, hget, ← h key]
  by_cases hpins : holder.pins key = true
  · have hpos : 0 < table.counts key := by
      rw [h key]
      exact List.countP_pos_iff.mpr ⟨holder, hget ▸ List.getElem_mem hi, hpins⟩
    simp only [hpins, if_true] at hcount ⊢
    omega
  · simp only [hpins, Bool.false_eq_true, if_false] at hcount ⊢
    omega

theorem Table.Counted.read (h : table.Counted) (key : κ) : (table.read key).Counted := by
  intro other
  simp [Table.read, Holder.pins, h other]

theorem Table.Counted.pin (h : table.Counted) (hpin : table.pin i = some table') :
    table'.Counted := by
  unfold Table.pin at hpin
  split at hpin
  · rename_i key hholder
    cases hpin
    refine h.set hholder fun other => ?_
    by_cases hother : other = key
    · simp [Holder.pins, hother]
    · simp [Holder.pins, hother, Ne.symm hother]
  · cases hpin

theorem Table.Counted.recheck (h : table.Counted) (hrecheck : table.recheck i there = some table') :
    table'.Counted := by
  unfold Table.recheck at hrecheck
  split at hrecheck
  · rename_i key hholder
    cases hrecheck
    refine h.set hholder fun other => ?_
    by_cases hthere : there key = true <;> simp [hthere, Holder.pins]
  · cases hrecheck

theorem Table.Counted.drop (h : table.Counted) (hdrop : table.drop i = some table') :
    table'.Counted := by
  have hset : ∀ {holder : Holder κ} {key}, table.holders[i]? = some holder →
    (∀ other, holder.pins other = decide (key = other)) →
      (⟨Function.update table.counts key (table.counts key - 1), table.holders.set i .done⟩ : Table κ).Counted := by
    intro holder key hholder hpins
    refine h.set hholder fun other => ?_
    by_cases hother : key = other
    · subst hother
      have hpos : 0 < table.counts key := by
        rw [h key]
        exact List.countP_pos_iff.mpr ⟨holder, List.mem_of_getElem? hholder, by simp [hpins]⟩
      have hsub : table.counts key - 1 + 1 = table.counts key := Nat.sub_add_cancel hpos
      rw [Function.update_self, hpins key]
      simpa [Holder.pins] using hsub
    · rw [Function.update_of_ne (Ne.symm hother), hpins other]
      simp [Holder.pins, hother]
  unfold Table.drop at hdrop
  split at hdrop
  · rename_i key hholder
    cases hdrop
    exact hset hholder fun _ => rfl
  · rename_i key hholder
    cases hdrop
    exact hset hholder fun _ => rfl
  · cases hdrop

theorem Table.held_of_pin (hpin : table.pin i = some table') (h : table'.Held key) :
    table.Held key := by
  unfold Table.pin at hpin
  split at hpin
  · cases hpin
    exact (Table.held_of_set h).resolve_right (by simp)
  · cases hpin

theorem Table.held_of_drop (hdrop : table.drop i = some table') (h : table'.Held key) :
    table.Held key := by
  unfold Table.drop at hdrop
  split at hdrop
  · cases hdrop
    exact (Table.held_of_set h).resolve_right (by simp)
  · cases hdrop
    exact (Table.held_of_set h).resolve_right (by simp)
  · cases hdrop

end Counts

end Pins
