import Mathlib.Data.List.AList

/-!
# Finite maps by what they look up

Bulk updates of association lists, each with what is looked up after it. Two maps that look up the
same are the same map (`SameLookups`).
-/

namespace FiniteMaps

variable {κ β ι : Type*} [DecidableEq κ]

/-- A finite map. -/
abbrev Map (κ β : Type*) := AList fun _ : κ => β

variable {m m' : Map κ β} {k : κ}

/-- They look up the same. -/
def SameLookups (m m' : Map κ β) : Prop := ∀ k, m.lookup k = m'.lookup k

theorem SameLookups.refl (m : Map κ β) : SameLookups m m := fun _ => rfl

theorem SameLookups.symm (h : SameLookups m m') : SameLookups m' m := fun k => (h k).symm

theorem SameLookups.trans {m'' : Map κ β} (h : SameLookups m m') (h' : SameLookups m' m'') :
    SameLookups m m'' :=
  fun k => (h k).trans (h' k)

theorem lookup_insert_eq (k' : κ) (v : β) :
    (m.insert k' v).lookup k = if k = k' then some v else m.lookup k := by
  split
  · rename_i h
    rw [h, AList.lookup_insert]
  · rename_i h
    exact AList.lookup_insert_ne h

theorem lookup_erase_eq (k' : κ) : (m.erase k').lookup k = if k = k' then none else m.lookup k := by
  split
  · rename_i h
    rw [h, AList.lookup_erase]
  · rename_i h
    exact AList.lookup_erase_ne h

/-! ### Many keys -/

/-- Inserts a value for each of these. -/
def insertAll (m : Map κ β) (items : List ι) (key : ι → κ) (value : ι → β) : Map κ β :=
  items.foldl (fun m item => m.insert (key item) (value item)) m

/-- Inserts a value for each of these keys that has none. -/
def insertAbsent (m : Map κ β) (keys : List κ) (v : β) : Map κ β :=
  keys.foldl (fun m k => if (m.lookup k).isSome then m else m.insert k v) m

/-- Removes these keys. -/
def eraseAll (m : Map κ β) (keys : List κ) : Map κ β := keys.foldl (fun m k => m.erase k) m

variable {items : List ι} {key : ι → κ} {value : ι → β} {keys : List κ} {v w : β}

theorem lookup_insertAll_of_notMem (h : ∀ item ∈ items, key item ≠ k) :
    (insertAll m items key value).lookup k = m.lookup k := by
  induction items generalizing m with
  | nil => rfl
  | cons item items ih =>
    obtain ⟨hitem, hitems⟩ := List.forall_mem_cons.mp h
    exact (ih hitems).trans (AList.lookup_insert_ne (Ne.symm hitem))

/-- Of items with different keys, each is found. -/
theorem lookup_insertAll_of_mem (hnd : (items.map key).Nodup) {item : ι} (hitem : item ∈ items) :
    (insertAll m items key value).lookup (key item) = some (value item) := by
  induction items generalizing m with
  | nil => cases hitem
  | cons first rest ih =>
    obtain ⟨hfst, hrest⟩ := List.nodup_cons.mp hnd
    rcases List.mem_cons.mp hitem with rfl | hitem
    · have hlast : ∀ other ∈ rest, key other ≠ key item := fun other hother heq =>
        hfst (List.mem_map.mpr ⟨other, hother, heq⟩)
      exact (lookup_insertAll_of_notMem hlast).trans (AList.lookup_insert m)
    · exact ih hrest hitem

/-- One value for all. -/
theorem lookup_insertAll_const_iff :
    (insertAll m items key fun _ => v).lookup k = some w ↔
      k ∈ items.map key ∧ w = v ∨ k ∉ items.map key ∧ m.lookup k = some w := by
  induction items generalizing m with
  | nil => simp [insertAll]
  | cons item items ih =>
    refine ih.trans ?_
    rw [lookup_insert_eq, List.map_cons, List.mem_cons]
    by_cases hkey : k = key item
    · simp only [hkey, if_true, Option.some_inj, true_or, true_and, not_true, false_and, or_false, eq_comm (a := v)]
      tauto
    · simp only [hkey, if_false, false_or]

theorem isSome_lookup_insertAll :
    ((insertAll m items key value).lookup k).isSome ↔ k ∈ items.map key ∨ (m.lookup k).isSome := by
  induction items generalizing m with
  | nil => simp [insertAll]
  | cons item items ih =>
    refine ih.trans ?_
    rw [lookup_insert_eq, List.map_cons, List.mem_cons]
    by_cases hkey : k = key item
    · simp [hkey]
    · simp [hkey]

/-- Items that the map has already, put in where they are gone. -/
theorem SameLookups.insertAll (hitems : ∀ item ∈ items, m.lookup (key item) = some (value item))
    (hrest : ∀ k, k ∉ items.map key → m'.lookup k = m.lookup k) :
    SameLookups (insertAll m' items key value) m := by
  induction items generalizing m' with
  | nil => exact fun k => hrest k List.not_mem_nil
  | cons item items ih =>
    obtain ⟨hitem, hitems⟩ := List.forall_mem_cons.mp hitems
    refine ih hitems fun k hk => ?_
    rw [lookup_insert_eq]
    split
    · rename_i heq
      rw [heq, hitem]
    · rename_i hne
      exact hrest k (by simp [hne, hk])

theorem lookup_insertAbsent_iff :
    (insertAbsent m keys v).lookup k = some w ↔ m.lookup k = some w ∨ m.lookup k = none ∧
      k ∈ keys ∧ w = v := by
  induction keys generalizing m with
  | nil => simp [insertAbsent]
  | cons first rest ih =>
    refine (ih (m := if (m.lookup first).isSome then m else m.insert first v)).trans ?_
    by_cases hsome : (m.lookup first).isSome = true
    · rw [if_pos hsome, List.mem_cons]
      have hkey : m.lookup k = none → k ≠ first := by
        rintro hnone rfl
        simp [hnone] at hsome
      tauto
    · rw [if_neg hsome, lookup_insert_eq, List.mem_cons]
      by_cases hkey : k = first
      · subst hkey
        simp [Option.not_isSome_iff_eq_none.mp hsome, eq_comm]
      · simp [hkey]

theorem isSome_lookup_insertAbsent :
    ((insertAbsent m keys v).lookup k).isSome ↔ (m.lookup k).isSome ∨ k ∈ keys := by
  simp only [Option.isSome_iff_exists, lookup_insertAbsent_iff]
  cases m.lookup k <;> simp

theorem lookup_eraseAll_iff :
    (eraseAll m keys).lookup k = some w ↔ k ∉ keys ∧ m.lookup k = some w := by
  induction keys generalizing m with
  | nil => simp [eraseAll]
  | cons first rest ih =>
    refine ih.trans ?_
    rw [lookup_erase_eq, List.mem_cons]
    by_cases hkey : k = first <;> simp [hkey]

theorem lookup_eraseAll_of_notMem (h : k ∉ keys) : (eraseAll m keys).lookup k = m.lookup k :=
  Option.ext fun _ => lookup_eraseAll_iff.trans (and_iff_right h)

end FiniteMaps
