import Mathlib.Data.List.Pairwise
import Mathlib.Order.Defs.LinearOrder
import Mathlib.Order.Basic
import Mathlib.Order.Lattice

/-!
# Ordered maps

A map whose entries stand in ascending order of their keys, each key once. Inserting a key
puts it in its place or replaces its value; inserting ascending keys one after the other
appends them (`entries_insert_of_lt`), so the map is what its own entries collect to
(`collect_entries`).
-/

/-- Entries in ascending order of their keys. -/
structure OrderedMap (κ α : Type*) [LinearOrder κ] where
  /-- The entries. -/
  entries : List (κ × α)
  /-- Every key is below the keys after it. -/
  ascending : entries.Pairwise fun a b => a.1 < b.1

namespace OrderedMap

variable {κ α : Type*} [LinearOrder κ]

variable {m : OrderedMap κ α} {entries : List (κ × α)} {entry : κ × α} {key : κ} {value : α}

@[ext]
theorem ext {n : OrderedMap κ α} (h : m.entries = n.entries) : m = n := by
  cases m
  cases n
  cases h
  rfl

instance [DecidableEq α] : DecidableEq (OrderedMap κ α) :=
  fun _ _ => decidable_of_iff _ OrderedMap.ext_iff.symm

/-- The map without entries. -/
def empty : OrderedMap κ α := ⟨[], .nil⟩

/-- The value of a key. -/
def lookup (m : OrderedMap κ α) (key : κ) : Option α := m.entries.lookup key

/-- The entries with the value of one key set. -/
def insertEntry (key : κ) (value : α) : List (κ × α) → List (κ × α)
  | [] => [(key, value)]
  | entry :: rest =>
    if key < entry.1 then (key, value) :: entry :: rest
    else if key = entry.1 then (key, value) :: rest
    else entry :: insertEntry key value rest

theorem mem_insertEntry
    (h : entry ∈ insertEntry key value entries) : entry = (key, value) ∨ entry ∈ entries := by
  induction entries with
  | nil => exact .inl (List.mem_singleton.mp h)
  | cons first rest ih =>
    rw [insertEntry] at h
    split_ifs at h
    · exact List.mem_cons.mp h
    · exact (List.mem_cons.mp h).imp_right (List.mem_cons_of_mem first)
    · rcases List.mem_cons.mp h with rfl | h
      · exact .inr List.mem_cons_self
      · exact (ih h).imp_right (List.mem_cons_of_mem first)

theorem ascending_insertEntry (key : κ) (value : α) (h : entries.Pairwise fun a b => a.1 < b.1) :
    (insertEntry key value entries).Pairwise fun a b => a.1 < b.1 := by
  induction entries with
  | nil => exact List.pairwise_singleton _ _
  | cons first rest ih =>
    obtain ⟨hfst, hrest⟩ := List.pairwise_cons.mp h
    rw [insertEntry]
    split_ifs with hlt heq
    · refine List.pairwise_cons.mpr ⟨fun entry hent => ?_, h⟩
      rcases List.mem_cons.mp hent with rfl | hent
      · exact hlt
      · exact hlt.trans (hfst entry hent)
    · subst heq
      exact List.pairwise_cons.mpr ⟨hfst, hrest⟩
    · refine List.pairwise_cons.mpr ⟨fun entry hent => ?_, ih hrest⟩
      rcases mem_insertEntry hent with rfl | hent
      · exact lt_of_le_of_ne (not_lt.mp hlt) (Ne.symm heq)
      · exact hfst entry hent

/-- The map with the value of one key set. -/
def insert (m : OrderedMap κ α) (key : κ) (value : α) : OrderedMap κ α :=
  ⟨insertEntry key value m.entries, ascending_insertEntry key value m.ascending⟩

/-- The map of the entries, the last of one key standing. -/
def collect (entries : List (κ × α)) : OrderedMap κ α :=
  entries.foldl (fun m entry => m.insert entry.1 entry.2) empty

theorem insertEntry_of_lt (h : ∀ entry ∈ entries, entry.1 < key) :
    insertEntry key value entries = entries ++ [(key, value)] := by
  induction entries with
  | nil => rfl
  | cons first rest ih =>
    obtain ⟨hfst, hrest⟩ := List.forall_mem_cons.mp h
    rw [insertEntry, if_neg hfst.asymm, if_neg hfst.ne', ih hrest, List.cons_append]

/-- A key above all others is put at the end. -/
theorem entries_insert_of_lt (value : α) (h : ∀ entry ∈ m.entries, entry.1 < key) :
    (m.insert key value).entries = m.entries ++ [(key, value)] :=
  insertEntry_of_lt h

theorem lookup_eq_none_of_lt (h : ∀ entry ∈ m.entries, entry.1 < key) : m.lookup key = none := by
  refine List.lookup_eq_none_iff.mpr fun entry hent => ?_
  simpa using (h entry hent).ne'

/-! ### Single entries -/

/-- A key stands in the map once. -/
theorem eq_of_mem {entry' : κ × α} (h : entry ∈ m.entries) (h' : entry' ∈ m.entries)
    (hkey : entry.1 = entry'.1) : entry = entry' := by
  have hlt := List.Pairwise.forall_of_forall_of_flip (R := fun a b : κ × α => a.1 = b.1 → a = b) (fun _ _ _ => rfl)
    (m.ascending.imp fun hlt heq => absurd heq hlt.ne) (m.ascending.imp fun hlt heq => absurd heq hlt.ne')
  exact hlt h h' hkey

theorem mem_insertEntry_self (key : κ) (value : α) (entries : List (κ × α)) :
    (key, value) ∈ insertEntry key value entries := by
  induction entries with
  | nil => simp [insertEntry]
  | cons first rest ih =>
    rw [insertEntry]
    split_ifs <;> simp [ih]

theorem mem_insertEntry_of_ne (value : α) (h : entry ∈ entries)
    (hkey : entry.1 ≠ key) : entry ∈ insertEntry key value entries := by
  induction entries with
  | nil => cases h
  | cons first rest ih =>
    rw [insertEntry]
    rcases List.mem_cons.mp h with rfl | h
    · split_ifs with hlt heq
      · simp
      · exact absurd heq.symm hkey
      · simp
    · split_ifs <;> simp [h, ih]

theorem mem_insert :
    entry ∈ (m.insert key value).entries ↔ entry = (key, value) ∨ entry ∈ m.entries ∧
      entry.1 ≠ key := by
  constructor
  · intro h
    by_cases hkey : entry.1 = key
    · exact .inl (eq_of_mem h (mem_insertEntry_self key value m.entries) hkey)
    · exact (mem_insertEntry h).imp_right fun h => ⟨h, hkey⟩
  · rintro (rfl | ⟨h, hkey⟩)
    · exact mem_insertEntry_self key value m.entries
    · exact mem_insertEntry_of_ne value h hkey

/-- The map without a key. -/
def erase (m : OrderedMap κ α) (key : κ) : OrderedMap κ α :=
  ⟨m.entries.filter fun entry => entry.1 ≠ key, m.ascending.filter _⟩

theorem mem_erase : entry ∈ (m.erase key).entries ↔ entry ∈ m.entries ∧ entry.1 ≠ key := by
  simp [erase]

/-- The entry with the least key. -/
def first (m : OrderedMap κ α) : Option (κ × α) := m.entries.head?

/-- Without its least key, a map has the other entries. -/
theorem entries_erase_first {rest : List (κ × α)} (h : m.entries = entry :: rest) :
    (m.erase entry.1).entries = rest := by
  have hrest : ∀ other ∈ rest, entry.1 < other.1 := (List.pairwise_cons.mp (h ▸ m.ascending)).1
  show m.entries.filter _ = rest
  rw [h, List.filter_cons_of_neg (by simp)]
  exact List.filter_eq_self.mpr fun other hother => decide_eq_true (hrest other hother).ne'

/-! ### Collecting -/

/-- Ascending entries are inserted one after the other. -/
theorem foldl_insert (h : (m.entries ++ entries).Pairwise fun a b => a.1 < b.1) :
    (entries.foldl (fun m entry => m.insert entry.1 entry.2) m).entries = m.entries ++ entries := by
  induction entries generalizing m with
  | nil => exact (List.append_nil _).symm
  | cons entry rest ih =>
    have hinsert : (m.insert entry.1 entry.2).entries = m.entries ++ [entry] := by
      refine entries_insert_of_lt entry.2 fun before hbef => ?_
      exact (List.pairwise_append.mp h).2.2 before hbef entry List.mem_cons_self
    have hspl : m.entries ++ entry :: rest = (m.insert entry.1 entry.2).entries ++ rest := by
      rw [hinsert, List.append_assoc, List.singleton_append]
    rw [List.foldl_cons, ih (hspl ▸ h), hspl]

/-- A map is what its entries collect to. -/
theorem collect_entries (m : OrderedMap κ α) : collect m.entries = m :=
  ext (foldl_insert m.ascending)

end OrderedMap
