import Aion.Library.FiniteMaps
import Mathlib.Data.List.Rotate

/-!
# Indexes that hold copies

Under each of the keys of a record an index holds a copy of it, by the identifier the record has in
a table. A record enters under its keys one after the other (`enter`), leaves them again (`leave`),
or is rewritten wherever it is (`rewrite`). The last copy under a key takes the entry along, and
with it what hangs on the entry, as a cursor does.

`Mirrors` says that the copies are those of the table, and `Trim` that nothing is left over.

A cursor turns the list of the copies before it is handed out. As long as it goes up by one each
time, every element comes first in turn (`heads_of_turns`).
-/

namespace CopyIndex

open FiniteMaps

variable {κ ι α γ : Type} [DecidableEq κ] [DecidableEq ι]

/-- The copies under each key, by identifier. -/
abbrev Index (κ ι α : Type) : Type := Map κ (Map ι α)

/-- The copy under a key. -/
def find (index : Index κ ι α) (key : κ) (id : ι) : Option α :=
  (index.lookup key).bind fun copies => copies.lookup id

/-- Enters a record under a key. -/
def enter (id : ι) (record : α) (index : Index κ ι α) (key : κ) : Index κ ι α :=
  index.insert key (((index.lookup key).getD ∅).insert id record)

/-- Takes the copy from under a key, and the entry with the last copy. -/
def leave (id : ι) (maps : Index κ ι α × Map κ γ) (key : κ) : Index κ ι α × Map κ γ :=
  match maps.1.lookup key with
  | none => maps
  | some copies =>
    let left := copies.erase id
    if left.entries = [] then (maps.1.erase key, maps.2.erase key)
    else (maps.1.insert key left, maps.2)

/-- Rewrites the copy under a key. -/
def rewriteUnder (id : ι) (f : α → α) (index : Index κ ι α) (key : κ) : Index κ ι α :=
  match index.lookup key with
  | none => index
  | some copies =>
    match copies.lookup id with
    | none => index
    | some record => index.insert key (copies.insert id (f record))

/-- Rewrites every copy. -/
def rewrite (id : ι) (f : α → α) (index : Index κ ι α) : Index κ ι α :=
  index.keys.foldl (rewriteUnder id f) index

/-! ### What is found -/

variable {copies : Map ι α}

section Found

variable {index : Index κ ι α} {maps : Index κ ι α × Map κ γ} {id : ι} {record : α} {key : κ}
  {keys : List κ} {f : α → α}

theorem find_insert (copies : Map ι α) (k : κ) (i : ι) :
    find (index.insert key copies) k i = if k = key then copies.lookup i else find index k i := by
  unfold find
  rw [lookup_insert_eq]
  split_ifs <;> rfl

theorem find_of_lookup (h : index.lookup key = some copies) (i : ι) :
    find index key i = copies.lookup i := by
  rw [find, h]
  rfl

theorem find_of_lookup_none (h : index.lookup key = none) (i : ι) : find index key i = none := by
  rw [find, h]
  rfl

theorem find_enter (k : κ) (i : ι) :
    find (enter id record index key) k i = if k = key ∧ i = id then some record else
      find index k i := by
  rw [enter, find_insert, lookup_insert_eq]
  by_cases hk : k = key
  · subst hk
    simp only [if_true, true_and]
    split_ifs
    · rfl
    · rw [find]
      cases index.lookup k <;> rfl
  · simp [hk]

theorem find_enterAll (k : κ) (i : ι) :
    find (keys.foldl (enter id record) index) k i = if k ∈ keys ∧ i = id then some record else
      find index k i := by
  induction keys generalizing index with
  | nil => simp
  | cons first rest ih =>
    rw [List.foldl_cons, ih, find_enter]
    by_cases hrest : k ∈ rest ∧ i = id
    · rw [if_pos hrest, if_pos ⟨List.mem_cons_of_mem _ hrest.1, hrest.2⟩]
    · rw [if_neg hrest]
      refine if_congr ?_ rfl rfl
      rw [List.mem_cons]
      tauto

theorem find_leave (k : κ) (i : ι) :
    find (leave id maps key).1 k i = if k = key ∧ i = id then none else find maps.1 k i := by
  unfold leave
  cases hkey : maps.1.lookup key with
  | none =>
    split_ifs with h
    · rw [h.1, find_of_lookup_none hkey]
    · rfl
  | some copies =>
    have hleft : (if k = key then (copies.erase id).lookup i else find maps.1 k i) =
        if k = key ∧ i = id then none else find maps.1 k i := by
      by_cases hk : k = key
      · subst hk
        rw [if_pos rfl, lookup_erase_eq, find_of_lookup hkey]
        simp
      · simp [hk]
    by_cases hemp : (copies.erase id).entries = []
    · simp only [hemp, if_true]
      rw [← hleft, find, lookup_erase_eq]
      split_ifs
      · rw [AList.ext (t := ∅) hemp]
        rfl
      · rfl
    · simp only [hemp, if_false]
      rw [find_insert, hleft]

theorem find_leaveAll (k : κ) (i : ι) :
    find (keys.foldl (leave id) maps).1 k i = if k ∈ keys ∧ i = id then none else
      find maps.1 k i := by
  induction keys generalizing maps with
  | nil => simp
  | cons first rest ih =>
    rw [List.foldl_cons, ih, find_leave]
    by_cases hrest : k ∈ rest ∧ i = id
    · rw [if_pos hrest, if_pos ⟨List.mem_cons_of_mem _ hrest.1, hrest.2⟩]
    · rw [if_neg hrest]
      refine if_congr ?_ rfl rfl
      rw [List.mem_cons]
      tauto

theorem find_rewriteUnder (k : κ) (i : ι) :
    find (rewriteUnder id f index key) k i = if k = key ∧ i = id then (find index k i).map f else
      find index k i := by
  unfold rewriteUnder
  cases hkey : index.lookup key with
  | none =>
    split_ifs with h
    · rw [h.1, find_of_lookup_none hkey]
      rfl
    · rfl
  | some copies =>
    cases hid : copies.lookup id with
    | none =>
      simp only [hid]
      split_ifs with h
      · rw [h.1, h.2, find_of_lookup hkey, hid]
        rfl
      · rfl
    | some record =>
      simp only [hid]
      rw [find_insert, lookup_insert_eq]
      by_cases hk : k = key
      · subst hk
        rw [find_of_lookup hkey]
        by_cases hi : i = id
        · subst hi
          simp [hid]
        · simp [hi]
      · simp [hk]

theorem find_rewriteUnders (hnd : keys.Nodup) (k : κ) (i : ι) :
    find (keys.foldl (rewriteUnder id f) index) k i = if k ∈ keys ∧ i = id then
      (find index k i).map f else find index k i := by
  induction keys generalizing index with
  | nil => simp
  | cons first rest ih =>
    obtain ⟨hfst, hrest⟩ := List.nodup_cons.mp hnd
    rw [List.foldl_cons, ih hrest, find_rewriteUnder]
    by_cases hk : k = first
    · subst hk
      simp [hfst]
    · simp [hk]

theorem find_rewrite (k : κ) (i : ι) :
    find (rewrite id f index) k i = if i = id then (find index k i).map f else find index k i := by
  rw [rewrite, find_rewriteUnders index.keys_nodup]
  by_cases hk : k ∈ index.keys
  · simp [hk]
  · have hnone : find index k i = none := find_of_lookup_none (AList.lookup_eq_none.mpr hk) i
    simp [hk, hnone]

end Found

/-! ### Copies of a table -/

/-- The copies are those of the records of the table, each under the keys of its record. -/
def Mirrors (keys : α → List κ) (table : Map ι α) (index : Index κ ι α) : Prop :=
  ∀ key id record, find index key id = some record ↔ table.lookup id = some record ∧
    key ∈ keys record

section Mirrors

variable {keys : α → List κ} {table : Map ι α} {index : Index κ ι α} {id : ι} {record : α}

theorem mirrors_empty : Mirrors keys (∅ : Map ι α) ∅ := by
  intro key id record
  simp [find]

theorem Mirrors.enter (h : Mirrors keys table index) (hfresh : table.lookup id = none) :
    Mirrors keys (table.insert id record) ((keys record).foldl (enter id record) index) := by
  intro key i other
  rw [find_enterAll, lookup_insert_eq]
  by_cases hi : i = id
  · subst hi
    rw [if_pos rfl, Option.some_inj]
    split_ifs with hkey
    · rw [Option.some_inj]
      constructor
      · rintro rfl
        exact ⟨rfl, hkey.1⟩
      · exact And.left
    · rw [h key i other, hfresh]
      constructor
      · rintro ⟨hnone, -⟩
        cases hnone
      · rintro ⟨rfl, hmem⟩
        exact absurd ⟨hmem, rfl⟩ hkey
  · rw [if_neg (fun hkey => hi hkey.2), if_neg hi]
    exact h key i other

theorem Mirrors.leave (h : Mirrors keys table index) (hrec : table.lookup id = some record)
    (hung : Map κ γ) :
    Mirrors keys (table.erase id) ((keys record).foldl (leave id) (index, hung)).1 := by
  intro key i other
  rw [find_leaveAll, lookup_erase_eq]
  by_cases hi : i = id
  · subst hi
    have hgone : (if key ∈ keys record ∧ i = i then none else find index key i) ≠ some other := by
      split_ifs with hkey
      · exact nofun
      · intro hfd
        obtain ⟨hother, hmem⟩ := (h key i other).mp hfd
        rw [hrec, Option.some_inj] at hother
        exact hkey ⟨hother ▸ hmem, rfl⟩
    rw [if_pos rfl]
    refine iff_of_false hgone ?_
    rintro ⟨hnone, -⟩
    cases hnone
  · rw [if_neg (fun hkey => hi hkey.2), if_neg hi]
    exact h key i other

theorem Mirrors.rewrite (h : Mirrors keys table index) (hrec : table.lookup id = some record)
    {f : α → α} (keeps : keys (f record) = keys record) :
    Mirrors keys (table.insert id (f record)) (rewrite id f index) := by
  intro key i other
  rw [find_rewrite, lookup_insert_eq]
  split_ifs with hi
  · subst hi
    rw [Option.map_eq_some_iff, Option.some_inj]
    constructor
    · rintro ⟨found, hfd, rfl⟩
      obtain ⟨hfd, hmem⟩ := (h key i found).mp hfd
      obtain rfl : record = found := Option.some.inj (hrec.symm.trans hfd)
      exact ⟨rfl, keeps ▸ hmem⟩
    · rintro ⟨rfl, hmem⟩
      exact ⟨record, (h key i record).mpr ⟨hrec, keeps ▸ hmem⟩, rfl⟩
  · exact h key i other

end Mirrors

/-! ### Nothing left over -/

/-- Under every key with an entry there is a copy, and what hangs on a key hangs on an entry. -/
structure Trim (maps : Index κ ι α × Map κ γ) : Prop where
  filled : ∀ key copies, maps.1.lookup key = some copies → copies.entries ≠ []
  hung : ∀ key, key ∈ maps.2 → key ∈ maps.1

section Trim

variable {index : Index κ ι α} {hung : Map κ γ} {maps : Index κ ι α × Map κ γ} {id : ι} {record : α}
  {key k : κ} {keys : List κ}
  {f : α → α}

omit [DecidableEq ι] in
theorem trim_empty : Trim ((∅, ∅) : Index κ ι α × Map κ γ) where
  filled key copies h := by cases h
  hung key h := absurd h (AList.notMem_empty key)

theorem entries_insert_ne_nil (copies : Map ι α) : (copies.insert id record).entries ≠ [] := by
  rw [AList.entries_insert]
  exact List.cons_ne_nil _ _

omit [DecidableEq ι] in
/-- A new entry with a copy leaves nothing over. -/
theorem Trim.insert (h : Trim (index, hung)) (hfilled : copies.entries ≠ []) :
    Trim (index.insert key copies, hung) where
  filled k other hother := by
    rw [lookup_insert_eq] at hother
    split_ifs at hother
    · cases hother
      exact hfilled
    · exact h.filled k other hother
  hung k hk := (AList.mem_insert _).mpr (.inr (h.hung k hk))

theorem Trim.enterAll (h : Trim (index, hung)) :
    Trim (keys.foldl (enter id record) index, hung) := by
  induction keys generalizing index with
  | nil => exact h
  | cons first rest ih => exact ih (h.insert (entries_insert_ne_nil _))

theorem Trim.leave (h : Trim maps) : Trim (leave id maps key) := by
  unfold CopyIndex.leave
  cases hkey : maps.1.lookup key with
  | none => exact h
  | some copies =>
    by_cases hemp : (copies.erase id).entries = []
    · simp only [hemp, if_true]
      refine ⟨fun k other hother => ?_, fun k hk => ?_⟩
      · rw [lookup_erase_eq] at hother
        split_ifs at hother
        exact h.filled k other hother
      · obtain ⟨hne, hk⟩ := AList.mem_erase.mp hk
        exact AList.mem_erase.mpr ⟨hne, h.hung k hk⟩
    · simp only [hemp, if_false]
      exact Trim.insert h hemp

theorem Trim.leaveAll (h : Trim maps) : Trim (keys.foldl (CopyIndex.leave id) maps) := by
  induction keys generalizing maps with
  | nil => exact h
  | cons first rest ih => exact ih h.leave

theorem Trim.rewriteUnder (h : Trim (index, hung)) : Trim (rewriteUnder id f index key, hung) := by
  unfold CopyIndex.rewriteUnder
  cases hkey : index.lookup key with
  | none => exact h
  | some copies =>
    cases hid : copies.lookup id with
    | none => simpa only [hid] using h
    | some found =>
      simp only [hid]
      exact h.insert (entries_insert_ne_nil _)

theorem Trim.rewrite (h : Trim (index, hung)) : Trim (rewrite id f index, hung) := by
  suffices hall : ∀ keys : List κ, Trim (keys.foldl (CopyIndex.rewriteUnder id f) index,
      hung) from hall _
  intro keys
  induction keys generalizing index with
  | nil => exact h
  | cons first rest ih => exact ih h.rewriteUnder

omit [DecidableEq ι] in
/-- Something may hang on a key that has an entry. -/
theorem Trim.hang (h : Trim (index, hung)) (hkey : key ∈ index) (value : γ) :
    Trim (index, hung.insert key value) where
  filled := h.filled
  hung k hk := by
    rcases (AList.mem_insert _).mp hk with rfl | hk
    · exact hkey
    · exact h.hung k hk

/-- An entry that is there after a record has left was there before, and what hangs on it too. -/
theorem lookup_leave (hk : k ∈ (leave id maps key).1) :
    k ∈ maps.1 ∧ (leave id maps key).2.lookup k = maps.2.lookup k := by
  unfold leave at hk ⊢
  cases hkey : maps.1.lookup key with
  | none => simpa only [hkey, and_true] using hk
  | some copies =>
    simp only [hkey] at hk ⊢
    by_cases hemp : (copies.erase id).entries = []
    · simp only [hemp, if_true] at hk ⊢
      obtain ⟨hne, hk⟩ := AList.mem_erase.mp hk
      exact ⟨hk, AList.lookup_erase_ne hne⟩
    · simp only [hemp, if_false] at hk ⊢
      refine ⟨?_, trivial⟩
      rcases (AList.mem_insert _).mp hk with rfl | hk
      · exact AList.lookup_isSome.mp (by rw [hkey]; rfl)
      · exact hk

theorem lookup_leaveAll (hk : k ∈ (keys.foldl (leave id) maps).1) :
    k ∈ maps.1 ∧ (keys.foldl (leave id) maps).2.lookup k = maps.2.lookup k := by
  induction keys generalizing maps with
  | nil => exact ⟨hk, rfl⟩
  | cons first rest ih =>
    obtain ⟨hk', hrest⟩ := ih hk
    obtain ⟨hk', hfst⟩ := lookup_leave hk'
    exact ⟨hk', hrest.trans hfst⟩

theorem mem_of_find (h : find index key id = some record) : key ∈ index := by
  rw [← AList.lookup_isSome, Option.isSome_iff_ne_none]
  intro hnone
  rw [find_of_lookup_none hnone] at h
  cases h

end Trim

/-! ### Turns -/

section Turns

variable {l : List α}

/-- The lists turned further and further start with the elements in turn. -/
theorem heads_of_turns (l : List α) (c : ℕ) :
    (List.range l.length).map (fun i => (l.rotate (c + i)).head?) = (l.rotate c).map some := by
  apply List.ext_getElem
  · simp
  · intro i hi hi'
    have hlt : i < l.length := by simpa using hi
    have hpos : 0 < l.length := by omega
    simp only [List.getElem_map, List.getElem_range]
    rw [List.head?_eq_getElem?, List.getElem?_rotate hpos, List.getElem_rotate, Nat.zero_add,
      Nat.add_comm c i,
      List.getElem?_eq_getElem (Nat.mod_lt _ hpos)]

/-- A cursor that is taken up again at its bound, as far as it does not get there or the bound is a
number of whole rounds, turns a list as far as one without a bound. -/
theorem rotate_mod_add {bound c m i : ℕ} (h : c + m ≤ bound ∨ l.length ∣ bound) (hi : i < m) :
    l.rotate (c % bound + i) = l.rotate (c + i) := by
  rcases h with hbelow | hdvd
  · rw [Nat.mod_eq_of_lt (by omega)]
  · rw [← List.rotate_mod, ← List.rotate_mod l (c + i), Nat.add_mod, Nat.mod_mod_of_dvd _ hdvd,
      ← Nat.add_mod]

end Turns

end CopyIndex
