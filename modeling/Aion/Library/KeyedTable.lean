import Mathlib.Data.List.Nodup
import Mathlib.Data.List.Perm.Basic

/-!
# Tables with a key

A table is a list of rows with distinct keys. It changes the way a table with a primary
key does: a row is added when its key is new (`insertIfAbsent`), some rows are rewritten
in place (`modify`), or one of the two depending on the key (`upsert`). What a change does
is said by what it leaves at each key (`lookup_insertIfAbsent`, `lookup_modify`,
`lookup_upsert`); by these rules no proof about a table looks at the list itself.

A table whose rows are the codes of another's, in the same order (`Encodes`), stays one
through every change that does the same to the codes.
-/

/-- A list of rows with distinct keys. -/
structure KeyedTable {κ α : Type*} (key : α → κ) where
  /-- The rows, in the order they were added. -/
  rows : List α
  /-- No key is there twice. -/
  unique : (rows.map key).Nodup

namespace KeyedTable

variable {κ α : Type*} {key : α → κ}

/-- No rows. -/
def empty : KeyedTable key := ⟨[], List.nodup_nil⟩

/-- Rewrites the rows that satisfy `p`; `f` keeps the key. -/
def modify (table : KeyedTable key) (p : α → Bool) (f : α → α)
    (keeps : ∀ row, key (f row) = key row) : KeyedTable key where
  rows := table.rows.map fun row => if p row then f row else row
  unique := by
    have hkeys : (table.rows.map fun row => if p row then f row else row).map key = table.rows.map key := by
      rw [List.map_map]
      refine List.map_congr_left fun row _ => ?_
      change key (if p row then f row else row) = key row
      split
      · exact keeps row
      · rfl
    rw [hkeys]
    exact table.unique

theorem nodup_rows (table : KeyedTable key) : table.rows.Nodup := List.Nodup.of_map key table.unique

theorem eq_of_key_eq {table : KeyedTable key} {row row' : α} (h : row ∈ table.rows)
    (h' : row' ∈ table.rows) (hkey : key row = key row') : row = row' :=
  List.inj_on_of_nodup_map table.unique h h' hkey

theorem eq_of_rows_eq {table table' : KeyedTable key} (h : table.rows = table'.rows) :
    table = table' := by
  cases table
  cases table'
  cases h
  rfl

/-- Two rewrites that do the same to every row that is there are one. -/
theorem modify_congr {table : KeyedTable key} {p q : α → Bool} {f g : α → α}
    {keeps : ∀ row, key (f row) = key row} {keeps' : ∀ row, key (g row) = key row}
    (h : ∀ row ∈ table.rows, (if p row then f row else row) = if q row then g row else row) :
    table.modify p f keeps = table.modify q g keeps' :=
  eq_of_rows_eq (List.map_congr_left h)

theorem modify_eq_self {table : KeyedTable key} {p : α → Bool} {f : α → α}
    {keeps : ∀ row, key (f row) = key row} (h : ∀ row ∈ table.rows, p row = false) :
    table.modify p f keeps = table := by
  refine eq_of_rows_eq ?_
  change table.rows.map _ = _
  rw [List.map_congr_left (g := id) fun row hrow => by simp [h row hrow], List.map_id]

variable [DecidableEq κ]

/-- The row with a key. -/
def lookup (table : KeyedTable key) (k : κ) : Option α := table.rows.find? fun row => key row = k

variable {k : κ}

theorem lookup_eq_some_iff {table : KeyedTable key} {row : α} :
    table.lookup k = some row ↔ row ∈ table.rows ∧ key row = k := by
  constructor
  · intro h
    exact ⟨List.mem_of_find?_eq_some h, by simpa using List.find?_some h⟩
  · rintro ⟨hmem, rfl⟩
    obtain ⟨found, hfd⟩ : ∃ found, table.lookup (key row) = some found := by
      rw [← Option.isSome_iff_exists, lookup, List.find?_isSome]
      exact ⟨row, hmem, by simp⟩
    have hkey : key found = key row := by simpa using List.find?_some hfd
    rw [hfd, List.inj_on_of_nodup_map table.unique (List.mem_of_find?_eq_some hfd) hmem hkey]

theorem lookup_eq_none_iff {table : KeyedTable key} :
    table.lookup k = none ↔ ∀ row ∈ table.rows, key row ≠ k := by
  simp [lookup]

/-- A row is what its key finds. -/
theorem lookup_of_mem {table : KeyedTable key} {row : α} (h : row ∈ table.rows) :
    table.lookup (key row) = some row :=
  lookup_eq_some_iff.mpr ⟨h, rfl⟩

theorem key_of_lookup {table : KeyedTable key} {row : α} (h : table.lookup k = some row) :
    key row = k :=
  (lookup_eq_some_iff.mp h).2

theorem mem_rows_iff {table : KeyedTable key} {row : α} :
    row ∈ table.rows ↔ table.lookup (key row) = some row := by
  rw [lookup_eq_some_iff, and_iff_left rfl]

/-- The rows are determined, up to their order, by what the keys find. -/
theorem rows_perm {table : KeyedTable key} {rows : List α} (hnd : rows.Nodup)
    (h : ∀ row, row ∈ rows ↔ table.lookup (key row) = some row) : table.rows.Perm rows := by
  rw [List.perm_ext_iff_of_nodup table.nodup_rows hnd]
  intro row
  rw [h, mem_rows_iff]

theorem lookup_eq_of_perm {table table' : KeyedTable key} (h : table.rows.Perm table'.rows)
    (k : κ) : table.lookup k = table'.lookup k := by
  refine Option.ext fun row => ?_
  rw [lookup_eq_some_iff, lookup_eq_some_iff, h.mem_iff]

@[simp]
theorem lookup_empty (k : κ) : (empty : KeyedTable key).lookup k = none := rfl

/-- Adds a row with a new key. -/
def add (table : KeyedTable key) (row : α) (new : table.lookup (key row) = none) :
    KeyedTable key where
  rows := table.rows ++ [row]
  unique := by
    rw [List.map_append, List.map_singleton]
    refine List.Nodup.append table.unique (List.nodup_singleton _) ?_
    rw [List.disjoint_singleton, List.mem_map]
    rintro ⟨other, hmem, hkey⟩
    exact lookup_eq_none_iff.mp new other hmem hkey

/-- Adds the row unless its key is there. -/
def insertIfAbsent (table : KeyedTable key) (row : α) : KeyedTable key :=
  if h : table.lookup (key row) = none then table.add row h else table

/-- Adds the row, or rewrites the row that has its key. -/
def upsert (table : KeyedTable key) (row : α) (f : α → α) (keeps : ∀ row, key (f row) = key row) :
    KeyedTable key :=
  if h : table.lookup (key row) = none then table.add row h
  else table.modify (fun other => key other = key row) f keeps

/-! ### What a change leaves at each key -/

theorem lookup_add {table : KeyedTable key} {row : α} (new : table.lookup (key row) = none)
    (k : κ) : (table.add row new).lookup k = if key row = k then some row else table.lookup k := by
  rw [lookup, add, List.find?_append]
  by_cases hk : key row = k
  · subst hk
    rw [lookup] at new
    simp [new]
  · simp [hk, lookup]

theorem lookup_insertIfAbsent (table : KeyedTable key) (row : α) (k : κ) :
    (table.insertIfAbsent row).lookup k =
      if key row = k then some ((table.lookup k).getD row) else table.lookup k := by
  unfold insertIfAbsent
  split
  · rename_i new
    rw [lookup_add]
    by_cases hk : key row = k
    · subst hk
      simp [new]
    · simp [hk]
  · rename_i old
    split
    · rename_i hk
      subst hk
      obtain ⟨found, hfd⟩ := Option.ne_none_iff_exists'.mp old
      simp [hfd]
    · rfl

/-- A batch of rows leaves what is there, and else the first row of the batch. -/
theorem lookup_insertAll (table : KeyedTable key) (rows : List α) (k : κ) :
    (rows.foldl insertIfAbsent table).lookup k =
      (table.lookup k).or (rows.find? fun row => key row = k) := by
  induction rows generalizing table with
  | nil => simp
  | cons row rest ih =>
    rw [List.foldl_cons, ih, lookup_insertIfAbsent, List.find?_cons]
    by_cases hk : key row = k
    · cases table.lookup k <;> simp [hk]
    · simp [hk]

theorem lookup_modify (table : KeyedTable key) (p : α → Bool) (f : α → α)
    (keeps : ∀ row, key (f row) = key row) (k : κ) :
    (table.modify p f keeps).lookup k = (table.lookup k).map fun row => if p row then
      f row else row := by
  have hkeys : ((fun row => decide (key row = k)) ∘ fun row => if p row = true then
      f row else row) =
      fun row => decide (key row = k) := by
    funext row
    change decide (key (if p row = true then f row else row) = k) = _
    split
    · rw [keeps]
    · rfl
  rw [lookup, modify, List.find?_map, hkeys, lookup]

theorem lookup_upsert (table : KeyedTable key) (row : α) (f : α → α)
    (keeps : ∀ row, key (f row) = key row) (k : κ) :
    (table.upsert row f keeps).lookup k =
      if key row = k then some ((table.lookup k).elim row f) else table.lookup k := by
  unfold upsert
  split
  · rename_i new
    rw [lookup_add]
    by_cases hk : key row = k
    · subst hk
      simp [new]
    · simp [hk]
  · rename_i old
    rw [lookup_modify]
    by_cases hk : key row = k
    · subst hk
      obtain ⟨found, hfd⟩ := Option.ne_none_iff_exists'.mp old
      simp [hfd, key_of_lookup hfd]
    · cases hfd : table.lookup k with
      | none => simp [hk]
      | some found =>
        have hne : key found ≠ key row := by
          rw [key_of_lookup hfd]
          exact fun h => hk h.symm
        simp [hk, hne]

/-! ### Rewrites one by one -/

/-- **The loop of rewrites**: rewriting the rows of distinct keys one after another is
rewriting them at once. -/
theorem foldl_modify {p : α → Bool} {f : α → α} {keeps : ∀ row, key (f row) = key row}
    {keys : List κ} (hnd : keys.Nodup) (table : KeyedTable key) :
    keys.foldl (fun table k => table.modify (fun row => key row = k ∧ p row) f keeps) table =
      table.modify (fun row => key row ∈ keys ∧ p row) f keeps := by
  induction keys generalizing table with
  | nil => exact (modify_eq_self fun row _ => by simp).symm
  | cons k rest ih =>
    obtain ⟨hk, hrest⟩ := List.nodup_cons.mp hnd
    rw [List.foldl_cons, ih hrest]
    refine eq_of_rows_eq ?_
    simp only [modify, List.map_map]
    refine List.map_congr_left fun row _ => ?_
    -- A row of the first key is not met again, for its key stays.
    by_cases hkey : key row = k
    · subst hkey
      by_cases hp : p row
      · simp [hp, keeps, hk]
      · simp [hp]
    · simp [hkey]

/-- The same for a selection of rows that are there. -/
theorem foldl_modify_selected [DecidableEq α] {p : α → Bool} {f : α → α}
    {keeps : ∀ row, key (f row) = key row} {table : KeyedTable key} {selected : List α}
    (hnd : selected.Nodup) (hmem : ∀ row ∈ selected, row ∈ table.rows)
    (hp : ∀ row ∈ selected, p row) :
    (selected.map key).foldl (fun table k =>
        table.modify (fun row => key row = k ∧ p row) f keeps) table =
      table.modify (fun row => row ∈ selected) f keeps := by
  have hkeys : (selected.map key).Nodup :=
    hnd.map_on fun row hrow row' hrow' hkey => eq_of_key_eq (hmem row hrow) (hmem row' hrow') hkey
  rw [foldl_modify hkeys]
  refine modify_congr fun row hrow => ?_
  have hiff : (key row ∈ selected.map key ∧ p row) ↔ row ∈ selected := by
    constructor
    · rintro ⟨hkey, -⟩
      obtain ⟨other, hother, hkey⟩ := List.mem_map.mp hkey
      rwa [← eq_of_key_eq (hmem other hother) hrow hkey]
    · intro h
      exact ⟨List.mem_map_of_mem h, hp row h⟩
  simp only [hiff]

/-! ### Encodings -/

section Encodes

variable {β : Type*} {key' : β → κ} {code : α → β} {table : KeyedTable key}
  {coded : KeyedTable key'}

/-- The rows of a table are the codes of another's. -/
def Encodes (code : α → β) (coded : KeyedTable key') (table : KeyedTable key) : Prop :=
  coded.rows = table.rows.map code

omit [DecidableEq κ] in
theorem Encodes.rows_eq (h : Encodes code coded table) : coded.rows = table.rows.map code := h

omit [DecidableEq κ] in
theorem Encodes.empty : Encodes code (empty : KeyedTable key') (empty : KeyedTable key) := rfl

theorem Encodes.lookup (h : Encodes code coded table) (hkey : ∀ row, key' (code row) = key row)
    (k : κ) : coded.lookup k = (table.lookup k).map code := by
  have hcomp : (fun row => decide (key' row = k)) ∘ code = fun row => decide (key row = k) := by
    funext row
    simp [hkey]
  rw [KeyedTable.lookup, h.rows_eq, List.find?_map, hcomp, KeyedTable.lookup]

omit [DecidableEq κ] in
theorem Encodes.modify (h : Encodes code coded table) {p : α → Bool} {f : α → α} {q : β → Bool}
    {g : β → β} (keeps : ∀ row, key (f row) = key row) (keeps' : ∀ row, key' (g row) = key' row)
    (hq : ∀ row ∈ table.rows, q (code row) = p row)
    (hg : ∀ row ∈ table.rows, g (code row) = code (f row)) :
    Encodes code (coded.modify q g keeps') (table.modify p f keeps) := by
  unfold Encodes KeyedTable.modify
  simp only [h.rows_eq, List.map_map]
  refine List.map_congr_left fun row hrow => ?_
  simp only [Function.comp, hq row hrow, hg row hrow]
  split <;> rfl

theorem Encodes.insertIfAbsent (h : Encodes code coded table)
    (hkey : ∀ row, key' (code row) = key row) (row : α) :
    Encodes code (coded.insertIfAbsent (code row)) (table.insertIfAbsent row) := by
  have hlook : coded.lookup (key' (code row)) = (table.lookup (key row)).map code := by
    rw [hkey, h.lookup hkey]
  unfold KeyedTable.insertIfAbsent
  by_cases hnew : table.lookup (key row) = none
  · rw [dif_pos hnew, dif_pos (by rw [hlook, hnew, Option.map_none])]
    unfold Encodes add
    simp [h.rows_eq]
  · rw [dif_neg hnew, dif_neg (by rw [hlook, Option.map_eq_none_iff]; exact hnew)]
    exact h

theorem Encodes.upsert (h : Encodes code coded table) (hkey : ∀ row, key' (code row) = key row)
    {row : α} {row' : β} {f : α → α} {g : β → β} {keeps : ∀ row, key (f row) = key row}
    {keeps' : ∀ row, key' (g row) = key' row} (hrow : row' = code row)
    (hg : ∀ row ∈ table.rows, g (code row) = code (f row)) :
    Encodes code (coded.upsert row' g keeps') (table.upsert row f keeps) := by
  subst hrow
  have hlook : coded.lookup (key' (code row)) = (table.lookup (key row)).map code := by
    rw [hkey, h.lookup hkey]
  unfold KeyedTable.upsert
  by_cases hnew : table.lookup (key row) = none
  · rw [dif_pos hnew, dif_pos (by rw [hlook, hnew, Option.map_none])]
    unfold Encodes add
    simp [h.rows_eq]
  · rw [dif_neg hnew, dif_neg (by rw [hlook, Option.map_eq_none_iff]; exact hnew)]
    exact h.modify keeps keeps' (fun other _ => by simp only [hkey]) hg

end Encodes

end KeyedTable
