import Mathlib.Data.List.Induction
import Mathlib.Data.List.Nodup

/-!
# Recency lists

The keys of a sequence of uses, each once, the most recently used first. `touch` is one use. Where
only so many keys are kept, the last one is dropped as a new one comes (`touchWithin`): what is kept
is always the beginning of the whole list (`take_touch`).
-/

namespace Recency

variable {κ : Type*} [DecidableEq κ] {keys : List κ} {key : κ} {capacity : ℕ}

/-- One use: the key comes first, the others keep their order. -/
def touch (keys : List κ) (key : κ) : List κ := key :: keys.erase key

/-- The used keys, each once, the most recently used first. -/
def recent (uses : List κ) : List κ := uses.foldl touch []

/-- One use where no more than `capacity` keys are kept. -/
def touchWithin (capacity : ℕ) (keys : List κ) (key : κ) : List κ := (touch keys key).take capacity

theorem recent_concat (uses : List κ) (key : κ) :
    recent (uses ++ [key]) = touch (recent uses) key := by
  simp [recent]

/-- The first ones without a key are among the first ones and the next. -/
theorem take_erase (keys : List κ) (key : κ) (count : ℕ) :
    (keys.erase key).take count = ((keys.take (count + 1)).erase key).take count := by
  induction keys generalizing count with
  | nil => rfl
  | cons first rest ih =>
    by_cases h : first = key
    · subst h
      simp [List.take_take]
    · cases count with
      | zero => simp
      | succ count => simpa [List.erase_cons, h] using ih count

/-- What a use leaves among the first ones depends on the first ones alone. -/
theorem take_touch (capacity : ℕ) (keys : List κ) (key : κ) :
    (touch keys key).take capacity = touchWithin capacity (keys.take capacity) key := by
  cases capacity with
  | zero => rfl
  | succ count =>
    rw [touchWithin, touch, touch, List.take_succ_cons, List.take_succ_cons, take_erase]

/-- A key that is kept already: nothing is dropped. -/
theorem touchWithin_of_mem (h : key ∈ keys) (hlen : keys.length ≤ capacity) :
    touchWithin capacity keys key = touch keys key := by
  apply List.take_of_length_le
  rw [touch, List.length_cons, List.length_erase_of_mem h]
  have := List.length_pos_of_mem h
  omega

/-- A new key, while there is room. -/
theorem touchWithin_of_room (h : key ∉ keys) (hlen : keys.length < capacity) :
    touchWithin capacity keys key = key :: keys := by
  rw [touchWithin, touch, List.erase_of_not_mem h]
  exact List.take_of_length_le hlen

/-- A new key, where there is none. -/
theorem touchWithin_of_full (h : key ∉ keys) (hlen : keys.length = capacity) (hpos : 0 < capacity) :
    touchWithin capacity keys key = key :: keys.dropLast := by
  obtain ⟨count, rfl⟩ := Nat.exists_eq_add_of_lt hpos
  rw [touchWithin, touch, List.erase_of_not_mem h, List.dropLast_eq_take, hlen]
  simp

/-- Using the most recently used key again changes nothing. -/
theorem foldl_touch_replicate (count : ℕ) (key : κ) (keys : List κ) :
    (List.replicate count key).foldl touch (key :: keys) = key :: keys := by
  induction count with
  | zero => rfl
  | succ count ih => simpa [List.replicate_succ, touch] using ih

end Recency
