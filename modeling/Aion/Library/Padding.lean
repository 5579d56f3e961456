import Aion.Library.Scan
import Mathlib.Order.Monotone.Basic

/-!
# Lists padded with inserted entries

A list of slots describes two lists at once: the original, and the padded list that
keeps every original entry (possibly rewritten) and has further entries inserted
anywhere between. `keptIndex` sends a position of the original to its position in
the padded list.
-/

namespace Padding

/-- One entry of a padded list. -/
inductive Slot (α β : Type*) where
  /-- An original entry and what it became. -/
  | kept (before : α) (after : β)
  /-- An inserted entry. -/
  | inserted (after : β)

variable {α β : Type*}

/-- The original entry of a slot. -/
def Slot.before? : Slot α β → Option α
  | .kept before _ => some before
  | .inserted _ => none

/-- The padded entry of a slot. -/
def Slot.after : Slot α β → β
  | .kept _ after => after
  | .inserted after => after

variable (slots : List (Slot α β))

/-- The original list. -/
def original : List α := slots.filterMap Slot.before?

/-- The padded list. -/
def padded : List β := slots.map Slot.after

/-- Where the entry at a position of the original stands in the padded list. -/
def keptIndex : List (Slot α β) → ℕ → ℕ
  | [], k => k
  | .inserted _ :: rest, k => keptIndex rest k + 1
  | .kept .. :: _, 0 => 0
  | .kept .. :: rest, k + 1 => keptIndex rest k + 1

theorem keptIndex_strictMono : StrictMono (keptIndex slots) := by
  induction slots with
  | nil => exact strictMono_id
  | cons slot rest ih =>
    intro j k hjk
    cases slot with
    | inserted after => exact Nat.succ_lt_succ (ih hjk)
    | kept before after =>
      cases k with
      | zero => omega
      | succ k =>
        cases j with
        | zero => exact Nat.succ_pos _
        | succ j => exact Nat.succ_lt_succ (ih (Nat.lt_of_succ_lt_succ hjk))

/-- The slot of an original entry. -/
theorem getElem?_keptIndex (k : ℕ) :
    (∃ a b, (original slots)[k]? = some a ∧ slots[keptIndex slots k]? = some (.kept a b)) ∨
      (original slots)[k]? = none ∧ slots[keptIndex slots k]? = none := by
  induction slots generalizing k with
  | nil => exact .inr ⟨rfl, rfl⟩
  | cons slot rest ih =>
    cases slot with
    | inserted after => exact ih k
    | kept before after =>
      cases k with
      | zero => exact .inl ⟨before, after, rfl, rfl⟩
      | succ k => exact ih k

/-- Every kept slot is that of an original entry. -/
theorem exists_keptIndex {slots : List (Slot α β)} {j : ℕ} {a : α} {b : β}
    (h : slots[j]? = some (.kept a b)) :
    ∃ k, keptIndex slots k = j ∧ (original slots)[k]? = some a := by
  induction slots generalizing j with
  | nil => simp at h
  | cons slot rest ih =>
    cases slot with
    | inserted after =>
      cases j with
      | zero => simp at h
      | succ j =>
        obtain ⟨k, rfl, hk⟩ := ih h
        exact ⟨k, rfl, hk⟩
    | kept before after =>
      cases j with
      | zero =>
        simp only [List.getElem?_cons_zero, Option.some.injEq, Slot.kept.injEq] at h
        exact ⟨0, rfl, by rw [← h.1]; rfl⟩
      | succ j =>
        obtain ⟨k, rfl, hk⟩ := ih h
        exact ⟨k + 1, rfl, hk⟩

/-- Cutting before an original entry cuts both lists there. -/
theorem original_take_keptIndex (k : ℕ) :
    original (slots.take (keptIndex slots k)) = (original slots).take k := by
  induction slots generalizing k with
  | nil => simp [original]
  | cons slot rest ih =>
    cases slot with
    | inserted after => exact ih k
    | kept before after =>
      cases k with
      | zero => rfl
      | succ k => exact congrArg (before :: ·) (ih k)

/-- Cutting after an original entry cuts both lists there. -/
theorem original_drop_keptIndex (k : ℕ) :
    original (slots.drop (keptIndex slots k + 1)) = (original slots).drop (k + 1) := by
  induction slots generalizing k with
  | nil => simp [original]
  | cons slot rest ih =>
    cases slot with
    | inserted after => exact ih k
    | kept before after =>
      cases k with
      | zero => rfl
      | succ k => exact ih k

/-- A reader that skips inserted entries and reads a kept entry as its original
counts the same in both lists. -/
theorem countP_padded {slots : List (Slot α β)} {p : α → Bool} {q : β → Bool}
    (kept : ∀ a b, .kept a b ∈ slots → q b = p a)
    (inserted : ∀ b, .inserted b ∈ slots → q b = false) :
    (padded slots).countP q = (original slots).countP p := by
  induction slots with
  | nil => rfl
  | cons slot rest ih =>
    have hrest := ih (fun a b h => kept a b (.tail _ h)) fun b h => inserted b (.tail _ h)
    cases slot with
    | inserted b =>
      show (b :: padded rest).countP q = _
      rw [List.countP_cons, inserted b List.mem_cons_self]
      exact hrest
    | kept a b =>
      show (b :: padded rest).countP q = (a :: original rest).countP p
      rw [List.countP_cons, List.countP_cons, kept a b List.mem_cons_self, hrest]

/-- Such a reader finds something in both lists or in neither. -/
theorem any_padded {slots : List (Slot α β)} {p : α → Bool} {q : β → Bool}
    (kept : ∀ a b, .kept a b ∈ slots → q b = p a)
    (inserted : ∀ b, .inserted b ∈ slots → q b = false) :
    (padded slots).any q = (original slots).any p := by
  rw [Bool.eq_iff_iff, List.any_eq_true, List.any_eq_true, ← List.countP_pos_iff,
    ← List.countP_pos_iff,
    countP_padded kept inserted]

/-- The first answers of two readers that skip inserted entries and agree, up to
`S`, on kept ones. -/
theorem findSome?_padded {γ δ : Type*} {S : γ → δ → Prop} {slots : List (Slot α β)}
    {f : α → Option γ} {g : β → Option δ}
    (kept : ∀ a b, .kept a b ∈ slots → Option.Rel S (f a) (g b))
    (inserted : ∀ b, .inserted b ∈ slots → g b = none) :
    Option.Rel S ((original slots).findSome? f) ((padded slots).findSome? g) := by
  induction slots with
  | nil => exact .none
  | cons slot rest ih =>
    have hrest := ih (fun a b h => kept a b (.tail _ h)) fun b h => inserted b (.tail _ h)
    cases slot with
    | inserted b =>
      show Option.Rel S _ ((b :: padded rest).findSome? g)
      rw [List.findSome?_cons, inserted b List.mem_cons_self]
      exact hrest
    | kept a b =>
      show Option.Rel S ((a :: original rest).findSome? f) ((b :: padded rest).findSome? g)
      have hhead := kept a b List.mem_cons_self
      rw [List.findSome?_cons, List.findSome?_cons]
      generalize f a = fa at hhead
      generalize g b = gb at hhead
      cases hhead with
      | some h => exact .some h
      | none => exact hrest

/-- The first entries two such readers pick. -/
theorem find?_padded {S : α → β → Prop} {slots : List (Slot α β)} {p : α → Bool} {q : β → Bool}
    (kept : ∀ a b, .kept a b ∈ slots → q b = p a ∧ S a b)
    (inserted : ∀ b, .inserted b ∈ slots → q b = false) :
    Option.Rel S ((original slots).find? p) ((padded slots).find? q) := by
  rw [List.find?_eq_findSome?_guard, List.find?_eq_findSome?_guard]
  refine findSome?_padded (fun a b h => ?_) fun b h => ?_
  · obtain ⟨hread, hS⟩ := kept a b h
    simp only [Option.guard, hread]
    split_ifs
    · exact .some hS
    · exact .none
  · simp [Option.guard, inserted b h]

/-- The newest answers of two such readers. -/
theorem newest_padded {γ δ : Type*} {S : γ → δ → Prop} {slots : List (Slot α β)} {f : α → Option γ}
    {g : β → Option δ} (kept : ∀ a b, .kept a b ∈ slots → Option.Rel S (f a) (g b))
    (inserted : ∀ b, .inserted b ∈ slots → g b = none) :
    Option.Rel S (Scan.newest f (original slots)) (Scan.newest g (padded slots)) := by
  have h :=
    @findSome?_padded α β γ δ S slots.reverse f g (fun a b h => kept a b (List.mem_reverse.mp h))
    fun b h => inserted b (List.mem_reverse.mp h)
  rwa [original, padded, List.filterMap_reverse, List.map_reverse] at h

/-- Dropping up to the first kept entry of some kind drops alike in the original. -/
theorem dropWhile_original {slots : List (Slot α β)} {p : α → Bool} {q : β → Bool}
    (kept : ∀ a b, .kept a b ∈ slots → q b = p a)
    (inserted : ∀ b, .inserted b ∈ slots → q b = true) :
    (original slots).dropWhile p = original (slots.dropWhile (q ∘ Slot.after)) := by
  induction slots with
  | nil => rfl
  | cons slot rest ih =>
    have hrest := ih (fun a b h => kept a b (.tail _ h)) fun b h => inserted b (.tail _ h)
    cases slot with
    | inserted b =>
      have hb : (q ∘ Slot.after) (.inserted b : Slot α β) = true := inserted b List.mem_cons_self
      rw [List.dropWhile_cons_of_pos hb]
      exact hrest
    | kept a b =>
      have hab := kept a b List.mem_cons_self
      show (a :: original rest).dropWhile p = _
      cases hb : q b with
      | true =>
        have hb' : (q ∘ Slot.after) (.kept a b : Slot α β) = true := hb
        rw [List.dropWhile_cons_of_pos (hab ▸ hb), List.dropWhile_cons_of_pos hb', hrest]
      | false =>
        have hb' : ¬ (q ∘ Slot.after) (.kept a b : Slot α β) = true := by simp [hb, Slot.after]
        rw [List.dropWhile_cons_of_neg (by simp [← hab, hb]), List.dropWhile_cons_of_neg hb']
        rfl

end Padding
