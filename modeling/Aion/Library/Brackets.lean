import Mathlib.Data.List.Nodup
import Mathlib.Order.Basic
import Mathlib.Order.Lattice

/-!
# Matching brackets

A scan of positions in ascending order, some of them marked as openings or closings: an
opening goes on a stack, and a closing takes the nearest opening off it. `scan_matched` is the
invariant of the scan, `Matched.apart` the point of it: two matched brackets are disjoint or
one lies strictly inside the other.
-/

namespace Brackets

/-- What a position is to the scan. -/
inductive Mark
  | opening
  | closing
  | other
  deriving DecidableEq, Repr

/-- An opening and the closing it is matched with. -/
structure Bracket (α : Type*) where
  opening : α
  closing : α
  deriving DecidableEq, Repr

variable {α : Type*} [LinearOrder α]

/-- Strictly between the two ends. -/
def Bracket.Inside (bracket : Bracket α) (position : α) : Prop :=
  bracket.opening < position ∧ position < bracket.closing

instance (bracket : Bracket α) : DecidablePred bracket.Inside :=
  fun _ => inferInstanceAs (Decidable (_ ∧ _))

/-- Disjoint, or one strictly inside the other. -/
def Bracket.Apart (a b : Bracket α) : Prop :=
  a.closing < b.opening ∨ b.closing < a.opening ∨
    (a.opening < b.opening ∧ b.closing < a.closing) ∨
      (b.opening < a.opening ∧ a.closing < b.closing)

theorem Bracket.Apart.symm {a b : Bracket α} (h : a.Apart b) : b.Apart a := by
  rcases h with h | h | h | h
  · exact .inr (.inl h)
  · exact .inl h
  · exact .inr (.inr (.inr h))
  · exact .inr (.inr (.inl h))

/-- The open positions with the nearest first, the brackets matched so far, and the closings
that matched nothing. -/
structure State (α : Type*) where
  stack : List α
  matched : List (Bracket α)
  stray : List α

variable (mark : α → Mark)

/-- One position read. -/
def step (state : State α) (position : α) : State α :=
  match mark position with
  | .opening => { state with stack := position :: state.stack }
  | .closing =>
    match state.stack with
    | [] => { state with stray := state.stray ++ [position] }
    | nearest :: rest =>
      { state with stack := rest, matched := state.matched ++ [⟨nearest, position⟩] }
  | .other => state

/-- Every position read, in order. -/
def scan (positions : List α) : State α := positions.foldl (step mark) ⟨[], [], []⟩

/-- What holds after a scan of `seen`. -/
structure Matched (seen : List α) (state : State α) : Prop where
  openings_nodup : (state.matched.map (·.opening) ++ state.stack).Nodup
  mem_openings : ∀ p, p ∈ state.matched.map (·.opening) ++ state.stack ↔ p ∈ seen ∧
    mark p = .opening
  closings_nodup : (state.matched.map (·.closing) ++ state.stray).Nodup
  mem_closings : ∀ p, p ∈ state.matched.map (·.closing) ++ state.stray ↔ p ∈ seen ∧
    mark p = .closing
  descending : state.stack.Pairwise (· > ·)
  ordered : ∀ bracket ∈ state.matched, bracket.opening < bracket.closing
  -- An opening that is still to be matched lies inside no bracket.
  clear : ∀ bracket ∈ state.matched, ∀ q ∈ state.stack, q < bracket.opening ∨ bracket.closing < q
  apart : state.matched.Pairwise Bracket.Apart

variable {mark} {seen : List α} {state : State α} {position : α}

theorem Matched.mem_of_closing (h : Matched mark seen state) {bracket : Bracket α}
    (hmem : bracket ∈ state.matched) : bracket.closing ∈ seen :=
  ((h.mem_closings _).mp (List.mem_append_left _ (List.mem_map_of_mem hmem))).1

theorem Matched.mem_of_stack (h : Matched mark seen state) {q : α} (hmem : q ∈ state.stack) :
    q ∈ seen :=
  ((h.mem_openings q).mp (List.mem_append_right _ hmem)).1

omit [LinearOrder α] in
/-- The positions with a mark, after one more. -/
theorem mem_concat_iff {m : Mark} (p : α) :
    p ∈ seen ++ [position] ∧ mark p = m ↔ (p ∈ seen ∧ mark p = m) ∨
      (p = position ∧ mark position = m) := by
  simp only [List.mem_append, List.mem_singleton, or_and_right]
  constructor
  · rintro (h | ⟨rfl, h⟩)
    · exact .inl h
    · exact .inr ⟨rfl, h⟩
  · rintro (h | ⟨rfl, h⟩)
    · exact .inl h
    · exact .inr ⟨rfl, h⟩

/-- A position that is put last keeps a list of earlier ones without repetition. -/
theorem nodup_concat {l : List α} (hl : l.Nodup) (hseen : ∀ q ∈ l, q ∈ seen)
    (hnew : ∀ q ∈ seen, q < position) : (l ++ [position]).Nodup := by
  rw [List.nodup_append]
  refine ⟨hl, List.nodup_singleton position, fun q hq p hp => ?_⟩
  rw [List.mem_singleton.mp hp]
  exact (hnew q (hseen q hq)).ne

theorem Matched.push (h : Matched mark seen state) (hnew : ∀ q ∈ seen, q < position)
    (hmark : mark position = .opening) :
    Matched mark (seen ++ [position]) { state with stack := position :: state.stack } where
  openings_nodup := by
    have hfresh := nodup_concat h.openings_nodup (fun q hq => ((h.mem_openings q).mp hq).1) hnew
    refine (List.Perm.nodup_iff ?_).mp hfresh
    rw [List.append_assoc]
    exact (List.perm_append_singleton position state.stack).append_left _
  mem_openings p := by
    rw [mem_concat_iff, ← h.mem_openings]
    simp only [List.mem_append, List.mem_cons, hmark, and_true]
    tauto
  closings_nodup := h.closings_nodup
  mem_closings p := by
    rw [mem_concat_iff, ← h.mem_closings]
    simp [hmark]
  descending := List.pairwise_cons.mpr ⟨fun q hq => hnew q (h.mem_of_stack hq), h.descending⟩
  ordered := h.ordered
  clear bracket hmem q hq := by
    rcases List.mem_cons.mp hq with rfl | hq
    · exact .inr (hnew _ (h.mem_of_closing hmem))
    · exact h.clear bracket hmem q hq
  apart := h.apart

theorem Matched.stray (h : Matched mark seen state) (hnew : ∀ q ∈ seen, q < position)
    (hmark : mark position = .closing) :
    Matched mark (seen ++ [position]) { state with stray := state.stray ++ [position] } where
  openings_nodup := h.openings_nodup
  mem_openings p := by
    rw [mem_concat_iff, ← h.mem_openings]
    simp [hmark]
  closings_nodup := by
    rw [← List.append_assoc]
    exact nodup_concat h.closings_nodup (fun q hq => ((h.mem_closings q).mp hq).1) hnew
  mem_closings p := by
    rw [mem_concat_iff, ← h.mem_closings, ← List.append_assoc, List.mem_append, List.mem_singleton]
    simp [hmark]
  descending := h.descending
  ordered := h.ordered
  clear := h.clear
  apart := h.apart

theorem Matched.pop {nearest : α} {rest : List α} (h : Matched mark seen state)
    (hnew : ∀ q ∈ seen, q < position) (hmark : mark position = .closing)
    (hstack : state.stack = nearest :: rest) :
    Matched mark (seen ++ [position])
      { state with stack := rest, matched := state.matched ++ [⟨nearest, position⟩] } where
  openings_nodup := by
    have hnd := h.openings_nodup
    rw [hstack] at hnd
    simpa using hnd
  mem_openings p := by
    have hmem := h.mem_openings p
    rw [hstack] at hmem
    rw [mem_concat_iff, ← hmem]
    simp [hmark]
  closings_nodup := by
    have hfresh := nodup_concat h.closings_nodup (fun q hq => ((h.mem_closings q).mp hq).1) hnew
    refine (List.Perm.nodup_iff ?_).mp hfresh
    rw [List.map_append, List.append_assoc, List.append_assoc]
    exact (List.perm_append_comm).append_left _
  mem_closings p := by
    rw [mem_concat_iff, ← h.mem_closings]
    simp only [List.map_append, List.mem_append, List.map_cons, List.map_nil, List.mem_singleton,
      hmark, and_true]
    tauto
  descending := by
    have hdesc := h.descending
    rw [hstack] at hdesc
    exact (List.pairwise_cons.mp hdesc).2
  ordered bracket hmem := by
    rcases List.mem_append.mp hmem with hmem | hmem
    · exact h.ordered bracket hmem
    · rw [List.mem_singleton.mp hmem]
      exact hnew _ (h.mem_of_stack (by simp [hstack]))
  clear bracket hmem q hq := by
    rcases List.mem_append.mp hmem with hmem | hmem
    · exact h.clear bracket hmem q (by simp [hstack, hq])
    · rw [List.mem_singleton.mp hmem]
      have hdesc := h.descending
      rw [hstack] at hdesc
      exact .inl ((List.pairwise_cons.mp hdesc).1 q hq)
  apart := by
    rw [List.pairwise_append]
    refine ⟨h.apart, List.pairwise_singleton _ _, fun earlier hearl new hmem => ?_⟩
    rw [List.mem_singleton.mp hmem]
    -- The opening was on the stack while the earlier bracket was already matched.
    have hclosing := hnew _ (h.mem_of_closing hearl)
    rcases h.clear earlier hearl nearest (by simp [hstack]) with hbef | hafter
    · exact .inr (.inr (.inr ⟨hbef, hclosing⟩))
    · exact .inl hafter

theorem Matched.step (h : Matched mark seen state) (hnew : ∀ q ∈ seen, q < position) :
    Matched mark (seen ++ [position]) (step mark state position) := by
  cases hmark : mark position with
  | opening =>
    have hstep : Brackets.step mark state position = { state with stack := position :: state.stack } := by
      simp [Brackets.step, hmark]
    rw [hstep]
    exact h.push hnew hmark
  | closing =>
    cases hstack : state.stack with
    | nil =>
      have hstep : Brackets.step mark state position = { state with stray := state.stray ++ [position] } := by
        simp [Brackets.step, hmark, hstack]
      rw [hstep]
      exact h.stray hnew hmark
    | cons nearest rest =>
      have hstep : Brackets.step mark state position =
          { state with stack := rest, matched := state.matched ++ [⟨nearest, position⟩] } := by
        simp [Brackets.step, hmark, hstack]
      rw [hstep]
      exact h.pop hnew hmark hstack
  | other =>
    have hstep : Brackets.step mark state position = state := by simp [Brackets.step, hmark]
    rw [hstep]
    exact
      { h with
        mem_openings := fun p => by
          rw [mem_concat_iff, ← h.mem_openings]
          simp [hmark]
        mem_closings := fun p => by
          rw [mem_concat_iff, ← h.mem_closings]
          simp [hmark] }

theorem foldl_matched (positions : List α) (h : Matched mark seen state)
    (hsorted : (seen ++ positions).Pairwise (· < ·)) :
    Matched mark (seen ++ positions) (positions.foldl (Brackets.step mark) state) := by
  induction positions generalizing seen state with
  | nil => simpa using h
  | cons position rest ih =>
    have hnew : ∀ q ∈ seen, q < position := fun q hq =>
      (List.pairwise_append.mp hsorted).2.2 q hq position List.mem_cons_self
    rw [List.append_cons] at hsorted ⊢
    exact ih (h.step hnew) hsorted

theorem Matched.start : Matched mark [] ⟨[], [], []⟩ where
  openings_nodup := List.nodup_nil
  mem_openings := by simp
  closings_nodup := List.nodup_nil
  mem_closings := by simp
  descending := List.Pairwise.nil
  ordered := by simp
  clear := by simp
  apart := List.Pairwise.nil

/-- **What a scan of ascending positions has matched.** -/
theorem scan_matched {positions : List α} (hsorted : positions.Pairwise (· < ·)) :
    Matched mark positions (scan mark positions) :=
  foldl_matched positions Matched.start hsorted

/-- With nothing left on the stack, an opening belongs to exactly one bracket. -/
theorem Matched.existsUnique_opening (h : Matched mark seen state) (hstack : state.stack = [])
    {p : α} (hp : p ∈ seen) (hmark : mark p = .opening) :
    ∃! bracket, bracket ∈ state.matched ∧ bracket.opening = p := by
  have hnd := h.openings_nodup
  have hmem := (h.mem_openings p).mpr ⟨hp, hmark⟩
  rw [hstack, List.append_nil] at hnd hmem
  obtain ⟨bracket, hbracket, rfl⟩ := List.mem_map.mp hmem
  exact ⟨bracket, ⟨hbracket, rfl⟩, fun other hother =>
      List.inj_on_of_nodup_map hnd hother.1 hbracket hother.2⟩

/-- With no stray closing, a closing belongs to exactly one bracket. -/
theorem Matched.existsUnique_closing (h : Matched mark seen state) (hstray : state.stray = [])
    {p : α} (hp : p ∈ seen) (hmark : mark p = .closing) :
    ∃! bracket, bracket ∈ state.matched ∧ bracket.closing = p := by
  have hnd := h.closings_nodup
  have hmem := (h.mem_closings p).mpr ⟨hp, hmark⟩
  rw [hstray, List.append_nil] at hnd hmem
  obtain ⟨bracket, hbracket, rfl⟩ := List.mem_map.mp hmem
  exact ⟨bracket, ⟨hbracket, rfl⟩, fun other hother =>
      List.inj_on_of_nodup_map hnd hother.1 hbracket hother.2⟩

end Brackets
