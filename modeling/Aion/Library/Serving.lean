import Aion.Library.Interleaving

/-!
# Services that answer in more than one way

A service may refuse a request, read a clock or list what it has in any order, so a program
that calls it can end in several ways (`Prog.Ends`). Which ends it has follows from how it is
put together (`ends_done_iff`, `ends_call_iff`, `ends_bind_iff`); `Fallible` puts together
programs whose calls can fail (`ends_then_iff`; with a state of their own, `ends_bind_except_iff`).

What every answer keeps, every program keeps (`Prog.Ends.keeps`). A service that gives some of
the answers of another, in states that stand for its states, ends a program only in ways the
other does (`Prog.Ends.simulates`). A service with one answer to each request ends a program the
way it runs it (`ends_run`).
-/

namespace Interleaving

variable {σ τ α β ε C : Type} {R : C → Type}

/-- The answers a service may give in a state, each with the state after it. -/
abbrev Answers (σ C : Type) (R : C → Type) : Type := σ → (request : C) → R request → σ → Prop

/-- The program can end with this value in this state. -/
inductive Prog.Ends (answers : Answers σ C R) : Prog C R α → σ → α → σ → Prop where
  /-- The program is done. -/
  | done (value : α) (state : σ) : Ends answers (.done value) state value state
  /-- The program goes on with an answer. -/
  | call {request : C} {next : R request → Prog C R α} {state middle last : σ} {answer : R request}
    {value : α}
    (served : answers state request answer middle) (rest : Ends answers (next answer) middle value last) :
    Ends answers (.call request next) state value last

variable {value : α}

section Rules

variable {answers : Answers σ C R} {state last : σ}

theorem ends_done_iff {value' : α} :
    (Prog.done value : Prog C R α).Ends answers state value' last ↔ value' = value ∧
      last = state := by
  constructor
  · rintro ⟨⟩
    exact ⟨rfl, rfl⟩
  · rintro ⟨rfl, rfl⟩
    exact .done _ _

theorem ends_call_iff {request : C} {next : R request → Prog C R α} :
    (Prog.call request next).Ends answers state value last ↔
      ∃ answer middle, answers state request answer middle ∧
        (next answer).Ends answers middle value last := by
  constructor
  · rintro (_ | ⟨served, rest⟩)
    exact ⟨_, _, served, rest⟩
  · rintro ⟨answer, middle, served, rest⟩
    exact .call served rest

variable {program : Prog C R α}

theorem ends_bind_iff {f : α → Prog C R β} {value : β} :
    (program.bind f).Ends answers state value last ↔
      ∃ mid middle, program.Ends answers state mid middle ∧
      (f mid).Ends answers middle value last := by
  induction program generalizing state with
  | done value' =>
    constructor
    · intro h
      exact ⟨value', state, .done _ _, h⟩
    · rintro ⟨mid, middle, hdone, h⟩
      obtain ⟨rfl, rfl⟩ := ends_done_iff.mp hdone
      exact h
  | call request next ih =>
    constructor
    · intro h
      obtain ⟨answer, first, served, h⟩ := ends_call_iff.mp h
      obtain ⟨mid, middle, hnext, h⟩ := (ih answer).mp h
      exact ⟨mid, middle, .call served hnext, h⟩
    · rintro ⟨mid, middle, hcall, h⟩
      obtain ⟨answer, first, served, hnext⟩ := ends_call_iff.mp hcall
      exact .call served ((ih answer).mpr ⟨mid, middle, hnext, h⟩)

/-- What every answer keeps, the program keeps. -/
theorem Prog.Ends.keeps {inv : σ → Prop} {may : C → Prop}
    (keeps : ∀ {state request answer middle}, may request → answers state request answer middle →
        inv state → inv middle) {program : Prog C R α} (hcalls : program.Calls may) {value : α}
    (h : program.Ends answers state value last) (hinv : inv state) : inv last := by
  induction h with
  | done value state => exact hinv
  | call served rest ih => exact ih (hcalls.2 _) (keeps hcalls.1 served hinv)

/-- A service with fewer answers ends a program in fewer ways. -/
theorem Prog.Ends.mono {answers' : Answers σ C R}
    (hmore : ∀ {state request answer middle}, answers state request answer middle →
        answers' state request answer middle) (h : program.Ends answers state value last) :
    program.Ends answers' state value last := by
  induction h with
  | done value state => exact .done _ _
  | call served rest ih => exact .call (hmore served) ih

/-- **The simulation rule**: where every answer of one service is an answer of another in a state
it stands for, a program ends on the first only as it does on the second. -/
theorem Prog.Ends.simulates {answers' : Answers τ C R} {stands : σ → τ → Prop} {may : C → Prop}
    (matched : ∀ {state state' request answer middle}, may request → stands state state' →
        answers state request answer middle → ∃ middle', answers' state' request answer middle' ∧
      stands middle middle') (hcalls : program.Calls may)
    (h : program.Ends answers state value last) {state' : τ} (hstd : stands state state') :
    ∃ last', program.Ends answers' state' value last' ∧ stands last last' := by
  induction h generalizing state' with
  | done value state => exact ⟨state', .done _ _, hstd⟩
  | call served rest ih =>
    obtain ⟨middle', served', hmid⟩ := matched hcalls.1 hstd served
    obtain ⟨last', rest', hlast⟩ := ih (hcalls.2 _) hmid
    exact ⟨last', .call served' rest', hlast⟩

end Rules

/-- A service with one answer to each request runs a program to its end. -/
theorem ends_run (service : Service σ C R ε) (program : Prog C R α) (state : σ) :
    program.Ends (fun state request answer middle =>
        service.serve state request = (answer, middle)) state
      (service.run program state).1 (service.run program state).2 := by
  induction program generalizing state with
  | done value => exact .done _ _
  | call request next ih => exact .call rfl (ih _ _)

/-! ### Calls that can fail -/

/-- What goes on from a success, and ends with a failure, fails with its first part or goes on from
there. The state comes with either. -/
theorem ends_bind_except_iff {ρ : Type} {answers : Answers σ C R} {state last : σ}
    {first : Prog C R (Except ε α × ρ)} {next : Except ε α × ρ → Prog C R (Except ε β × ρ)}
    (hfail : ∀ failure own, next (.error failure, own) = .done (.error failure, own))
    {outcome : Except ε β × ρ} :
    (first.bind next).Ends answers state outcome last ↔
      (∃ failure own, outcome = (.error failure, own) ∧
        first.Ends answers state (.error failure, own) last) ∨
      ∃ value own middle, first.Ends answers state (.ok value, own) middle ∧
        (next (.ok value, own)).Ends answers middle outcome last := by
  constructor
  · intro h
    obtain ⟨⟨(failure | value), own⟩, middle, hfst, h⟩ := ends_bind_iff.mp h
    · rw [hfail] at h
      obtain ⟨rfl, rfl⟩ := ends_done_iff.mp h
      exact .inl ⟨failure, own, rfl, hfst⟩
    · exact .inr ⟨value, own, middle, hfst, h⟩
  · rintro (⟨failure, own, rfl, h⟩ | ⟨value, own, middle, hfst, h⟩)
    · exact ends_bind_iff.mpr ⟨_, _, h, by rw [hfail]; exact .done _ _⟩
    · exact ends_bind_iff.mpr ⟨_, _, hfst, h⟩

/-- A program whose first failure ends it. -/
def Fallible (C : Type) (R : C → Type) (ε α : Type) : Type := Prog C R (Except ε α)

namespace Fallible

instance : Monad (Fallible C R ε) where
  pure value := .done (.ok value)
  bind first f := Prog.bind first fun outcome =>
    match outcome with
    | .ok value => f value
    | .error failure => .done (.error failure)

/-- The program can end with this outcome in this state. -/
abbrev Ends (answers : Answers σ C R) (program : Fallible C R ε α) (state : σ)
    (outcome : Except ε α) (last : σ) : Prop :=
  Prog.Ends answers program state outcome last

variable {answers : Answers σ C R} {state last : σ}

theorem ends_pure_iff {outcome : Except ε α} :
    Ends answers (pure value : Fallible C R ε α) state outcome last ↔ outcome = .ok value ∧
      last = state :=
  ends_done_iff

variable {first : Fallible C R ε α} {f : α → Fallible C R ε β}

/-- A sequence fails with its first part, or goes on from there. -/
theorem ends_then_iff {outcome : Except ε β} :
    Ends answers (first >>= f) state outcome last ↔
      (∃ failure, outcome = .error failure ∧ Ends answers first state (.error failure) last) ∨
        ∃ value middle, Ends answers first state (.ok value) middle ∧
          Ends answers (f value) middle outcome last := by
  constructor
  · intro h
    obtain ⟨outcome' | value, middle, hfst, h⟩ := ends_bind_iff.mp h
    · obtain ⟨rfl, rfl⟩ := ends_done_iff.mp h
      exact .inl ⟨outcome', rfl, hfst⟩
    · exact .inr ⟨value, middle, hfst, h⟩
  · rintro (⟨failure, rfl, h⟩ | ⟨value, middle, hfst, h⟩)
    · exact ends_bind_iff.mpr ⟨_, _, h, .done _ _⟩
    · exact ends_bind_iff.mpr ⟨_, _, hfst, h⟩

/-- A sequence that succeeds has a first part that does. -/
theorem ends_then_ok_iff {value : β} :
    Ends answers (first >>= f) state (.ok value) last ↔
      ∃ mid middle, Ends answers first state (.ok mid) middle ∧
        Ends answers (f mid) middle (.ok value) last := by
  rw [ends_then_iff, or_iff_right]
  rintro ⟨failure, hfail, -⟩
  cases hfail

end Fallible

end Interleaving
