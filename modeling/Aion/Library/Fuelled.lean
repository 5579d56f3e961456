import Mathlib.Order.Filter.AtTopBot.Basic

/-!
# Computations with a state, failure and fuel

A computation on a state ends with a value and a new state, fails, or runs out of fuel. One that
has ended with a value has done so in its parts (`returns_bind_iff`), and what the parts keep the
whole keeps (`Keeps`). A `loop` takes steps until one of them ends it, and each uses up fuel.

`Attains` says of a computation with fuel as a parameter that it ends, from where a precondition
holds, as a postcondition says, for all that is enough of fuel. It has a rule for each way in which
computations are put together, the loop included (`AttainsLoop`).
-/

namespace Fuelled

open Filter

variable {σ ε α β γ : Type}

/-- A computation on a state; `none` says that the fuel ran out. -/
abbrev Comp (σ ε : Type) : Type → Type := StateT σ (ExceptT ε Option)

namespace Comp

/-- The fuel has run out. -/
def spent : Comp σ ε α := fun _ => ExceptT.mk none

/-- The computation ends with a value. -/
def Returns (comp : Comp σ ε α) (state : σ) (value : α) (last : σ) : Prop :=
  (comp.run state).run = some (.ok (value, last))

variable {comp : Comp σ ε α} {f : α → Comp σ ε β} {state middle last : σ} {value : α} {result : β}

@[simp]
theorem returns_pure_iff {value' : α} :
    (pure value : Comp σ ε α).Returns state value' last ↔ value = value' ∧ state = last := by
  simp [Returns]

@[simp]
theorem returns_bind_iff :
    (comp >>= f).Returns state result last ↔ ∃ value middle, comp.Returns state value middle ∧
      (f value).Returns middle result last := by
  unfold Returns
  rw [StateT.run_bind, ExceptT.run_bind]
  cases hrun : (comp.run state).run with
  | none => simp
  | some end_ =>
    cases end_ with
    | error error => simp
    | ok pair =>
      obtain ⟨value, middle⟩ := pair
      simp

@[simp]
theorem not_returns_spent : ¬(spent : Comp σ ε α).Returns state value last := by
  intro h
  cases h

@[simp]
theorem not_returns_throw {error : ε} : ¬(throw error : Comp σ ε α).Returns state value last := by
  intro h
  cases h

@[simp]
theorem returns_get_iff {value : σ} :
    (get : Comp σ ε σ).Returns state value last ↔ state = value ∧ state = last := by
  simp [Returns]

@[simp]
theorem returns_modify_iff {g : σ → σ} {value : Unit} :
    (modify g : Comp σ ε Unit).Returns state value last ↔ g state = last := by
  simp [Returns]

/-! ### What computations keep -/

/-- The computation keeps an invariant of the state, and its value is as it should be. -/
def Keeps (inv : σ → Prop) (comp : Comp σ ε α) (good : α → Prop) : Prop :=
  ∀ state value last, inv state → comp.Returns state value last → inv last ∧ good value

variable {inv : σ → Prop} {good : α → Prop} {good' : β → Prop}

theorem keeps_pure (h : good value) : Keeps inv (pure value : Comp σ ε α) good := by
  intro state value' last hinv hrets
  obtain ⟨rfl, rfl⟩ := returns_pure_iff.mp hrets
  exact ⟨hinv, h⟩

theorem keeps_spent : Keeps inv (spent : Comp σ ε α) good :=
  fun _ _ _ _ h => absurd h not_returns_spent

theorem keeps_throw {error : ε} : Keeps inv (throw error : Comp σ ε α) good :=
  fun _ _ _ _ h => absurd h not_returns_throw

theorem keeps_get : Keeps inv (get : Comp σ ε σ) inv := by
  intro state value last hinv hrets
  obtain ⟨rfl, rfl⟩ := returns_get_iff.mp hrets
  exact ⟨hinv, hinv⟩

/-- One part after the other. -/
theorem Keeps.bind (h : Keeps inv comp good)
    (hf : ∀ value, good value → Keeps inv (f value) good') : Keeps inv (comp >>= f) good' := by
  intro state result last hinv hrets
  obtain ⟨value, middle, hcomp, hrest⟩ := returns_bind_iff.mp hrets
  obtain ⟨hmiddle, hval⟩ := h state value middle hinv hcomp
  exact hf value hval middle result last hmiddle hrest

theorem Keeps.mono {good'' : α → Prop} (h : Keeps inv comp good)
    (himp : ∀ value, good value → good'' value) : Keeps inv comp good'' := by
  intro state value last hinv hrets
  exact (h state value last hinv hrets).imp_right (himp value)

/-! ### Loops -/

/-- Takes steps, each of which goes on with a value or ends the loop with a result. -/
def loop (step : α → Comp σ ε (α ⊕ β)) : ℕ → α → Comp σ ε β
  | 0, _ => spent
  | fuel + 1, value => do
    match ← step value with
    | .inl next => loop step fuel next
    | .inr result => return result

/-- What every step keeps, the loop keeps. -/
theorem Keeps.loop {step : α → Comp σ ε (α ⊕ β)}
    (h : ∀ value, good value → Keeps inv (step value) (Sum.elim good good')) (fuel : ℕ)
    (hval : good value) : Keeps inv (loop step fuel value) good' := by
  induction fuel generalizing value with
  | zero => exact keeps_spent
  | succ fuel ih =>
    refine (h value hval).bind fun next hnext => ?_
    cases next with
    | inl next => exact ih hnext
    | inr result => exact keeps_pure hnext

/-! ### Enough fuel -/

/-- From where the precondition holds, all that is enough of fuel ends the computation as the
postcondition says. -/
def Attains (pre : σ → Prop) (comp : ℕ → Comp σ ε α) (post : α → σ → Prop) : Prop :=
  ∀ state, pre state → ∃ value last, post value last ∧ ∀ᶠ fuel in atTop,
    (comp fuel).Returns state value last

/-- From where the precondition holds, the loop ends as the postcondition says after so many steps
at most. -/
def AttainsLoop (pre : σ → Prop) (step : ℕ → α → Comp σ ε (α ⊕ β)) (value : α)
    (post : β → σ → Prop) : Prop :=
  ∀ state, pre state → ∃ result last, post result last ∧
    ∃ count, ∀ᶠ fuel in atTop, ∀ left,
      (loop (step fuel) (left + count) value).Returns state result last

variable {pre : σ → Prop} {mid post : α → σ → Prop} {post' : β → σ → Prop}

/-- A computation that needs no fuel. -/
theorem attains_of_returns
    (h : ∀ state, pre state → ∃ value last, post value last ∧ comp.Returns state value last) :
    Attains pre (fun _ => comp) post := by
  intro state hpre
  obtain ⟨value, last, hpost, hrets⟩ := h state hpre
  exact ⟨value, last, hpost, .of_forall fun _ => hrets⟩

theorem attains_pure (h : ∀ state, pre state → post value state) :
    Attains pre (fun _ => (pure value : Comp σ ε α)) post :=
  attains_of_returns fun state hpre => ⟨value, state, h state hpre, returns_pure_iff.mpr ⟨rfl, rfl⟩⟩

/-- One part after the other. -/
theorem Attains.bind {comp : ℕ → Comp σ ε α} {f : ℕ → α → Comp σ ε β} (h : Attains pre comp mid)
    (hf : ∀ value, Attains (mid value) (fun fuel => f fuel value) post') :
    Attains pre (fun fuel => comp fuel >>= f fuel) post' := by
  intro state hpre
  obtain ⟨value, middle, hmid, hcomp⟩ := h state hpre
  obtain ⟨result, last, hpost, hrest⟩ := hf value middle hmid
  refine ⟨result, last, hpost, ?_⟩
  filter_upwards [hcomp, hrest] with fuel hcomp hrest
  exact returns_bind_iff.mpr ⟨value, middle, hcomp, hrest⟩

theorem Attains.mono {comp : ℕ → Comp σ ε α} (h : Attains pre comp mid)
    (himp : ∀ value state, mid value state → post value state) : Attains pre comp post := by
  intro state hpre
  obtain ⟨value, last, hmid, hrets⟩ := h state hpre
  exact ⟨value, last, himp value last hmid, hrets⟩

/-- A computation that gives up one unit of fuel. -/
theorem attains_of_succ {comp : ℕ → Comp σ ε α}
    (h : Attains pre (fun fuel => comp (fuel + 1)) post) : Attains pre comp post := by
  intro state hpre
  obtain ⟨value, last, hpost, hrets⟩ := h state hpre
  refine ⟨value, last, hpost, ?_⟩
  rwa [← eventually_map (m := (· + 1)) (P := fun fuel => (comp fuel).Returns state value last),
      map_add_atTop_eq_nat] at hrets

variable {step : ℕ → α → Comp σ ε (α ⊕ β)}

/-- The step ends the loop. -/
theorem attainsLoop_of_inr
    (h : Attains pre (fun fuel => step fuel value) fun next state =>
        ∃ result, next = .inr result ∧ post' result state) : AttainsLoop pre step value post' := by
  intro state hpre
  obtain ⟨_, last, ⟨result, rfl, hpost⟩, hrets⟩ := h state hpre
  refine ⟨result, last, hpost, 1, ?_⟩
  filter_upwards [hrets] with fuel hstep left
  exact returns_bind_iff.mpr ⟨_, _, hstep, returns_pure_iff.mpr ⟨rfl, rfl⟩⟩

/-- The step goes on. -/
theorem attainsLoop_of_inl
    (h : Attains pre (fun fuel => step fuel value) fun next state => ∃ value, next = .inl value ∧
        mid value state) (hrest : ∀ value, AttainsLoop (mid value) step value post') :
    AttainsLoop pre step value post' := by
  intro state hpre
  obtain ⟨_, middle, ⟨next, rfl, hmid⟩, hrets⟩ := h state hpre
  obtain ⟨result, last, hpost, count, hloop⟩ := hrest next middle hmid
  refine ⟨result, last, hpost, count + 1, ?_⟩
  filter_upwards [hrets, hloop] with fuel hstep hloop left
  exact returns_bind_iff.mpr ⟨_, _, hstep, hloop left⟩

theorem AttainsLoop.attains (h : AttainsLoop pre step value post') :
    Attains pre (fun fuel => loop (step fuel) fuel value) post' := by
  intro state hpre
  obtain ⟨result, last, hpost, count, hloop⟩ := h state hpre
  refine ⟨result, last, hpost, ?_⟩
  filter_upwards [hloop, eventually_ge_atTop count] with fuel hloop hfuel
  have hall := hloop (fuel - count)
  rwa [Nat.sub_add_cancel hfuel] at hall

end Comp

end Fuelled
