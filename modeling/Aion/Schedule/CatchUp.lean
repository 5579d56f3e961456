import Aion.Schedule.Trigger
import Mathlib.Data.List.Range
import Mathlib.Order.Bounds.Basic
import Mathlib.Tactic.Ring

/-!
# Catch-up fires the missed ticks

The chain of a trigger is an instant, the instant the trigger fires next after it, and so on
(`Ticks`). A recovery at `now` walks the chain from the projected trigger: `walk_cases` says
where the loop of the catch-up policies stops, and `evaluateCatchUp_exact` what each policy
makes of it. Either the chain passes `now`, and then the policies fire all, the first or none
of its instants up to `now` and leave the same next trigger; or advancing the trigger fails
at an instant that is not after `now`, and then every policy fails.

An interval's chain is arithmetic. A cron trigger's chain is every match after the first
instant, when the library's `next_after` gives the least match (`NextIsLeast`).
-/

namespace Aion.Schedule

variable {Cron : Type}

/-! ### The chain of a trigger -/

/-- `Ticks library trigger start ticks last`: firing on from `start`, the trigger passes the
`ticks`, in order, and comes to `last`. -/
inductive Ticks (library : TimeLibrary Cron) (trigger : TriggerSpec) :
    Instant → List Instant → Instant → Prop where
  /-- Nothing is passed. -/
  | nil (start : Instant) : Ticks library trigger start [] start
  /-- The first instant is passed. -/
  | cons {start next last : Instant} {ticks : List Instant}
    (advance : nextFireTime library trigger start = .ok next)
    (later : Ticks library trigger next ticks last) : Ticks library trigger start (start :: ticks) last

variable {library : TimeLibrary Cron} {trigger : TriggerSpec} {start now last : Instant}
  {ticks : List Instant}

/-- The chain begins where it starts. -/
theorem Ticks.start_le (h : Ticks library trigger start ticks last) : start ≤ last := by
  induction h with
  | nil start => exact le_rfl
  | cons advance later ih => exact (lt_of_nextFireTime advance).le.trans ih

/-- No tick of the chain is before the start. -/
theorem Ticks.le_of_mem (h : Ticks library trigger start ticks last) :
    ∀ tick ∈ ticks, start ≤ tick := by
  induction h with
  | nil start => simp
  | cons advance later ih =>
    intro tick htick
    rcases List.mem_cons.mp htick with rfl | htick
    · exact le_rfl
    · exact (lt_of_nextFireTime advance).le.trans (ih tick htick)

/-- **The chain is strictly increasing.** -/
theorem Ticks.increasing (h : Ticks library trigger start ticks last) :
    (ticks ++ [last]).Pairwise (· < ·) := by
  induction h with
  | nil start => simp
  | @cons start next last ticks advance later ih =>
    have hlt := lt_of_nextFireTime advance
    rw [List.cons_append, List.pairwise_cons]
    refine ⟨?_, ih⟩
    intro tick htick
    rcases List.mem_append.mp htick with htick | htick
    · exact hlt.trans_le (later.le_of_mem tick htick)
    · rw [List.mem_singleton.mp htick]
      exact hlt.trans_le later.start_le

/-- An interval's chain is arithmetic. -/
theorem Ticks.interval {period : ℕ} (h : Ticks library (.interval period) start ticks last) :
    ticks = (List.range ticks.length).map (fun k : ℕ => (start + k * period : ℤ)) ∧
      last = (start + ticks.length * period : ℤ) := by
  induction h with
  | nil start => simp
  | @cons start next last ticks advance later ih =>
    have hnext : next = (start + period : ℤ) := by
      simp only [nextFireTime] at advance
      split_ifs at advance
      exact (Except.ok.inj advance).symm
    have hstep : ∀ k : ℕ, (start + period + k * period : ℤ) =
        (start + (k + 1 : ℕ) * period : ℤ) := by
      intro k
      push_cast
      ring
    obtain ⟨hticks, hlast⟩ := ih
    constructor
    · rw [List.length_cons, List.range_succ_eq_map, List.map_cons, List.map_map]
      refine List.cons_eq_cons.mpr ⟨by simp, ?_⟩
      conv_lhs => rw [hticks]
      refine List.map_congr_left fun k _ => ?_
      rw [hnext]
      exact hstep k
    · rw [hlast, hnext, List.length_cons]
      exact hstep ticks.length

/-! ### Cron triggers -/

/-- `next_after` gives the least match strictly after an instant, and `none` when there is no
match. -/
def NextIsLeast (library : TimeLibrary Cron) (cron : Cron) (Matches : Instant → Prop) : Prop :=
  ∀ after, match library.nextAfter cron after with
    | some next => IsLeast {instant | after < instant ∧ Matches instant} next.1
    | none => ∀ instant, after < instant → ¬ Matches instant

/-- Where the trigger is a cron expression, `next_after` gives its least match. -/
def CronMatches (library : TimeLibrary Cron) (trigger : TriggerSpec) (Matches : Instant → Prop) :
    Prop :=
  ∀ expression cron, trigger = .cron expression →
    parseCronExpression library expression = .ok cron →
    NextIsLeast library cron Matches

variable {Matches : Instant → Prop} {expression : String}

theorem isLeast_of_nextFireTime (hcron : CronMatches library (.cron expression) Matches)
    {next : Instant} (h : nextFireTime library (.cron expression) start = .ok next) :
    IsLeast {instant | start < instant ∧ Matches instant} next := by
  simp only [nextFireTime] at h
  split at h
  · cases h
  · rename_i cron hparse
    have hleast := hcron expression cron rfl hparse start
    split at h
    · cases h
    · rename_i found hfd
      cases h
      rw [hfd] at hleast
      exact hleast

/-- **A cron trigger's chain leaves no match out**: what follows the start are the matches
after it, in order. -/
theorem Ticks.cron (hcron : CronMatches library (.cron expression) Matches)
    (h : Ticks library (.cron expression) start ticks last) (instant : Instant) :
    instant ∈ ticks ++ [last] ↔ instant = start ∨ start < instant ∧ instant ≤ last ∧
      Matches instant := by
  induction h with
  | nil start =>
    simp only [List.nil_append, List.mem_singleton]
    refine ⟨.inl, ?_⟩
    rintro (heq | ⟨hlt, hle, -⟩)
    · exact heq
    · exact absurd hlt (not_lt.mpr hle)
  | @cons start next last ticks advance later ih =>
    have hleast := isLeast_of_nextFireTime hcron advance
    have hlt := lt_of_nextFireTime advance
    rw [List.cons_append, List.mem_cons, ih]
    constructor
    · rintro (rfl | rfl | ⟨hafter, hle, hmatch⟩)
      · exact .inl rfl
      · exact .inr ⟨hlt, later.start_le, hleast.1.2⟩
      · exact .inr ⟨hlt.trans hafter, hle, hmatch⟩
    · rintro (rfl | ⟨hafter, hle, hmatch⟩)
      · exact .inl rfl
      · rcases (hleast.2 ⟨hafter, hmatch⟩).eq_or_lt with heq | hnext
        · exact .inr (.inl heq.symm)
        · exact .inr (.inr ⟨hnext, hle, hmatch⟩)

/-! ### The walk to now -/

/-- The walk from `start` passes `now`: it goes through `ticks` to `last`. -/
def Passes (library : TimeLibrary Cron) (trigger : TriggerSpec) (now start : Instant)
    (ticks : List Instant) (last : Instant) : Prop :=
  Ticks library trigger start ticks last ∧ (∀ tick ∈ ticks, tick ≤ now) ∧ now < last

/-- The walk from `start` ends with an error: it goes through `ticks` to an instant that is not
after `now`, where the trigger fails to advance. -/
def Breaks (library : TimeLibrary Cron) (trigger : TriggerSpec) (now start : Instant)
    (error : ScheduleError) : Prop :=
  ∃ ticks stop, Ticks library trigger start ticks stop ∧ stop ≤ now ∧
    nextFireTime library trigger stop = .error error

theorem Passes.cons {next : Instant} (hle : start ≤ now)
    (hnext : nextFireTime library trigger start = .ok next)
    (h : Passes library trigger now next ticks last) :
    Passes library trigger now start (start :: ticks) last :=
  ⟨.cons hnext h.1, List.forall_mem_cons.mpr ⟨hle, h.2.1⟩, h.2.2⟩

theorem Breaks.cons {next : Instant} {error : ScheduleError}
    (hnext : nextFireTime library trigger start = .ok next)
    (h : Breaks library trigger now next error) : Breaks library trigger now start error := by
  obtain ⟨ticks, stop, hticks, hstop, herr⟩ := h
  exact ⟨start :: ticks, stop, .cons hnext hticks, hstop, herr⟩

/-- Where the loop of the policies stops, whatever fire times it has gathered before. -/
theorem walk_cases (library : TimeLibrary Cron) (trigger : TriggerSpec) (now start : Instant) :
    (∃ ticks last, Passes library trigger now start ticks last ∧
        ∀ earlier, passed library trigger now start earlier = .ok (earlier ++ ticks, last)) ∨
      ∃ error, Breaks library trigger now start error ∧
        ∀ earlier, passed library trigger now start earlier = .error error := by
  -- the induction of the loop; what it has gathered does not matter
  obtain ⟨gathered⟩ : Nonempty (List Instant) := ⟨[]⟩
  induction start, gathered using passed.induct library trigger now with
  | case1 start _ hle error herr =>
    refine .inr ⟨error, ⟨[], start, .nil start, hle, herr⟩, fun earlier => ?_⟩
    rw [passed, dif_pos hle, herr]
  | case2 start _ hle next hnext ih =>
    have hpass : ∀ earlier,
        passed library trigger now start earlier = passed library trigger now next (earlier ++ [start]) := by
      intro earlier
      rw [passed, dif_pos hle, hnext]
    rcases ih with ⟨ticks, last, hpasses, heq⟩ | ⟨error, hbreaks, heq⟩
    · refine .inl ⟨start :: ticks, last, hpasses.cons hle hnext, fun earlier => ?_⟩
      rw [hpass, heq, List.append_assoc, List.singleton_append]
    · refine .inr ⟨error, hbreaks.cons hnext, fun earlier => ?_⟩
      rw [hpass, heq]
  | case3 start _ hle =>
    refine .inl ⟨[], start, ⟨.nil start, by simp, not_le.mp hle⟩, fun earlier => ?_⟩
    rw [passed, dif_neg hle, List.append_nil]

/-! ### The policies -/

/-- What a policy fires of the missed ticks. -/
def firesOf (policy : CatchUpPolicy) (ticks : List Instant) : List Instant :=
  match policy with
  | .all => ticks
  | .one => ticks.take 1
  | .skip => []

/-- The three policies read one walk. -/
theorem evaluateCatchUp_cases (library : TimeLibrary Cron) (trigger : TriggerSpec)
    (now start : Instant) :
    (∃ ticks last, Passes library trigger now start ticks last ∧
        ∀ policy, evaluateCatchUp library policy trigger start now =
          .ok ⟨firesOf policy ticks, last⟩) ∨
      ∃ error, Breaks library trigger now start error ∧
        ∀ policy, evaluateCatchUp library policy trigger start now = .error error := by
  by_cases hle : start ≤ now
  · have hstart : ¬ start > now := not_lt.mpr hle
    -- the policy that fires one instant advances past it before its loop
    cases hnext : nextFireTime library trigger start with
    | error error =>
      have hpass : passed library trigger now start [] = .error error := by rw [passed, dif_pos hle, hnext]
      refine .inr ⟨error, ⟨[], start, .nil start, hle, hnext⟩, fun policy => ?_⟩
      rw [evaluateCatchUp.eq_def, if_neg hstart]
      cases policy with
      | all => rw [catchUpAll, hpass]; rfl
      | one => rw [catchUpOne, hnext]; rfl
      | skip => rw [catchUpSkip, hpass]; rfl
    | ok next =>
      have hpass : passed library trigger now start [] = passed library trigger now next [start] := by
        rw [passed, dif_pos hle, hnext, List.nil_append]
      rcases walk_cases library trigger now next with ⟨ticks, last, hpasses, heq⟩ | ⟨error, hbreaks, heq⟩
      · refine .inl ⟨start :: ticks, last, hpasses.cons hle hnext, fun policy => ?_⟩
        rw [evaluateCatchUp.eq_def, if_neg hstart]
        cases policy with
        | all => rw [catchUpAll, hpass, heq]; rfl
        | one => rw [catchUpOne, hnext]; simp only [Bind.bind, Except.bind, heq]; rfl
        | skip => rw [catchUpSkip, hpass, heq]; rfl
      · refine .inr ⟨error, hbreaks.cons hnext, fun policy => ?_⟩
        rw [evaluateCatchUp.eq_def, if_neg hstart]
        cases policy with
        | all => rw [catchUpAll, hpass, heq]; rfl
        | one => rw [catchUpOne, hnext]; simp only [Bind.bind, Except.bind, heq]
        | skip => rw [catchUpSkip, hpass, heq]; rfl
  · refine .inl ⟨[], start, ⟨.nil start, by simp, not_le.mp hle⟩, fun policy => ?_⟩
    rw [evaluateCatchUp.eq_def, if_pos (not_le.mp hle)]
    cases policy <;> rfl

/-- **Catch-up fires exactly the missed ticks.** Either the chain of the trigger passes `now`:
then a recovery fires all, the first or none of the instants of the chain up to `now`, which
increase strictly, and every policy leaves the first instant of the chain after `now`. Or the
trigger fails to advance at an instant of the chain up to `now`, and every policy fails with
that error. An interval's chain is arithmetic; a cron trigger's chain is the start and every
match after it. -/
theorem evaluateCatchUp_exact (library : TimeLibrary Cron) (trigger : TriggerSpec)
    (start now : Instant) (Matches : Instant → Prop) (hcron : CronMatches library trigger Matches) :
    (∃ ticks last, Ticks library trigger start ticks last ∧ (∀ tick ∈ ticks, tick ≤ now) ∧
        now < last ∧
        (ticks ++ [last]).Pairwise (· < ·) ∧
        (∀ policy, evaluateCatchUp library policy trigger start now =
            .ok ⟨firesOf policy ticks, last⟩) ∧
        (∀ period : ℕ, trigger = .interval period →
          ticks = (List.range ticks.length).map (fun k : ℕ => (start + k * period : ℤ)) ∧
            last = (start + ticks.length * period : ℤ)) ∧
        ∀ expression, trigger = .cron expression →
          (∀ tick, tick ∈ ticks ↔ tick ≤ now ∧ (tick = start ∨ start < tick ∧ Matches tick)) ∧
            IsLeast {instant | now < instant ∧
                (instant = start ∨ start < instant ∧ Matches instant)} last) ∨
      ∃ ticks stop error, Ticks library trigger start ticks stop ∧ stop ≤ now ∧
        nextFireTime library trigger stop = .error error ∧
        ∀ policy, evaluateCatchUp library policy trigger start now = .error error := by
  rcases evaluateCatchUp_cases library trigger now start with
    ⟨ticks, last, ⟨hticks, hmem, hlast⟩, heq⟩ | ⟨error, ⟨ticks, stop, hticks, hstop, herr⟩, heq⟩
  · refine .inl ⟨ticks, last, hticks, hmem, hlast, hticks.increasing, heq, ?_, ?_⟩
    · rintro period rfl
      exact hticks.interval
    · rintro expression rfl
      have hchain := hticks.cron hcron
      refine ⟨fun tick => ?_, ?_, ?_⟩
      · constructor
        · intro htick
          refine ⟨hmem tick htick, ?_⟩
          rcases (hchain tick).mp (List.mem_append_left _ htick) with heq | ⟨hlt, -, hmatch⟩
          · exact .inl heq
          · exact .inr ⟨hlt, hmatch⟩
        · rintro ⟨hle, hor⟩
          have hbef : tick < last := hle.trans_lt hlast
          have hin : tick ∈ ticks ++ [last] := by
            refine (hchain tick).mpr ?_
            rcases hor with heq | ⟨hlt, hmatch⟩
            · exact .inl heq
            · exact .inr ⟨hlt, hbef.le, hmatch⟩
          rcases List.mem_append.mp hin with hin | hin
          · exact hin
          · exact absurd (List.mem_singleton.mp hin) hbef.ne
      · refine ⟨hlast, ?_⟩
        rcases (hchain last).mp (by simp) with heq | ⟨hlt, -, hmatch⟩
        · exact .inl heq
        · exact .inr ⟨hlt, hmatch⟩
      · rintro instant ⟨hnow, hor⟩
        by_contra hbef
        have hlt : instant < last := not_le.mp hbef
        have hin : instant ∈ ticks ++ [last] := by
          refine (hchain instant).mpr ?_
          rcases hor with heq | ⟨hafter, hmatch⟩
          · exact .inl heq
          · exact .inr ⟨hafter, hlt.le, hmatch⟩
        rcases List.mem_append.mp hin with hin | hin
        · exact absurd (hmem instant hin) (not_le.mpr hnow)
        · exact absurd (List.mem_singleton.mp hin) hlt.ne
  · exact .inr ⟨ticks, stop, error, hticks, hstop, herr, heq⟩

/-- A minute, in nanoseconds. -/
def minute : ℤ := 60000000000

/-- A library that knows one expression, which matches every minute. -/
def everyMinute : TimeLibrary Unit where
  fromStr expression := if expression = "* * * * *" then .ok () else .error "unknown"
  nextAfter _ after := some ⟨((after / minute + 1) * minute : ℤ), by
    have h := Int.lt_ediv_add_one_mul_self after (show (0 : ℤ) < minute by decide)
    exact h⟩
  longest := 9223372036854775807
  latest := 9223372036854775807

theorem nextIsLeast_everyMinute : NextIsLeast everyMinute () fun instant => minute ∣ instant := by
  intro after
  refine ⟨⟨(everyMinute.nextAfter () after).get rfl |>.2, Int.dvd_mul_left _ _⟩, ?_⟩
  rintro instant ⟨hlt, k, rfl⟩
  have hpos : (0 : ℤ) < minute := by decide
  have hk : after / minute < k := by
    refine Int.ediv_lt_of_lt_mul hpos ?_
    rw [Int.mul_comm]
    exact hlt
  calc ((after / minute + 1) * minute : ℤ) ≤ k * minute := Int.mul_le_mul_of_nonneg_right hk hpos.le
    _ = minute * k := Int.mul_comm k minute

theorem evaluateCatchUp_exact_everyMinute :
    ∃ ticks last, (∀ policy, evaluateCatchUp everyMinute policy (.cron "* * * * *") 0 (3 * minute) =
        .ok ⟨firesOf policy ticks, last⟩) ∧
      ∀ tick, tick ∈ ticks ↔ tick ≤ 3 * minute ∧ (tick = 0 ∨ 0 < tick ∧ minute ∣ tick) := by
  rcases evaluateCatchUp_exact everyMinute (.cron "* * * * *") 0 (3 * minute) (fun instant =>
    minute ∣ instant)
      (fun _ _ _ _ => nextIsLeast_everyMinute) with
    ⟨ticks, last, -, -, -, -, heq, -, hcron⟩ | ⟨ticks, stop, error, -, -, herr, -⟩
  · exact ⟨ticks, last, heq, (hcron "* * * * *" rfl).1⟩
  · have hparse : parseCronExpression everyMinute "* * * * *" = .ok () := by decide
    rw [nextFireTime, hparse] at herr
    cases herr

end Aion.Schedule
