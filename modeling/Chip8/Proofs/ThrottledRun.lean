import Mathlib.Tactic.Linarith
import Chip8.Machine.Load
import Chip8.Proofs.ExactTime
import Chip8.Proofs.MachineSteps

namespace Chip8

open Time

/-- Time never goes back on a clock that stands at `now`, and a wait lasts as long as was asked for or
longer. Time may pass before a reading. -/
structure Clock.Forward {κ : Type} [Clock κ ℚ] (now : κ → ℚ) : Prop where
  le_read : ∀ c, now c ≤ (Clock.read c).1
  read_le : ∀ c, (Clock.read c).1 ≤ now (Clock.read c).2
  le_sleep : ∀ c d, 0 < d → now c + d ≤ now (Clock.sleep c d)

structure DelayedClock where
  now : ℚ
  delays : List Nat

namespace DelayedClock

def pass (c : DelayedClock) (time : ℚ) : DelayedClock :=
  ⟨c.now + time + c.delays.headD 0 / 1000, c.delays.tail⟩

theorem le_pass (c : DelayedClock) (time : ℚ) : c.now + time ≤ (c.pass time).now :=
  le_add_of_nonneg_right (div_nonneg (Nat.cast_nonneg _) (by norm_num))

instance clock : Clock DelayedClock ℚ where
  read c := ((c.pass 0).now, c.pass 0)
  sleep c duration := c.pass duration

theorem forward : Clock.Forward DelayedClock.now where
  le_read c := by
    have hpass := c.le_pass 0
    rwa [add_zero] at hpass
  read_le c := le_refl _
  le_sleep c duration _ := c.le_pass duration

end DelayedClock

namespace Run

variable {κ τ : Type} [Measure τ] [Clock κ τ]

def completed (max : Option Int) : Nat → Run κ τ → Option (Run κ τ)
  | 0, r => some r
  | n + 1, r =>
    match r.turn max true with
    | .going next => next.completed max n
    | _ => none

def arrival (r : Run κ τ) : τ := r.machine.step.1.readClock.1

def period (r : Run κ τ) : τ := Measure.period r.machine.settings.stepsPerSecond

theorem eq_pace_of_turn {r next : Run κ τ} {max : Option Int} (h : r.turn max true = .going next) :
    next = { r with machine := r.machine.step.1, steps := r.steps + 1 : Run κ τ }.pace := by
  rw [turn] at h
  cases hreason : r.reason? max with
  | some reason =>
    rw [hreason] at h
    cases h
  | none =>
    rw [hreason] at h
    rcases hstep : r.machine.step with ⟨m, fault | more⟩
    · rw [hstep] at h
      cases h
    · rw [hstep] at h
      cases h
      rfl

def delay (r : Run κ τ) : τ := r.deadline + r.period - r.machine.readClock.1

inductive Paces (r : Run κ τ) : τ → κ → Prop
  | waited (early : 0 < r.delay) :
    Paces r (r.deadline + r.period) (Clock.sleep (Clock.read r.machine.clock).2 r.delay)
  | restarted (unmet : ¬0 < r.delay) (behind : r.delay < -r.period) :
    Paces r (Clock.read (Clock.read r.machine.clock).2).1
      (Clock.read (Clock.read r.machine.clock).2).2
  | unhurried (unmet : ¬0 < r.delay) (near : ¬r.delay < -r.period) :
    Paces r (r.deadline + r.period) (Clock.read r.machine.clock).2

theorem paces_pace (r : Run κ τ) : r.Paces r.pace.deadline r.pace.machine.clock := by
  simp only [pace]
  split_ifs with hearly hbehind
  · exact .waited hearly
  · exact .restarted hearly hbehind
  · exact .unhurried hearly hbehind

theorem completed_succ_eq_some {max : Option Int} {n : Nat} {r s : Run κ τ} :
    r.completed max (n + 1) = some s ↔
      ∃ next, r.turn max true = .going next ∧ next.completed max n = some s := by
  rw [completed]
  cases r.turn max true with
  | going next =>
    constructor
    · exact fun h => ⟨next, rfl, h⟩
    · rintro ⟨next, hturn, h⟩
      cases hturn
      exact h
  | stopped m reason =>
    constructor
    · intro h
      cases h
    · rintro ⟨next, hturn, -⟩
      cases hturn
  | failed m fault =>
    constructor
    · intro h
      cases h
    · rintro ⟨next, hturn, -⟩
      cases hturn

theorem completed_add {max : Option Int} {n : Nat} {r s : Run κ τ}
    (h : r.completed max n = some s) (more : Nat) :
    r.completed max (n + more) = s.completed max more := by
  induction n generalizing r with
  | zero =>
    cases h
    rw [Nat.zero_add]
  | succ n ih =>
    obtain ⟨next, hturn, hrest⟩ := completed_succ_eq_some.mp h
    rw [Nat.succ_add, completed, hturn]
    exact ih hrest

theorem finish_eq_some_iff {max : Option Int} {r : Run κ τ}
    {outcome : Machine κ τ × Except StepFault StopReason} :
    (∃ fuel, r.finish max true fuel = some outcome) ↔
      ∃ n s, r.completed max n = some s ∧ s.finish max true 1 = some outcome := by
  constructor
  · rintro ⟨fuel, h⟩
    induction fuel generalizing r with
    | zero => cases h
    | succ fuel ih =>
      cases hturn : r.turn max true with
      | going next =>
        rw [finish, hturn] at h
        obtain ⟨n, s, hcompleted, hend⟩ := ih h
        exact ⟨n + 1, s, completed_succ_eq_some.mpr ⟨next, hturn, hcompleted⟩, hend⟩
      | stopped m reason =>
        refine ⟨0, r, rfl, ?_⟩
        rw [finish, hturn] at h ⊢
        exact h
      | failed m fault =>
        refine ⟨0, r, rfl, ?_⟩
        rw [finish, hturn] at h ⊢
        exact h
  · rintro ⟨n, s, hcompleted, hend⟩
    refine ⟨n + 1, ?_⟩
    induction n generalizing r with
    | zero =>
      cases hcompleted
      exact hend
    | succ n ih =>
      obtain ⟨next, hturn, hrest⟩ := completed_succ_eq_some.mp hcompleted
      rw [finish, hturn]
      exact ih hrest

end Run

namespace Run

variable {κ : Type}

theorem period_nonneg (r : Run κ ℚ) : 0 ≤ r.period :=
  div_nonneg zero_le_one (Nat.cast_nonneg _)

variable [Clock κ ℚ] {now : κ → ℚ} {max : Option Int} {r s : Run κ ℚ}

theorem pace_bounds (h : Clock.Forward now) (r : Run κ ℚ) :
    r.deadline + r.period ≤ r.pace.deadline ∧
      r.machine.readClock.1 - r.period ≤ r.pace.deadline ∧
      r.pace.deadline ≤ now r.pace.machine.clock := by
  have hperiod := r.period_nonneg
  have hdelay : r.delay = r.deadline + r.period - r.machine.readClock.1 := rfl
  have hread : r.machine.readClock.1 ≤ now (Clock.read r.machine.clock).2 := h.read_le _
  have hpaces := r.paces_pace
  generalize r.pace.deadline = deadline at hpaces
  generalize r.pace.machine.clock = clock at hpaces
  cases hpaces with
  | waited early =>
    have hslept := h.le_sleep (Clock.read r.machine.clock).2 r.delay early
    exact ⟨le_refl _, by linarith, by linarith⟩
  | restarted unmet behind =>
    have hagain := h.le_read (Clock.read r.machine.clock).2
    exact ⟨by linarith, by linarith, h.read_le _⟩
  | unhurried unmet near =>
    exact ⟨le_refl _, by linarith, by linarith⟩

theorem turn_bounds (h : Clock.Forward now) {next : Run κ ℚ}
    (hturn : r.turn max true = .going next) :
    next.period = r.period ∧ r.deadline + r.period ≤ next.deadline ∧
      r.arrival - r.period ≤ next.deadline ∧ next.deadline ≤ now next.machine.clock := by
  obtain rfl := eq_pace_of_turn hturn
  let stepped : Run κ ℚ := { r with machine := r.machine.step.1, steps := r.steps + 1 }
  have hstep : stepped.machine.settings = r.machine.settings := by
    rw [r.machine.step_alike.settings, Machine.bareStep_eq]
  have hperiod : stepped.period = r.period := by rw [period, hstep, period]
  have hpaced : stepped.pace.period = r.period := by
    rw [period, stepped.pace_alike.settings, hstep, period]
  have hbounds := stepped.pace_bounds h
  rw [hperiod] at hbounds
  exact ⟨hpaced, hbounds⟩

theorem completed_bounds (h : Clock.Forward now) {n : Nat} (hr : r.deadline ≤ now r.machine.clock)
    (hcompleted : r.completed max n = some s) :
    s.period = r.period ∧ r.deadline + n * r.period ≤ s.deadline ∧
      s.deadline ≤ now s.machine.clock := by
  induction n generalizing r with
  | zero =>
    cases hcompleted
    refine ⟨rfl, ?_, hr⟩
    rw [Nat.cast_zero, zero_mul, add_zero]
  | succ n ih =>
    obtain ⟨next, hturn, hrest⟩ := completed_succ_eq_some.mp hcompleted
    obtain ⟨hperiod, hmoved, -, hreached⟩ := turn_bounds h hturn
    obtain ⟨hkept, hlater, hclock⟩ := ih hreached hrest
    rw [hperiod] at hkept hlater
    refine ⟨hkept, ?_, hclock⟩
    push_cast
    linarith

end Run

namespace Machine

variable {κ : Type} [Clock κ ℚ] {now : κ → ℚ}

theorem period_start {m : Machine κ ℚ} (h : 0 < m.settings.speed) :
    (Run.start m).period = 1 / (100 * m.settings.speed) := by
  have hsteps : ((m.settings.speed * 100).toNat : ℤ) = m.settings.speed * 100 :=
    Int.toNat_of_nonneg (by omega)
  have hcast : ((m.settings.speed * 100).toNat : ℚ) = m.settings.speed * 100 := by
    exact_mod_cast congrArg (Int.cast : ℤ → ℚ) hsteps
  show 1 / ((m.settings.speed * 100).toNat : ℚ) = _
  rw [hcast, mul_comm]

/-- A throttled run never catches up in a burst. On any clock that does not go back, the steps that a
run has completed take a period each or more, and so do those after any of its steps, however late
that step came. The steps of a run are those that it completes before the turn that ends it. -/
theorem throttled_never_bursts (h : Clock.Forward now) {m : Machine κ ℚ}
    (speed : 0 < m.settings.speed) (max : Option Int) :
    (∀ n r, (Run.start m).completed max n = some r →
      m.readClock.1 + n * (1 / (100 * m.settings.speed)) ≤ now r.machine.clock) ∧
    (∀ i j r s, i + 1 < j → (Run.start m).completed max i = some r →
      (Run.start m).completed max j = some s →
        r.arrival + (j - (i + 1) - 1) * (1 / (100 * m.settings.speed)) ≤ now s.machine.clock) ∧
    ∀ outcome, (∃ fuel, m.run fuel max true = some outcome) ↔
      ∃ n r, (Run.start m).completed max n = some r ∧ r.finish max true 1 = some outcome := by
  have hstart : (Run.start m).deadline ≤ now (Run.start m).machine.clock := h.read_le m.clock
  rw [← period_start speed]
  refine ⟨?_, ?_, fun outcome => Run.finish_eq_some_iff⟩
  · intro n r hr
    obtain ⟨-, hlater, hclock⟩ := Run.completed_bounds h hstart hr
    exact hlater.trans hclock
  · intro i j r s hij hr hs
    obtain ⟨hkept, -⟩ := Run.completed_bounds h hstart hr
    obtain ⟨more, rfl⟩ : ∃ more, j = i + (more + 1) := ⟨j - i - 1, by omega⟩
    rw [Run.completed_add hr, Run.completed_succ_eq_some] at hs
    obtain ⟨next, hturn, hrest⟩ := hs
    obtain ⟨hperiod, -, harrived, hreached⟩ := Run.turn_bounds h hturn
    obtain ⟨-, hlater, hclock⟩ := Run.completed_bounds h hreached hrest
    rw [hperiod] at hlater
    rw [← hkept]
    push_cast
    linarith

theorem throttled_never_bursts_late : ∃ (m : Machine DelayedClock ℚ) (r s : Run DelayedClock ℚ),
    m.settings.speed = 10 ∧ (Run.start m).completed none 1 = some r ∧ r.arrival = 0.006 ∧
    (Run.start m).completed none 4 = some s ∧ 0.004 ≤ s.machine.clock.now ∧
    0.007 ≤ s.machine.clock.now := by
  let f : Machine DelayedClock ℚ :=
    (new { speed := 10, windowed := false, seed := some 7 } ⟨0, [0, 0, 0, 0, 5]⟩ default).toOption.get rfl
  let m := (f.loadRom [0x12, 0x00]).1
  obtain ⟨harrival, hends⟩ : ((Run.start m).completed none 1).map Run.arrival = some 0.006 ∧
      ((Run.start m).completed none 4).isSome = true := by decide +kernel
  obtain ⟨r, hr, harrival⟩ := Option.map_eq_some_iff.mp harrival
  obtain ⟨s, hs⟩ := Option.isSome_iff_exists.mp hends
  obtain ⟨hfirst, hlater, -⟩ :=
    throttled_never_bursts DelayedClock.forward (show 0 < m.settings.speed by decide) none
  have hspeed : m.settings.speed = 10 := rfl
  have hread : m.readClock.1 = 0 := by decide +kernel
  have hstart := hfirst 4 s hs
  have hlater := hlater 1 4 r s (by decide) hr hs
  rw [hspeed, hread] at hstart
  rw [hspeed, harrival] at hlater
  refine ⟨m, r, s, hspeed, hr, harrival, hs, ?_, ?_⟩
  · norm_num at hstart ⊢
    exact hstart
  · norm_num at hlater ⊢
    exact hlater

end Machine

end Chip8
