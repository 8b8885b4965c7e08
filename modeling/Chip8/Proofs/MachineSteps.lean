import Chip8.Machine.Run
import Chip8.Proofs.StepEffects

namespace Chip8

open Time

namespace Machine

variable {κ τ : Type}

structure Alike (m n : Machine κ τ) : Prop where
  settings : n.settings = m.settings
  processor : n.processor = m.processor
  window : n.window = m.window
  frame : n.frame = m.frame
  failure : n.failure = m.failure
  breakpoints : n.breakpoints = m.breakpoints
  observers : n.observers = m.observers

namespace Alike

variable {m n k : Machine κ τ}

theorem refl (m : Machine κ τ) : m.Alike m := ⟨rfl, rfl, rfl, rfl, rfl, rfl, rfl⟩

theorem trans (h : m.Alike n) (h' : n.Alike k) : m.Alike k :=
  ⟨h'.settings.trans h.settings, h'.processor.trans h.processor, h'.window.trans h.window,
    h'.frame.trans h.frame, h'.failure.trans h.failure, h'.breakpoints.trans h.breakpoints,
    h'.observers.trans h.observers⟩

theorem trace (h : m.Alike n) : m.Alike n.trace := by
  rw [Machine.trace]
  split_ifs
  · exact { h with }
  · exact h

theorem publish (h : m.Alike n) : m.publish.Alike n.publish where
  frame := by
    show n.publish.frame = m.publish.frame
    simp only [Machine.publish, h.processor, h.frame]
  settings := h.settings
  processor := h.processor
  window := h.window
  failure := h.failure
  breakpoints := h.breakpoints
  observers := h.observers

theorem publishIfRedrawn (h : m.Alike n) : m.publishIfRedrawn.Alike n.publishIfRedrawn := by
  simp only [Machine.publishIfRedrawn, h.processor]
  split_ifs
  · exact h.publish
  · exact h

theorem notify (h : m.Alike n) (o : Observer) : m.Alike (notify n o) := by
  cases o with
  | recorder => exact { h with }
  | limiter executed =>
    rw [Machine.notify]
    split_ifs
    · exact { h with }
    · exact h

theorem foldl_notify (h : m.Alike n) (observers : List Observer) :
    m.Alike (observers.foldl Machine.notify n) := by
  induction observers generalizing n with
  | nil => exact h
  | cons o rest ih => exact ih (h.notify o)

variable [Measure τ]

theorem stepProcessor (h : m.Alike n) (elapsed : τ) :
    Alike { m with processor := (m.processor.step elapsed).1 } (n.stepProcessor elapsed).1 ∧
      (n.stepProcessor elapsed).2 = (m.processor.step elapsed).2 := by
  rw [Machine.stepProcessor, h.processor]
  rcases m.processor.step elapsed with ⟨q, _ | fault⟩
  · exact ⟨{ h with processor := rfl }, rfl⟩
  · exact ⟨{ h with processor := rfl }, rfl⟩

theorem measure [Clock κ τ] (h : m.Alike n) : m.Alike n.measure.1 := by
  simp only [Machine.measure]
  split
  · exact h
  · split <;> exact { h with }

end Alike

variable [Clock κ τ]

def prepared (m : Machine κ τ) : Machine κ τ :=
  { m.readClock.2 with lastStep := some m.readClock.1 }.trace

theorem prepared_alike (m : Machine κ τ) : m.Alike m.prepared := by
  apply Alike.trace
  exact ⟨rfl, rfl, rfl, rfl, rfl, rfl, rfl⟩

variable [Measure τ]

def next (m : Machine κ τ) : Processor τ × Option StepFault :=
  m.processor.step (m.elapsed m.readClock.1)

def bareStep (m : Machine κ τ) : Machine κ τ :=
  if m.next.2 = none then { m with processor := m.next.1 }.publishIfRedrawn
  else { m with processor := m.next.1 }

theorem bareStep_eq (m : Machine κ τ) :
    m.bareStep = { m with processor := m.next.1, frame := m.bareStep.frame } := by
  simp only [bareStep, publishIfRedrawn]
  split_ifs <;> rfl

theorem step_of_unfinished {m : Machine κ τ} (h : m.processor.finished = false) :
    m.step = match m.prepared.stepProcessor (m.elapsed m.readClock.1) with
      | (n, some fault) => (n, .error fault)
      | (n, none) =>
        match n.publishIfRedrawn.measure with
        | (n, some fault) => (n, .error (.clock fault))
        | (n, none) =>
          let n := n.observers.foldl notify n
          (n, .ok !n.processor.finished) := by
  rw [step, if_neg (by simp [h])]
  rfl

theorem step_alike (m : Machine κ τ) : m.bareStep.Alike m.step.1 := by
  cases hf : m.processor.finished with
  | true =>
    have hnext : m.next = (m.processor, some .halted) := Processor.step_of_finished hf
    rw [step, if_pos hf, bareStep, hnext]
    exact .refl m
  | false =>
    obtain ⟨halike, hfault⟩ := m.prepared_alike.stepProcessor (m.elapsed m.readClock.1)
    rw [step_of_unfinished hf]
    rcases hstepped : m.prepared.stepProcessor (m.elapsed m.readClock.1) with ⟨n, _ | fault⟩
    · rw [hstepped] at halike hfault
      have hnone : m.next.2 = none := hfault.symm
      have hmeasured := halike.publishIfRedrawn.measure
      rw [bareStep, if_pos hnone]
      rcases hresult : n.publishIfRedrawn.measure with ⟨k, _ | fault⟩
      · rw [hresult] at hmeasured
        simp only [hresult]
        exact hmeasured.foldl_notify k.observers
      · rw [hresult] at hmeasured
        simp only [hresult]
        exact hmeasured
    · rw [hstepped] at halike hfault
      have hsome : m.next.2 = some fault := hfault.symm
      rw [bareStep, if_neg (by rw [hsome]; exact Option.some_ne_none fault)]
      exact halike

end Machine

namespace Processor

variable {τ : Type} [Measure τ]

def instruction? (p : Processor τ) (elapsed : τ) : Option Mnemonic :=
  match (p.step elapsed).2 with
  | none => (Instruction.decode p.fetch).map Instruction.mnemonic
  | some _ => none

end Processor

namespace Machine

variable {κ τ : Type} [Measure τ] [Clock κ τ]

def instruction? (m : Machine κ τ) : Option Mnemonic :=
  m.processor.instruction? (m.elapsed m.readClock.1)

inductive Passes : Machine κ τ → List Mnemonic → Machine κ τ → Prop
  | refl (m : Machine κ τ) : Passes m [] m
  | alike {m n k : Machine κ τ} {ms : List Mnemonic} (alike : m.Alike n) (passes : Passes n ms k) :
    Passes m ms k
  | step {m n : Machine κ τ} {ms : List Mnemonic} (passes : Passes m.bareStep ms n) :
    Passes m (m.instruction?.toList ++ ms) n

theorem Passes.of_alike {m n : Machine κ τ} (h : m.Alike n) : Passes m [] n := .alike h (.refl n)

theorem Passes.kept {m n : Machine κ τ} {ms : List Mnemonic} (h : m.Passes ms n) :
    n.settings = m.settings ∧ n.failure = m.failure ∧ n.breakpoints = m.breakpoints := by
  induction h with
  | refl m => exact ⟨rfl, rfl, rfl⟩
  | alike halike _ ih =>
    obtain ⟨hsettings, hfailure, hbreakpoints⟩ := ih
    exact ⟨hsettings.trans halike.settings, hfailure.trans halike.failure,
      hbreakpoints.trans halike.breakpoints⟩
  | step _ ih => rwa [bareStep_eq] at ih

theorem passes_step (m : Machine κ τ) : Passes m m.instruction?.toList m.step.1 := by
  have h : Passes m (m.instruction?.toList ++ []) m.step.1 := .step (.of_alike m.step_alike)
  rwa [List.append_nil] at h

end Machine

namespace Run

variable {κ τ : Type}

theorem noteStop_alike (m : Machine κ τ) (reason : StopReason) : m.Alike (noteStop m reason) := by
  rw [noteStop]
  split_ifs <;> exact ⟨rfl, rfl, rfl, rfl, rfl, rfl, rfl⟩

variable [Measure τ] [Clock κ τ]

theorem pace_alike (r : Run κ τ) : r.machine.Alike r.pace.machine := by
  simp only [pace]
  split_ifs <;> exact ⟨rfl, rfl, rfl, rfl, rfl, rfl, rfl⟩

inductive Turns (r : Run κ τ) (max : Option Int) : Turn κ τ → Prop
  | stopped {n : Machine κ τ} {reason : StopReason} (stopped : r.reason? max = some reason)
    (alike : r.machine.Alike n) : Turns r max (.stopped n reason)
  | failed {n : Machine κ τ} {fault : StepFault} (unstopped : r.reason? max = none)
    (alike : r.machine.bareStep.Alike n) : Turns r max (.failed n fault)
  | going {next : Run κ τ} (unstopped : r.reason? max = none)
    (alike : r.machine.bareStep.Alike next.machine) : Turns r max (.going next)

theorem turns_turn (r : Run κ τ) (max : Option Int) (throttle : Bool) :
    r.Turns max (r.turn max throttle) := by
  cases hreason : r.reason? max with
  | some reason =>
    rw [turn, hreason]
    exact .stopped hreason (noteStop_alike r.machine reason)
  | none =>
    have hstep := r.machine.step_alike
    rw [turn, hreason]
    rcases hstepped : r.machine.step with ⟨n, fault | going⟩
    · rw [hstepped] at hstep
      exact .failed hreason hstep
    · rw [hstepped] at hstep
      have hgoing : r.machine.bareStep.Alike n := hstep
      apply Turns.going hreason
      split_ifs
      · exact hgoing.trans (pace_alike ⟨n, r.steps + 1, r.deadline⟩)
      · exact hgoing

def instructions (max : Option Int) (throttle : Bool) : Nat → Run κ τ → List Mnemonic
  | 0, _ => []
  | fuel + 1, r =>
    match r.reason? max with
    | some _ => []
    | none =>
      r.machine.instruction?.toList ++
        match r.turn max throttle with
        | .going next => next.instructions max throttle fuel
        | _ => []

theorem passes_finish {r : Run κ τ} {max : Option Int} {throttle : Bool} {fuel : Nat}
    {m : Machine κ τ} {result : Except StepFault StopReason}
    (h : r.finish max throttle fuel = some (m, result)) :
    r.machine.Passes (r.instructions max throttle fuel) m := by
  induction fuel generalizing r with
  | zero => cases h
  | succ fuel ih =>
    have hturns := r.turns_turn max throttle
    rw [finish] at h
    rw [instructions]
    generalize r.turn max throttle = turn at h hturns ⊢
    cases hturns with
    | stopped hreason halike =>
      cases h
      rw [hreason]
      exact .of_alike halike
    | failed hreason halike =>
      cases h
      rw [hreason]
      exact .step (.of_alike halike)
    | going hreason halike =>
      rw [hreason]
      exact .step (.alike halike (ih h))

end Run

theorem Machine.passes_run {κ τ : Type} [Measure τ] [Clock κ τ] {m n : Machine κ τ} {fuel : Nat}
    {max : Option Int} {throttle : Bool} {result : Except StepFault StopReason}
    (h : m.run fuel max throttle = some (n, result)) :
    m.Passes ((Run.start m).instructions max throttle fuel) n := by
  have hstart : m.Alike (Run.start m).machine := ⟨rfl, rfl, rfl, rfl, rfl, rfl, rfl⟩
  exact .alike hstart (Run.passes_finish h)

end Chip8
