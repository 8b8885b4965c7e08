import Chip8.Machine.State

namespace Chip8

open Time

namespace Machine

variable {κ τ : Type} [Measure τ] [Clock κ τ]

def readClock (m : Machine κ τ) : τ × Machine κ τ :=
  let (now, clock) := Clock.read m.clock
  (now, { m with clock })

def trace (m : Machine κ τ) : Machine κ τ :=
  if m.settings.tracing then
    m.log ⟨.debug, .machine, "PC=" ++ Text.hex 4 m.processor.pc ++ " " ++
      Text.hex 4 m.processor.fetch ++ " " ++ m.processor.current⟩
  else m

def publishIfRedrawn (m : Machine κ τ) : Machine κ τ :=
  if m.processor.redrawn then m.publish else m

def measure (m : Machine κ τ) : Machine κ τ × Option CountFault :=
  match m.meter with
  | none => (m, none)
  | some meter =>
    let (now, m) := m.readClock
    match meter.record now with
    | (meter, .error fault) => ({ m with meter := some meter }, some fault)
    | (meter, .ok none) => ({ m with meter := some meter }, none)
    | (meter, .ok (some rate)) =>
      ({ m with meter := some meter }.log ⟨.info, .machine, RateMeter.rateText rate⟩, none)

def elapsed (m : Machine κ τ) (now : τ) : τ :=
  match m.lastStep with
  | none => 0
  | some last => Measure.milliseconds (now - last)

def stepProcessor (m : Machine κ τ) (elapsed : τ) : Machine κ τ × Option StepFault :=
  match m.processor.step elapsed with
  | (processor, some fault) => ({ m with processor }, some fault)
  | (processor, none) => ({ m.logAll m.processor.remark?.toList with processor }, none)

def step (m : Machine κ τ) : Machine κ τ × Except StepFault Bool :=
  if m.processor.finished then (m, .ok false)
  else
    let elapsed := m.elapsed m.readClock.1
    let m := { m.readClock.2 with lastStep := some m.readClock.1 }.trace
    match m.stepProcessor elapsed with
    | (m, some fault) => (m, .error fault)
    | (m, none) =>
      match m.publishIfRedrawn.measure with
      | (m, some fault) => (m, .error (.clock fault))
      | (m, none) =>
        let m := m.observers.foldl notify m
        (m, .ok !m.processor.finished)

end Machine

structure Run (κ τ : Type) where
  machine : Machine κ τ
  steps : Nat
  deadline : τ

inductive Turn (κ τ : Type) where
  | going (run : Run κ τ)
  | stopped (machine : Machine κ τ) (reason : StopReason)
  | failed (machine : Machine κ τ) (fault : StepFault)

namespace Run

variable {κ τ : Type} [Measure τ] [Clock κ τ]

def start (m : Machine κ τ) : Run κ τ :=
  let (now, m) := m.readClock
  ⟨m, 0, now⟩

def reason? (r : Run κ τ) (max : Option Int) : Option StopReason :=
  if r.machine.processor.finished then some .finished
  else if r.machine.stopping then some .stopped
  else if max.any (fun n => n ≤ (r.steps : Int)) then some .maxSteps
  -- a breakpoint does not stop the first step
  else if 0 < r.steps ∧ (r.machine.processor.pc : Int) ∈ r.machine.breakpoints then some .breakpoint
  else none

def pace (r : Run κ τ) : Run κ τ :=
  let period : τ := Measure.period r.machine.settings.stepsPerSecond
  let deadline := r.deadline + period
  let (now, m) := r.machine.readClock
  let delay := deadline - now
  if 0 < delay then { r with machine := { m with clock := Clock.sleep m.clock delay }, deadline }
  -- more than one period late, the run starts afresh
  else if delay < -period then
    let (now, m) := m.readClock
    { r with machine := m, deadline := now }
  else { r with machine := m, deadline }

def noteStop (m : Machine κ τ) (reason : StopReason) : Machine κ τ :=
  if reason = .breakpoint then
    m.log ⟨.info, .machine, "Breakpoint hit at 0x" ++ Text.hex 3 m.processor.pc⟩
  else m

def turn (r : Run κ τ) (max : Option Int) (throttle : Bool) : Turn κ τ :=
  match r.reason? max with
  | some reason => .stopped (noteStop r.machine reason) reason
  | none =>
    match r.machine.step with
    | (m, .error fault) => .failed m fault
    | (m, .ok _) =>
      let r := { r with machine := m, steps := r.steps + 1 }
      .going (if throttle then r.pace else r)

def finish (max : Option Int) (throttle : Bool) : Nat → Run κ τ →
    Option (Machine κ τ × Except StepFault StopReason)
  | 0, _ => none
  | fuel + 1, r =>
    match r.turn max throttle with
    | .going r => r.finish max throttle fuel
    | .stopped m reason => some (m, .ok reason)
    | .failed m fault => some (m, .error fault)

end Run

def Machine.run {κ τ : Type} [Measure τ] [Clock κ τ] (m : Machine κ τ) (fuel : Nat)
    (max : Option Int) (throttle : Bool) : Option (Machine κ τ × Except StepFault StopReason) :=
  (Run.start m).finish max throttle fuel

end Chip8
