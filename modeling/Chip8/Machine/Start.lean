import Chip8.Machine.Run

namespace Chip8

open Time

/-- How the window and the program beside it take turns: before every look at the window the run
makes so many turns, then the events arrive. The closing events arrive one look at a time after the
program has ended. -/
structure Viewing where
  screen : Bool := true
  looks : List (Nat × List WindowEvent) := []
  closing : List (List WindowEvent) := []

namespace Machine

variable {κ τ : Type} [Measure τ] [Clock κ τ]

inductive Program (κ τ : Type) where
  | running (run : Run κ τ)
  | ended (machine : Machine κ τ)

def conclude (m : Machine κ τ) : Except StepFault StopReason → Machine κ τ
  | .ok reason => m.log ⟨.debug, .machine, "Execution loop ended: " ++ reason.name⟩
  | .error fault =>
    if fault.isProgramFault then
      { m.log ⟨.error, .machine, "Execution error: " ++ fault.message⟩ with failure := some fault }
    else m

namespace Program

def advance (max : Option Int) : Nat → Program κ τ → Program κ τ
  | 0, p => p
  | _ + 1, ended m => ended m
  | n + 1, running r =>
    match r.turn max true with
    | .going r => advance max n (running r)
    | .stopped m reason => ended (m.conclude (.ok reason))
    | .failed m fault => ended (m.conclude (.error fault))

def machine : Program κ τ → Machine κ τ
  | running r => r.machine
  | ended m => m

def withMachine : Program κ τ → Machine κ τ → Program κ τ
  | running r, m => running { r with machine := m }
  | ended _, m => ended m

end Program

def look (m : Machine κ τ) (events : List WindowEvent) : Machine κ τ × Bool :=
  match m.window with
  | none => (m, false)
  | some window =>
    let (window, calls, stays) := window.update events m.frame
    ({ m.drawAll calls with window := some window }, stays)

def watch (max : Option Int) : List (Nat × List WindowEvent) → Program κ τ → Program κ τ × Bool
  | [], p => (p, true)
  | (turns, events) :: rest, p =>
    match p.advance max turns with
    | .ended m => (.ended m, true)
    | .running r =>
      match r.machine.look events with
      | (m, true) => watch max rest (.running { r with machine := m })
      | (m, false) => (.running { r with machine := m }, false)

def keepOpen : List (List WindowEvent) → Machine κ τ → Option (Machine κ τ)
  | [], _ => none
  | events :: rest, m =>
    match m.look events with
    | (m, true) => keepOpen rest m
    | (m, false) => some m

def outcome (m : Machine κ τ) : Machine κ τ × Except Failure Unit :=
  match m.failure with
  | some fault => (m, .error (.step fault))
  | none => (m, .ok ())

def conclusion (p : Program κ τ) (fuel : Nat) (max : Option Int) : Option (Machine κ τ) :=
  match p.advance max fuel with
  | .running _ => none
  | .ended m => some m

def afterwards (m : Machine κ τ) (closing : List (List WindowEvent)) : Option (Machine κ τ) :=
  if m.failure.isNone ∧ m.settings.keepOpen then
    keepOpen closing (m.say "Program finished. Close the window or press 'q' to exit.")
  else some m

def startWindowed (m : Machine κ τ) (window : Window) (fuel : Nat) (max : Option Int)
    (viewing : Viewing) : Option (Machine κ τ × Except Failure Unit) :=
  let (window, calls, opened) := window.openOn viewing.screen
  let m := { m.drawAll calls with window := some window }
  if !opened then some (m.log Window.failure, .error (.machine .noWindow))
  else do
    let program := Program.running (Run.start { m with stopping := false })
    match watch max viewing.looks program with
    | (program, true) =>
      let m ← conclusion program fuel max
      let m ← m.afterwards viewing.closing
      return m.stop.outcome
    | (program, false) =>
      let m ← conclusion (program.withMachine program.machine.stop) fuel max
      return m.stop.outcome

def start (m : Machine κ τ) (fuel : Nat) (max : Option Int) (viewing : Viewing) :
    Option (Machine κ τ × Except Failure Unit) :=
  match m.window with
  | some window => m.startWindowed window fuel max viewing
  | none =>
    (m.run fuel max true).map (fun (m, result) =>
      (m, match result with
        | .ok _ => .ok ()
        | .error fault => .error (.step fault)))

end Machine

end Chip8
