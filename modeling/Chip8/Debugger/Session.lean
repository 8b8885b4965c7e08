import Chip8.Debugger.Command
import Chip8.Debugger.Display
import Chip8.Machine.Load
import Chip8.Machine.Run

namespace Chip8.Debugger

open Text Time

structure Session (κ τ : Type) where
  seed : Option Int
  seedless : Bool := false
  machine : Option (Machine κ τ)
  clock : κ
  entropy : Entropy
  program : Option Text
  dumpAddress : Int := Memory.programStart
  dumpCount : Int := 16

structure Answer where
  printed : List Item := []
  written : String := ""
  quits : Bool := false
  failure : Option Failure := none
  logged : List LogEntry := []

namespace Session

variable {κ τ : Type} [Measure τ] [Clock κ τ]

def new (seed : Option Int) (clock : κ) (entropy : Entropy) : Session κ τ :=
  { seed, machine := none, clock, entropy, program := none }

def currentClock (s : Session κ τ) : κ := (s.machine.map Machine.clock).getD s.clock

def currentEntropy (s : Session κ τ) : Entropy := (s.machine.map Machine.entropy).getD s.entropy

def withClock (s : Session κ τ) (clock : κ) : Session κ τ :=
  { s with clock, machine := s.machine.map (fun m => { m with clock }) }

def settings (s : Session κ τ) : Settings :=
  { windowed := false, seed := s.seed }

def reported? : Failure → Option String
  | .machine e => some e.message
  | .storage (.refused cause path) => some (Storage.Fault.refused cause path).message
  | _ => none

/-- A load builds a new machine. If the file cannot be had or does not assemble, no machine is left;
if its text cannot be read, the new machine is left without a program. -/
def load (s : Session κ τ) (files : Storage.Files) (name : Text) : Session κ τ × Answer :=
  if name = [] then (s, { printed := [red "Error: Please specify a filename"] })
  else
    let s := { s with clock := s.currentClock, entropy := s.currentEntropy }
    if s.seedless then (s, { failure := some .valueless }) else
    match Machine.new s.settings s.clock s.entropy with
    | .error e => ({ s with machine := none }, { failure := some (.machine e) })
    | .ok machine =>
      let (m, result) := machine.loadProgram files name
      let (logged, m) := m.takeLog
      match result with
      | .ok () =>
        ({ s with machine := some m, program := some name },
          { printed := [green ("Program loaded: " ++ String.ofList name), statusPanel m], logged })
      | .error e =>
        match reported? e with
        | some message =>
          ({ s with machine := none, entropy := m.entropy },
            { printed := [red ("Error loading program: " ++ message)], logged })
        | none => ({ s with machine := some m }, { failure := some e, logged })

def reload (s : Session κ τ) (files : Storage.Files) : Session κ τ × Answer :=
  match s.program with
  | none => (s, { printed := [red "No program loaded"] })
  | some name =>
    let kept := (s.machine.map Machine.breakpoints).getD []
    let (s, answer) := s.load files name
    if answer.failure.isSome then (s, answer)
    else ({ s with machine := s.machine.map (fun m => kept.foldl Machine.setBreakpoint m) }, answer)

def optionalInt (argument : Text) : Option (Option Int) :=
  if argument = [] then some none else ((readInt 10 argument).toOption).map some

def executed (s : Session κ τ) (m : Machine κ τ) (printed : List Item) :
    Option StepFault → Session κ τ × Answer
  | none => ({ s with machine := some m }, { printed := printed ++ [statusPanel m] })
  | some fault =>
    if fault.isProgramFault then
      ({ s with machine := some m },
        { printed := [red ("Execution error: " ++ fault.message), statusPanel m] })
    else ({ s with machine := some m }, { failure := some (.step fault) })

def run (s : Session κ τ) (m : Machine κ τ) (fuel : Nat) (argument : Text) :
    Option (Session κ τ × Answer) :=
  match optionalInt argument with
  | none => some (s, { printed := [red "Invalid step count"] })
  | some max =>
    (m.run fuel max false).map (fun (m, result) =>
      match result with
      | .ok reason => s.executed m [green ("Stopped: " ++ reason.name)] none
      | .error fault => s.executed m [] (some fault))

def steps : Nat → Machine κ τ → Machine κ τ × Option StepFault
  | 0, m => (m, none)
  | n + 1, m =>
    match m.step with
    | (m, .ok true) => steps n m
    | (m, .ok false) => (m, none)
    | (m, .error fault) => (m, some fault)

def step (s : Session κ τ) (m : Machine κ τ) (argument : Text) : Session κ τ × Answer :=
  match optionalInt argument with
  | none => (s, { printed := [red "Invalid step count"] })
  | some count =>
    let (m, fault) := steps (count.getD 1).toNat m
    s.executed m [] fault

def reset (s : Session κ τ) (m : Machine κ τ) (argument : Text) : Session κ τ × Answer :=
  match optionalInt argument with
  | none => (s, { printed := [red "Invalid seed"] })
  | some seed =>
    let m := m.reset seed
    ({ s with machine := some m },
      { printed := [green "Virtual machine reset", statusPanel m] })

def mark (s : Session κ τ) (m : Machine κ τ) (argument : Text) : Session κ τ × Answer :=
  if argument = [] then (s, { printed := [breakpointTable m] })
  else
    match readAddress argument with
    | .error _ => (s, { printed := [red "Invalid address"] })
    | .ok a =>
      ({ s with machine := some (m.setBreakpoint a) },
        { printed := [green ("Breakpoint set at " ++ address a)] })

def delete (s : Session κ τ) (m : Machine κ τ) (argument : Text) : Session κ τ × Answer :=
  if argument = [] then (s, { printed := [red "Please specify breakpoint address"] })
  else
    match readAddress argument with
    | .error _ => (s, { printed := [red "Invalid address"] })
    | .ok a =>
      ({ s with machine := some (m.clearBreakpoint a) },
        { printed := [yellow ("Breakpoint cleared at " ++ address a)] })

def clear (s : Session κ τ) (m : Machine κ τ) : Session κ τ × Answer :=
  ({ s with machine := some m.clearBreakpoints }, { printed := [yellow "All breakpoints cleared"] })

def memory (s : Session κ τ) (m : Machine κ τ) (argument : Text) : Session κ τ × Answer :=
  match readSpan (words argument) s.dumpAddress s.dumpCount with
  | .error _ => (s, { printed := [red "Invalid address or count"] })
  | .ok (start, count) =>
    ({ s with dumpAddress := start, dumpCount := count }, { printed := [memoryTable m start count] })

def listing (s : Session κ τ) (m : Machine κ τ) (argument : Text) : Session κ τ × Answer :=
  match readSpan (words argument) (max Memory.programStart ((m.processor.pc : Int) - 4)) 10 with
  | .error _ => (s, { printed := [red "Invalid address or count"] })
  | .ok (start, count) => (s, { printed := [programTable m start count] })

inductive Target where
  | index
  | register (x : Fin 16)
  | cell (address : Int)
  deriving DecidableEq, Repr

def readRegister (word : Text) : Except String Target :=
  match upper word with
  | ['I'] => .ok .index
  | ['V', d] => do
    let n ← (readInt 16 [d]).mapError (·.message 16 [d])
    match position 16 n with
    | some x => return .register x
    | none => throw ("Unknown register " ++ String.ofList word)
  | _ => .error ("Unknown register " ++ String.ofList word)

def assign (m : Machine κ τ) (value : Int) : Target → Machine κ τ
  | .index => { m with processor := { m.processor with index := value % 0x10000 } }
  | .register x => { m with processor := m.processor.setRegister x (value % 256) }
  | .cell a =>
    { m with processor := { m.processor with memory := m.processor.memory.writeByte a value } }

def usage : Item := red "Usage: set reg <Vx|I> <value> | set mem <addr> <value>"

def readAssignment (form name : Text) (value : Int) : Except String (Option (Target × String)) :=
  if form = "reg".toList then do
    return some (← readRegister name, String.ofList (upper name) ++ " = " ++ byte value)
  else if form = "mem".toList then do
    let a ← readAddress name
    return some (.cell a, "Memory[" ++ address a ++ "] = " ++ byte (value % 256))
  else .ok none

def set (s : Session κ τ) (m : Machine κ τ) (argument : Text) : Session κ τ × Answer :=
  match words argument with
  | form :: name :: value :: _ =>
    let assignment := do
      let value ← readAddress value
      return (value, ← readAssignment form name value)
    match assignment with
    | .error message => (s, { printed := [red ("Error: " ++ message)] })
    | .ok (_, none) => (s, { printed := [usage] })
    | .ok (value, some (target, line)) =>
      ({ s with machine := some (assign m value target) }, { printed := [green line] })
  | _ => (s, { printed := [usage] })

def help (argument : Text) : Answer :=
  if argument = [] then { printed := [helpPanel] }
  else
    match Verb.ofWord argument with
    | some verb => { written := verb.explanation ++ "\n" }
    | none => { written := "*** No help on " ++ String.ofList argument ++ "\n" }

def bye : Answer := { printed := [boxed "blue" "Goodbye!"], quits := true }

def settle : Session κ τ × Answer → Session κ τ × Answer
  | (s, answer) =>
    match s.machine with
    | none => (s, answer)
    | some m =>
      ({ s with machine := some m.takeLog.2 }, { answer with logged := answer.logged ++ m.takeLog.1 })

def act (s : Session κ τ) (m : Machine κ τ) (fuel : Nat) (argument : Text) :
    Verb → Option (Session κ τ × Answer)
  | .run => s.run m fuel argument
  | .resume => s.run m fuel []
  | .step => some (s.step m argument)
  | .reset => some (s.reset m argument)
  | .mark => some (s.mark m argument)
  | .delete => some (s.delete m argument)
  | .clear => some (s.clear m)
  | .status => some (s, { printed := [statusPanel m] })
  | .registers => some (s, { printed := registerTable m :: stackLines m })
  | .memory => some (s.memory m argument)
  | .program => some (s.listing m argument)
  | .screen => some (s, { printed := [screenPanel m] })
  | .set => some (s.set m argument)
  | _ => some (s, {})

def perform (s : Session κ τ) (files : Storage.Files) (fuel : Nat) :
    Request → Option (Session κ τ × Answer)
  | .nothing => some (s, {})
  | .unknown line => some (s, { written := "*** Unknown syntax: " ++ String.ofList line ++ "\n" })
  | .command .load argument => some (s.load files argument)
  | .command .reload _ => some (s.reload files)
  | .command .quit _ | .command .exit _ => some (s, bye)
  | .command .help argument => some (s, help argument)
  | .command verb argument =>
    match s.machine with
    | none => some (s, { printed := [red "No program loaded"] })
    | some m => (s.act m fuel argument verb).map settle

def shutdown (s : Session κ τ) : Session κ τ := { s with machine := s.machine.map Machine.shutdown }

end Session

end Chip8.Debugger
