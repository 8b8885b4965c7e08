import Chip8.Assembly.Image
import Chip8.Machine.Clock
import Chip8.Machine.RateMeter
import Chip8.Processor.Step
import Chip8.Storage.Files
import Chip8.Window

namespace Chip8

open Time

structure Settings where
  speed : Int := 5
  windowed : Bool := true
  scale : Int := 10
  tracing : Bool := false
  metered : Bool := false
  keepOpen : Bool := false
  seed : Option Int := none
  advancing : Bool := true
  deriving DecidableEq, Repr

namespace Settings

def minSpeed : Int := 1

def maxSpeed : Int := 10

def stepsPerSecond (s : Settings) : Nat := (s.speed * 100).toNat

end Settings

/-- Of the callbacks that a machine may be given, one notes the program counter after every step and
one asks for a stop once so many instructions were executed. -/
inductive Observer where
  | recorder
  | limiter (executed : Int)
  deriving DecidableEq, Repr

inductive Effect where
  | log (entry : LogEntry)
  | draw (call : DrawCall)
  | say (line : String)
  deriving DecidableEq, Repr

inductive StopReason where
  | finished
  | breakpoint
  | stopped
  | maxSteps
  deriving DecidableEq, Repr

def StopReason.name : StopReason → String
  | finished => "finished"
  | breakpoint => "breakpoint"
  | stopped => "stopped"
  | maxSteps => "max_steps"

inductive LoadCause where
  | assembly (report : Assembly.Report)
  | tooLarge (error : RomTooLarge)
  deriving DecidableEq, Repr

def LoadCause.message : LoadCause → String
  | assembly report => report.message
  | tooLarge error => error.message

inductive MachineError where
  | speed (given : Int)
  | loading (name : Text) (cause : LoadCause)
  | noWindow
  deriving DecidableEq, Repr

def MachineError.message : MachineError → String
  | speed given =>
    s!"Speed must be between {Settings.minSpeed} and {Settings.maxSpeed}, got {given}"
  | loading name cause =>
    "Failed to load program '" ++ String.ofList name ++ "': " ++ cause.message
  | noWindow => "Failed to initialize display"

inductive Failure where
  | machine (error : MachineError)
  | step (fault : StepFault)
  | load (cause : LoadCause)
  | endlessNumeral
  | valueless
  | storage (fault : Storage.Fault)
  deriving DecidableEq, Repr

def Failure.message : Failure → String
  | machine error => error.message
  | step fault => fault.message
  | load cause => cause.message
  | endlessNumeral => "numeral with too many digits"
  | valueless => "setting without a value"
  | storage fault => fault.message

structure Machine (κ τ : Type) where
  settings : Settings
  processor : Processor τ
  window : Option Window
  frame : Option Frame
  meter : Option (RateMeter τ)
  stopping : Bool
  failure : Option StepFault
  lastStep : Option τ
  breakpoints : List Int
  observers : List Observer
  seen : List Nat
  clock : κ
  entropy : Entropy
  effects : Array Effect

namespace Machine

variable {κ τ : Type} [Measure τ]

def log (m : Machine κ τ) (entry : LogEntry) : Machine κ τ :=
  { m with effects := m.effects.push (.log entry) }

def logAll (m : Machine κ τ) (entries : List LogEntry) : Machine κ τ :=
  { m with effects := m.effects ++ entries.map Effect.log }

def say (m : Machine κ τ) (line : String) : Machine κ τ :=
  { m with effects := m.effects.push (.say line) }

def drawAll (m : Machine κ τ) (calls : List DrawCall) : Machine κ τ :=
  { m with effects := m.effects ++ calls.map Effect.draw }

def takeLog (m : Machine κ τ) : List LogEntry × Machine κ τ :=
  (m.effects.toList.filterMap (fun
    | .log entry => some entry
    | _ => none), { m with effects := #[] })

def new (settings : Settings) (clock : κ) (entropy : Entropy) :
    Except MachineError (Machine κ τ) :=
  if Settings.minSpeed ≤ settings.speed ∧ settings.speed ≤ Settings.maxSpeed then
    let (processor, entropy) := Processor.new settings.seed settings.advancing entropy
    .ok <| log
      { settings
        processor
        window := if settings.windowed then some { scale := settings.scale } else none
        frame := none
        meter := if settings.metered then some (.every Measure.one) else none
        stopping := false
        failure := none
        lastStep := none
        breakpoints := []
        observers := []
        seen := []
        clock
        entropy
        effects := #[] } processor.resetEntry
  else .error (.speed settings.speed)

def publish (m : Machine κ τ) : Machine κ τ :=
  let last := (m.frame.map Frame.sequence).getD 0
  { m with frame := some ⟨m.processor.screen.rows, false, last + 1⟩ }

/-- Without a seed a reset uses the configured one again, or draws one if there is none. -/
def reset (m : Machine κ τ) (seed : Option Int) : Machine κ τ :=
  let (processor, entropy) := m.processor.reset (seed.or m.settings.seed) m.entropy
  publish
    { m.log processor.resetEntry with
      processor, entropy, stopping := false, failure := none, lastStep := none }

def stop (m : Machine κ τ) : Machine κ τ := { m with stopping := true }

def shutdown (m : Machine κ τ) : Machine κ τ :=
  match m.window with
  | none => m.stop
  | some window =>
    let (window, calls) := window.shutdown
    { m.stop.drawAll calls with window := some window }

/-! Breakpoints -/

def insertAddress (address : Int) : List Int → List Int
  | [] => [address]
  | a :: rest =>
    if address < a then address :: a :: rest
    else if address = a then a :: rest
    else a :: insertAddress address rest

def setBreakpoint (m : Machine κ τ) (address : Int) : Machine κ τ :=
  { m with breakpoints := insertAddress address m.breakpoints }

def clearBreakpoint (m : Machine κ τ) (address : Int) : Machine κ τ :=
  { m with breakpoints := m.breakpoints.filter (· ≠ address) }

def clearBreakpoints (m : Machine κ τ) : Machine κ τ := { m with breakpoints := [] }

/-! Observers -/

def addObserver (m : Machine κ τ) (o : Observer) : Machine κ τ :=
  { m with observers := m.observers ++ [o] }

def removeObserver (m : Machine κ τ) (o : Observer) : Machine κ τ :=
  { m with observers := m.observers.erase o }

def notify (m : Machine κ τ) : Observer → Machine κ τ
  | .recorder => { m with seen := m.processor.pc :: m.seen }
  | .limiter executed => if executed ≤ m.processor.executed then m.stop else m

end Machine

end Chip8
