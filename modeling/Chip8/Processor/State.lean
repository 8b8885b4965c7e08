import Chip8.Bitmap
import Chip8.DelayTimer
import Chip8.Instruction.Listing
import Chip8.LaggedGenerator
import Chip8.Memory

namespace Chip8

open Time

structure Processor (τ : Type) where
  memory : Memory
  registers : Vector Int 16
  index : Int
  pc : Nat
  sp : Nat
  depth : Nat
  timer : DelayTimer τ
  screen : Bitmap 64 32
  random : LaggedGenerator
  executed : Nat
  finished : Bool
  redrawn : Bool
  rom : List UInt8
  seed : Option Int
  advancing : Bool
  deriving DecidableEq

inductive StepFault where
  | halted
  | unknownOpcode (opcode pc : Nat)
  | unsupportedOpcode (opcode pc : Nat)
  | stackOverflow (pc : Nat)
  | clock (fault : CountFault)
  | offScreen
  deriving DecidableEq, Repr

def StepFault.message : StepFault → String
  | halted => "Program has finished; call reset() before stepping"
  | unknownOpcode opcode pc =>
    "Unknown opcode 0x" ++ Text.hex 4 opcode ++ " at PC=0x" ++ Text.hex 3 pc
  | unsupportedOpcode opcode pc =>
    "Unsupported opcode 0x" ++ Text.hex 4 opcode ++ " at PC=0x" ++ Text.hex 3 pc
  | stackOverflow pc => "Stack overflow on CALL at PC=0x" ++ Text.hex 3 pc
  | clock .notANumber => "elapsed time is not a number"
  | clock .infinite => "elapsed time is infinite"
  | clock .empty => "no time has passed"
  | offScreen => "pixel outside the screen"

def StepFault.isProgramFault : StepFault → Bool
  | clock _ | offScreen => false
  | _ => true

namespace Processor

variable {τ : Type} [Measure τ]

def flagRegister : Fin 16 := 15

def jumpRegister : Fin 16 := 0

def powerOn (rom : List UInt8) (seed : Option Int) (advancing : Bool) (start : Int) :
    Processor τ :=
  { memory := Memory.fresh.store Memory.programStart rom
    registers := Vector.replicate 16 0
    index := 0
    pc := Memory.programStart
    sp := Memory.stackStart
    depth := 0
    timer := .zero
    screen := .blank
    random := .ofSeed start
    executed := 0
    finished := false
    redrawn := true
    rom
    seed
    advancing }

def new (seed : Option Int) (advancing : Bool) (e : Entropy) : Processor τ × Entropy :=
  let (start, e) := e.pick seed
  (powerOn [] seed advancing start, e)

def reset (p : Processor τ) (seed : Option Int) (e : Entropy) : Processor τ × Entropy :=
  let (start, e) := e.pick (seed.or p.seed)
  (powerOn p.rom p.seed p.advancing start, e)

def loadRom (p : Processor τ) (rom : List UInt8) : Except RomTooLarge (Processor τ) :=
  (p.memory.loadRom rom).map (fun memory => { p with memory, rom })

def fetch (p : Processor τ) : Nat := p.memory.readWord p.pc

def current (p : Processor τ) : String := renderOpcode p.fetch

def stack (p : Processor τ) : List Nat :=
  (List.range p.depth).map (fun i => p.memory.readWord (Memory.stackStart + 2 * i : Nat))

def withRegister (registers : Vector Int 16) (x : Fin 16) (value : Int) : Vector Int 16 :=
  registers.set x value

def setRegister (p : Processor τ) (x : Fin 16) (value : Int) : Processor τ :=
  { p with registers := withRegister p.registers x value }

def setFlag (p : Processor τ) (on : Bool) : Processor τ :=
  p.setRegister flagRegister (if on then 1 else 0)

end Processor

end Chip8
