import Chip8.Log
import Chip8.Processor.State

namespace Chip8

open Time

namespace Opcode

def x (word : Nat) : Fin 16 := ⟨word / 256 % 16, by omega⟩

def y (word : Nat) : Fin 16 := ⟨word / 16 % 16, by omega⟩

def address (word : Nat) : Nat := word % 0x1000

def byte (word : Nat) : Nat := word % 0x100

def nibble (word : Nat) : Nat := word % 0x10

end Opcode

namespace Processor

variable {τ : Type} [Measure τ]

def goTo (p : Processor τ) (address : Int) : Processor τ :=
  { p with pc := (address % 0x10000).toNat }

def advance (p : Processor τ) : Processor τ := p.goTo (p.pc + 2)

def skipIf (p : Processor τ) (condition : Bool) : Processor τ :=
  if condition then p.advance.advance else p.advance

def ret (p : Processor τ) : Processor τ :=
  if p.depth = 0 then { p with finished := true }
  else
    { p with
      memory := p.memory.writeWord p.sp 0
      depth := p.depth - 1
      sp := if 1 < p.depth then p.sp - 2 else p.sp
      pc := p.memory.readWord p.sp }.advance

def freeSlot (p : Processor τ) : Nat := if 0 < p.depth then p.sp + 2 else p.sp

def call (p : Processor τ) (address : Nat) : Processor τ × Option StepFault :=
  if Memory.stackEnd < p.freeSlot + 1 then (p, some (.stackOverflow p.pc))
  else
    ({ p with
        memory := p.memory.writeWord p.freeSlot p.pc
        sp := p.freeSlot
        depth := p.depth + 1 }.goTo address, none)

def storeBcd (p : Processor τ) (value : Int) : Processor τ :=
  { p with
    memory := ((p.memory.writeByte p.index (value / 100)).writeByte (p.index + 1)
      (value / 10 % 10)).writeByte (p.index + 2) (value % 10) }

def indexAfter (p : Processor τ) (last : Fin 16) : Int :=
  if p.advancing then (p.index + last.val + 1) % 0x10000 else p.index

def firstRegisters (last : Fin 16) : List (Fin 16) := (List.finRange 16).filter (· ≤ last)

def storeRegisters (p : Processor τ) (last : Fin 16) : Processor τ :=
  { p with
    memory := (firstRegisters last).foldl
      (fun m (i : Fin 16) => m.writeByte (p.index + i.val) (p.registers.get i)) p.memory
    index := p.indexAfter last }

def readRegisters (p : Processor τ) (last : Fin 16) : Processor τ :=
  { p with
    registers := (firstRegisters last).foldl
      (fun r (i : Fin 16) => withRegister r i (p.memory.readByte (p.index + i.val)).toNat)
      p.registers
    index := p.indexAfter last }

def drawSprite (p : Processor τ) (x y : Fin 16) (height : Nat) : Processor τ × Option StepFault :=
  let sprite := (p.memory.readBlock p.index height).map (fun b => (b.toNat : Int))
  match p.screen.draw (p.registers.get x) (p.registers.get y) false sprite with
  | (screen, none) => ({ p with screen }, some .offScreen)
  -- the flag may be one of the coordinates, so it is set after they were read
  | (screen, some hit) => ({ p with screen, redrawn := true }.setFlag hit |>.advance, none)

def execute (p : Processor τ) (word : Nat) (m : Mnemonic) : Processor τ × Option StepFault :=
  let x := Opcode.x word
  let vx := p.registers.get x
  let vy := p.registers.get (Opcode.y word)
  let byte : Int := Opcode.byte word
  let set (value : Int) := p.setRegister x value
  match m with
  | .sys => (p, some (.unsupportedOpcode word p.pc))
  | .clr => ({ p with screen := .blank, redrawn := true }.advance, none)
  | .rts => (p.ret, none)
  | .jump => (p.goTo (Opcode.address word), none)
  | .call => p.call (Opcode.address word)
  | .ske => (p.skipIf (vx = byte), none)
  | .skne => (p.skipIf (vx ≠ byte), none)
  | .skre => (p.skipIf (vx = vy), none)
  | .load => ((set byte).advance, none)
  | .add => ((set ((vx + byte) % 256)).advance, none)
  | .copy => ((set vy).advance, none)
  | .or => ((set (Bits.or vx vy)).advance, none)
  | .and => ((set (Bits.and vx vy)).advance, none)
  | .xor => ((set (Bits.xor vx vy)).advance, none)
  | .addr => (((set ((vx + vy) % 256)).setFlag (255 < vx + vy)).advance, none)
  | .sub => (((set ((vx - vy) % 256)).setFlag (vy ≤ vx)).advance, none)
  | .shr => (((set (vy / 2)).setFlag (vy % 2 = 1)).advance, none)
  | .subn => (((set ((vy - vx) % 256)).setFlag (vx ≤ vy)).advance, none)
  | .shl => (((set (vy * 2 % 256)).setFlag (vy / 128 % 2 = 1)).advance, none)
  | .skrne => (p.skipIf (vx ≠ vy), none)
  | .loadi => ({ p with index := Opcode.address word }.advance, none)
  | .jumpi => (p.goTo (Opcode.address word + p.registers.get jumpRegister), none)
  | .rand =>
    let (value, random) := p.random.nextByte
    (({ p with random }.setRegister x (Bits.and value byte)).advance, none)
  | .draw => p.drawSprite x (Opcode.y word) (Opcode.nibble word)
  | .skpr | .skup | .keyd | .loads | .debug => (p.advance, none)
  | .moved => ((set p.timer.value).advance, none)
  | .loadd => ({ p with timer := p.timer.set vx }.advance, none)
  | .addi => ({ p with index := (p.index + vx) % 0x10000 }.advance, none)
  | .ldspr => ({ p with index := Memory.fontAddress vx }.advance, none)
  | .bcd => ((p.storeBcd vx).advance, none)
  | .stor => ((p.storeRegisters x).advance, none)
  | .read => ((p.readRegisters x).advance, none)

/-- One instruction, after the timer has seen the elapsed milliseconds. -/
def step (p : Processor τ) (elapsed : τ) : Processor τ × Option StepFault :=
  if p.finished then (p, some .halted)
  else
    let (timer, late) := p.timer.update elapsed
    let p := { p with timer, redrawn := false }
    match late with
    | some fault => (p, some (.clock fault))
    | none =>
      match Instruction.decode p.fetch with
      | none => (p, some (.unknownOpcode p.fetch p.pc))
      | some i =>
        match p.execute p.fetch i.mnemonic with
        | (p, some fault) => (p, some fault)
        | (p, none) => ({ p with executed := p.executed + 1 }, none)

def remark? (p : Processor τ) : Option LogEntry :=
  let note (message : String) := some ⟨.debug, .processor, message⟩
  let place := "0x" ++ Text.hex 3 p.pc
  match (Instruction.decode p.fetch).map Instruction.mnemonic with
  | some .loads => note ("Sound timer not emulated; LOADS ignored at " ++ place)
  | some .skpr | some .skup | some .keyd =>
    note ("Keypad not emulated; 0x" ++ Text.hex 4 p.fetch ++ " ignored at " ++ place)
  | some .debug =>
    note ("DEBUG opcode hit at " ++ place ++ " (I=0x" ++ Text.hex 3 p.index ++ ", V=" ++
      " ".intercalate (p.registers.toList.map (Text.hex 2)) ++ ")")
  | _ => none

def resetEntry (p : Processor τ) : LogEntry :=
  ⟨.debug, .processor, s!"Emulator reset (seed={p.random.seed})"⟩

def loadedEntry (rom : List UInt8) : LogEntry :=
  ⟨.info, .processor, s!"Loaded ROM ({rom.length} bytes)"⟩

end Processor

end Chip8
