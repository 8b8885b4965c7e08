import Chip8.Bits
import Chip8.Text.Numeral

namespace Chip8

/-- 4096 bytes, addressed by the integers modulo 4096. -/
structure Memory where
  cells : Vector UInt8 0x1000
  deriving DecidableEq

namespace Memory

def size : Nat := 0x1000

def programStart : Nat := 0x200

def stackStart : Nat := 0xEA0

def stackEnd : Nat := 0xEFF

def displayStart : Nat := 0xF00

def fontStart : Nat := 0x050

def maxRom : Nat := stackStart - programStart

def font : List UInt8 :=
  [0xF0, 0x90, 0x90, 0x90, 0xF0, 0x20, 0x60, 0x20, 0x20, 0x70, 0xF0, 0x10, 0xF0, 0x80, 0xF0,
   0xF0, 0x10, 0xF0, 0x10, 0xF0, 0x90, 0x90, 0xF0, 0x10, 0x10, 0xF0, 0x80, 0xF0, 0x10, 0xF0,
   0xF0, 0x80, 0xF0, 0x90, 0xF0, 0xF0, 0x10, 0x20, 0x40, 0x40, 0xF0, 0x90, 0xF0, 0x90, 0xF0,
   0xF0, 0x90, 0xF0, 0x10, 0xF0, 0xF0, 0x90, 0xF0, 0x90, 0x90, 0xE0, 0x90, 0xE0, 0x90, 0xE0,
   0xF0, 0x80, 0x80, 0x80, 0xF0, 0xE0, 0x90, 0x90, 0x90, 0xE0, 0xF0, 0x80, 0xF0, 0x80, 0xF0,
   0xF0, 0x80, 0xF0, 0x80, 0x80]

def slot (address : Int) : Fin 0x1000 := ⟨(address % 0x1000).toNat, by omega⟩

def readByte (m : Memory) (address : Int) : UInt8 := m.cells[slot address]

def put (m : Memory) (address : Int) (byte : UInt8) : Memory :=
  ⟨m.cells.set (slot address) byte⟩

def writeByte (m : Memory) (address value : Int) : Memory := m.put address (Bits.low value)

def readWord (m : Memory) (address : Int) : Nat :=
  (m.readByte address).toNat * 256 + (m.readByte (address + 1)).toNat

def writeWord (m : Memory) (address value : Int) : Memory :=
  (m.writeByte address (value / 256)).writeByte (address + 1) value

def readBlock (m : Memory) (address : Int) (count : Nat) : List UInt8 :=
  (List.range count).map (fun (i : Nat) => m.readByte (address + i))

def store (m : Memory) (address : Int) : List UInt8 → Memory
  | [] => m
  | b :: bs => (m.put address b).store (address + 1) bs

def installFont (m : Memory) : Memory := m.store fontStart font

def fresh : Memory := installFont ⟨Vector.replicate 0x1000 0⟩

end Memory

structure RomTooLarge where
  size : Nat
  limit : Nat
  deriving DecidableEq, Repr

def RomTooLarge.message (e : RomTooLarge) : String :=
  s!"ROM is {e.size} bytes; at most {e.limit} bytes fit"

namespace Memory

def loadRom (m : Memory) (rom : List UInt8) : Except RomTooLarge Memory :=
  if maxRom < rom.length then .error ⟨rom.length, maxRom⟩ else .ok (m.store programStart rom)

def fontAddress (digit : Int) : Int := fontStart + digit % 16 * 5

def dump (m : Memory) (start count : Int) : List (Int × UInt8) :=
  (List.range (min count (size - start)).toNat).map (fun (i : Nat) => (start + i, m.readByte (start + i)))

inductive Region where
  | interpreter
  | program
  | stack
  | display
  deriving DecidableEq, Repr

namespace Region

def all : List Region := [interpreter, program, stack, display]

def key : Region → String
  | interpreter => "interpreter"
  | program => "program"
  | stack => "stack"
  | display => "display"

def name : Region → String
  | interpreter => "Interpreter"
  | program => "Program"
  | stack => "Stack"
  | display => "Display"

def start : Region → Nat
  | interpreter => 0
  | program => programStart
  | stack => stackStart
  | display => displayStart

def stop : Region → Nat
  | interpreter => programStart
  | program => stackStart
  | stack => displayStart
  | display => Memory.size

def size (r : Region) : Nat := r.stop - r.start

def ofAddress (address : Int) : Region :=
  let a := (slot address).val
  if a < programStart then interpreter
  else if a < stackStart then program
  else if a < displayStart then stack
  else display

end Region

end Memory

end Chip8
