import Chip8.Instruction.Operand
import Chip8.Text.Numeral
import Chip8.Text.Uppercase

namespace Chip8

inductive Mnemonic where
  | sys | clr | rts | jump | call | ske | skne | skre | load | add | copy | or | and | xor
  | addr | sub | shr | subn | shl | skrne | loadi | jumpi | rand | draw | skpr | skup | moved
  | keyd | loadd | loads | addi | ldspr | bcd | stor | read | debug
  deriving DecidableEq, Repr

structure Shape where
  name : String
  base : Nat
  fields : List OperandField
  description : String

namespace Mnemonic

open OperandField in
def shape : Mnemonic → Shape
  | sys => ⟨"SYS", 0x0000, [address], "Call RCA 1802 program at addr (unsupported)"⟩
  | clr => ⟨"CLR", 0x00E0, [], "Clear the display"⟩
  | rts => ⟨"RTS", 0x00EE, [], "Return from subroutine"⟩
  | jump => ⟨"JUMP", 0x1000, [address], "Jump to addr"⟩
  | call => ⟨"CALL", 0x2000, [address], "Call subroutine at addr"⟩
  | ske => ⟨"SKE", 0x3000, [first, byte], "Skip next instruction if Vx == byte"⟩
  | skne => ⟨"SKNE", 0x4000, [first, byte], "Skip next instruction if Vx != byte"⟩
  | skre => ⟨"SKRE", 0x5000, [first, second], "Skip next instruction if Vx == Vy"⟩
  | load => ⟨"LOAD", 0x6000, [first, byte], "Vx = byte"⟩
  | add => ⟨"ADD", 0x7000, [first, byte], "Vx = Vx + byte, VF unchanged"⟩
  | copy => ⟨"COPY", 0x8000, [first, second], "Vx = Vy"⟩
  | or => ⟨"OR", 0x8001, [first, second], "Vx = Vx | Vy"⟩
  | and => ⟨"AND", 0x8002, [first, second], "Vx = Vx & Vy"⟩
  | xor => ⟨"XOR", 0x8003, [first, second], "Vx = Vx ^ Vy"⟩
  | addr => ⟨"ADDR", 0x8004, [first, second], "Vx = Vx + Vy, VF = carry"⟩
  | sub => ⟨"SUB", 0x8005, [first, second], "Vx = Vx - Vy, VF = not borrow"⟩
  | shr => ⟨"SHR", 0x8006, [first, second], "Vx = Vy >> 1, VF = shifted out bit"⟩
  | subn => ⟨"SUBN", 0x8007, [first, second], "Vx = Vy - Vx, VF = not borrow"⟩
  | shl => ⟨"SHL", 0x800E, [first, second], "Vx = Vy << 1, VF = shifted out bit"⟩
  | skrne => ⟨"SKRNE", 0x9000, [first, second], "Skip next instruction if Vx != Vy"⟩
  | loadi => ⟨"LOADI", 0xA000, [address], "I = addr"⟩
  | jumpi => ⟨"JUMPI", 0xB000, [address], "Jump to addr + V0"⟩
  | rand => ⟨"RAND", 0xC000, [first, byte], "Vx = random byte & byte"⟩
  | draw => ⟨"DRAW", 0xD000, [first, second, nibble], "Draw nibble rows of sprite at I to (Vx, Vy)"⟩
  | skpr => ⟨"SKPR", 0xE09E, [first], "Skip if key Vx pressed (not emulated)"⟩
  | skup => ⟨"SKUP", 0xE0A1, [first], "Skip if key Vx not pressed (not emulated)"⟩
  | moved => ⟨"MOVED", 0xF007, [first], "Vx = delay timer"⟩
  | keyd => ⟨"KEYD", 0xF00A, [first], "Wait for key press into Vx (not emulated)"⟩
  | loadd => ⟨"LOADD", 0xF015, [first], "Delay timer = Vx"⟩
  | loads => ⟨"LOADS", 0xF018, [first], "Sound timer = Vx (not emulated)"⟩
  | addi => ⟨"ADDI", 0xF01E, [first], "I = I + Vx"⟩
  | ldspr => ⟨"LDSPR", 0xF029, [first], "I = address of font sprite for digit Vx"⟩
  | bcd => ⟨"BCD", 0xF033, [first], "Store BCD of Vx at I, I+1, I+2"⟩
  | stor => ⟨"STOR", 0xF055, [first], "Store V0..Vx at I"⟩
  | read => ⟨"READ", 0xF065, [first], "Load V0..Vx from I"⟩
  | debug => ⟨"DEBUG", 0xFFFF, [], "Emit a debug trace message"⟩

def all : List Mnemonic :=
  [sys, clr, rts, jump, call, ske, skne, skre, load, add, copy, or, and, xor, addr, sub, shr, subn,
   shl, skrne, loadi, jumpi, rand, draw, skpr, skup, moved, keyd, loadd, loads, addi, ldspr, bcd,
   stor, read, debug]

def name (m : Mnemonic) : String := m.shape.name

def base (m : Mnemonic) : Nat := m.shape.base

def fields (m : Mnemonic) : List OperandField := m.shape.fields

def description (m : Mnemonic) : String := m.shape.description

def mask (m : Mnemonic) : Nat := m.fields.foldl (fun bits f => bits - f.mask) 0xFFFF

def specificity (m : Mnemonic) : Nat := (List.range 16).countP (m.mask.testBit ·)

def usage (m : Mnemonic) : String :=
  if m.fields.isEmpty then m.name
  else m.name ++ " " ++ ", ".intercalate (m.fields.map OperandField.placeholder)

def template (m : Mnemonic) : String :=
  String.ofList ((Text.padded 16 4 m.base).zipWith (fun c bit =>
    ((m.fields.find? (·.covers bit)).map OperandField.letter).getD c) [12, 8, 4, 0])

def ofName (word : Text) : Option Mnemonic :=
  all.find? (fun m => m.name.toList = Text.upper word)

end Mnemonic

end Chip8
