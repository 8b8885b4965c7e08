import Chip8.Instruction.Opcode

namespace Chip8

def OperandKind.render : OperandKind → Int → String
  | address, v => "$" ++ Text.hex 3 v
  | register, v => "V" ++ Text.hex 1 v
  | byte, v => "#" ++ Text.hex 2 v
  | nibble, v => "#" ++ Text.hex 1 v

def Instruction.render (i : Instruction) : String :=
  if i.mnemonic.fields.isEmpty then i.mnemonic.name
  else i.mnemonic.name ++ " " ++
    ", ".intercalate (i.mnemonic.fields.zipWith (fun f v => f.kind.render v) i.operands)

def renderOpcode (opcode : Int) : String :=
  match Instruction.decode opcode with
  | some i => i.render
  | none => "DW #" ++ Text.hex 4 (opcode % 0x10000)

structure ListingLine where
  address : Int
  opcode : Nat
  text : String
  deriving DecidableEq, Repr

def bigEndian (high low : UInt8) : Nat := high.toNat * 256 + low.toNat

def disassemble (origin : Int) : List UInt8 → List ListingLine
  | [] => []
  | [b] => [⟨origin, b.toNat, "DB $" ++ Text.binary 8 b.toNat⟩]
  | high :: low :: rest =>
    ⟨origin, bigEndian high low, renderOpcode (bigEndian high low)⟩ :: disassemble (origin + 2) rest

end Chip8
