import Chip8.Instruction.Table

namespace Chip8

structure Instruction where
  mnemonic : Mnemonic
  operands : List Int
  deriving DecidableEq, Repr

inductive EncodingError where
  | operandCount (mnemonic : Mnemonic) (given : Nat)
  | outOfRange (kind : OperandKind) (value : Int)
  deriving DecidableEq, Repr

def EncodingError.message : EncodingError → String
  | operandCount m given => s!"{m.name} takes {m.fields.length} operand(s), got {given}"
  | outOfRange kind value => s!"{kind.name} operand {value} does not fit in {kind.width} bits"

/-- The refusal of a value is written with the value in it. -/
def OperandField.refusal (f : OperandField) (value : Int) : Interruption EncodingError :=
  let digits := (Text.digits 10 value.natAbs).length
  if Text.maxDigits < digits then .endlessNumeral digits else .error (.outOfRange f.kind value)

def OperandField.place (f : OperandField) (value : Int) : Except (Interruption EncodingError) Nat :=
  if 0 ≤ value ∧ value < f.capacity then .ok (value.toNat <<< f.shift)
  else .error (f.refusal value)

def Mnemonic.accepts (m : Mnemonic) (word : Nat) : Bool := word &&& m.mask == m.base

/-- The table with the most specific masks first, so that `CLR` and `RTS` come before `SYS`. -/
def decodeOrder : List Mnemonic :=
  [16, 12, 8, 4].flatMap (fun n => Mnemonic.all.filter (·.specificity == n))

namespace Instruction

def encode (i : Instruction) : Except (Interruption EncodingError) Nat :=
  if i.operands.length ≠ i.mnemonic.fields.length then
    .error (.error (.operandCount i.mnemonic i.operands.length))
  else do
    let parts ← (i.mnemonic.fields.zip i.operands).mapM (fun (f, v) => f.place v)
    return parts.foldl (· + ·) i.mnemonic.base

def ofWord (m : Mnemonic) (word : Nat) : Instruction := ⟨m, m.fields.map (fun f => f.extract word)⟩

def decode (opcode : Int) : Option Instruction :=
  let word := (opcode % 0x10000).toNat
  (decodeOrder.find? (·.accepts word)).map (ofWord · word)

end Instruction

end Chip8
