namespace Chip8

inductive OperandKind where
  | address
  | register
  | byte
  | nibble
  deriving DecidableEq, Repr

namespace OperandKind

def width : OperandKind → Nat
  | address => 12
  | register => 4
  | byte => 8
  | nibble => 4

def name : OperandKind → String
  | address => "address"
  | register => "register"
  | byte => "byte"
  | nibble => "nibble"

end OperandKind

structure OperandField where
  kind : OperandKind
  shift : Nat := 0
  deriving DecidableEq, Repr

namespace OperandField

def address : OperandField := ⟨.address, 0⟩

def first : OperandField := ⟨.register, 8⟩

def second : OperandField := ⟨.register, 4⟩

def byte : OperandField := ⟨.byte, 0⟩

def nibble : OperandField := ⟨.nibble, 0⟩

def capacity (f : OperandField) : Nat := 1 <<< f.kind.width

def mask (f : OperandField) : Nat := (f.capacity - 1) <<< f.shift

def extract (f : OperandField) (word : Nat) : Nat := word >>> f.shift % f.capacity

def covers (f : OperandField) (bit : Nat) : Bool := f.shift ≤ bit && bit < f.shift + f.kind.width

def placeholder (f : OperandField) : String :=
  match f.kind with
  | .address => "addr"
  | .register => if f.shift = 8 then "Vx" else "Vy"
  | .byte => "byte"
  | .nibble => "nibble"

def letter (f : OperandField) : Char :=
  match f.kind with
  | .register => if f.shift = 8 then 'x' else 'y'
  | _ => 'n'

end OperandField

end Chip8
