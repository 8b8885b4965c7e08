import Chip8.Assembly.Line

namespace Chip8.Assembly

structure Statement where
  number : Nat
  raw : Text
  item : Item
  operands : Text
  address : Int
  deriving DecidableEq, Repr

namespace Statement

def width (s : Statement) : Nat := s.item.width

end Statement

structure Layout where
  labels : Labels
  statements : List Statement
  next : Int

namespace Layout

def empty (origin : Int) : Layout := ⟨[], [], origin⟩

def define (l : Layout) : Option Text → Except Fault Layout
  | none => .ok l
  | some name =>
    match l.labels.lookup name with
    | some address => .error (.duplicateLabel name address)
    | none => .ok { l with labels := l.labels ++ [(name, l.next)] }

def place (l : Layout) (number : Nat) (raw : Text) : Option (Item × Text) → Layout
  | none => l
  | some (item, operands) =>
    { l with
      statements := l.statements ++ [⟨number, raw, item, operands, l.next⟩]
      next := l.next + item.width }

def addLine (l : Layout) (number : Nat) (raw : Text) : Layout × Option Fault :=
  let line := readLine raw
  match l.define line.label with
  | .error fault => (l, some fault)
  | .ok l =>
    match line.content with
    | .error fault => (l, some fault)
    | .ok content => (l.place number raw content, none)

def addLines : Layout → Nat → List Text → Layout × Option Report
  | l, _, [] => (l, none)
  | l, number, raw :: rest =>
    match l.addLine number raw with
    | (l, some fault) => (l, some (fault.report number raw))
    | (l, none) => addLines l (number + 1) rest

end Layout

end Chip8.Assembly
