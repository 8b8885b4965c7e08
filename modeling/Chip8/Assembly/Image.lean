import Chip8.Assembly.Layout

namespace Chip8

namespace Assembly

open Text

structure Warning where
  number : Nat
  mnemonic : Mnemonic
  address : Int
  deriving DecidableEq, Repr

def Warning.message (w : Warning) : String :=
  s!"Line {w.number}: {w.mnemonic.name} assembled at odd address 0x" ++ hex 3 w.address

namespace Statement

def operandTexts (s : Statement) : Except Fault (List Text) := do
  let texts ← splitOperands s.operands
  if texts.length = s.item.operandCount then .ok texts
  else .error (.operandCount s.item texts.length)

def warnings (s : Statement) : List Warning :=
  match s.item, s.operandTexts with
  | .instruction m, .ok _ => if s.address % 2 = 0 then [] else [⟨s.number, m, s.address⟩]
  | _, _ => []

def instructionBytes (labels : Labels) (m : Mnemonic) (texts : List Text) :
    Except (Interruption Fault) (List UInt8) := do
  let operands ← (m.fields.zip texts).mapM (fun (f, t) => readOperand labels f.kind t)
  let opcode ← (Instruction.encode ⟨m, operands⟩).mapError (·.map .encoding)
  return wordBytes opcode

def bytes (labels : Labels) (s : Statement) : Except (Interruption Fault) (List UInt8) := do
  let texts ← s.operandTexts.mapError .error
  match s.item with
  | .instruction m => instructionBytes labels m texts
  | .word => (readWord (texts.headD [])).mapError .error
  | .bits => (readBits (texts.headD [])).mapError .error

end Statement

def emit (labels : Labels) :
    List Statement → List Warning × Except (Interruption Report) (List UInt8)
  | [] => ([], .ok [])
  | s :: rest =>
    match s.bytes labels with
    | .error e => (s.warnings, .error (e.map (·.report s.number s.raw)))
    | .ok bytes =>
      let (warnings, image) := emit labels rest
      (s.warnings ++ warnings, image.map (bytes ++ ·))

end Assembly

open Assembly

/-- What assembling a source leaves behind. After an error, labels and statements are those placed
before it. -/
structure Assembly where
  labels : Labels
  statements : List Statement
  warnings : List Warning
  rom : Except (Interruption Report) (List UInt8)

def assemble (origin : Int) (source : Text) : Assembly :=
  match (Layout.empty origin).addLines 1 (Text.lines source) with
  | (layout, some report) => ⟨layout.labels, layout.statements, [], .error (.error report)⟩
  | (layout, none) =>
    let (warnings, rom) := emit layout.labels layout.statements
    ⟨layout.labels, layout.statements, warnings, rom⟩

end Chip8
