import Chip8.Instruction.Opcode
import Chip8.Text.Quoted

namespace Chip8.Assembly

inductive Item where
  | instruction (mnemonic : Mnemonic)
  | word
  | bits
  deriving DecidableEq, Repr

namespace Item

def name : Item → String
  | instruction m => m.name
  | word => "DW"
  | bits => "DB"

def width : Item → Nat
  | bits => 1
  | _ => 2

def isData : Item → Bool
  | instruction _ => false
  | _ => true

def operandCount : Item → Nat
  | instruction m => m.fields.length
  | _ => 1

end Item

inductive ErrorKind where
  | general
  | badSyntax
  | unknownInstruction
  | operandCount
  | operandFormat
  | literalOverflow
  | duplicateLabel
  | unresolvedLabel
  deriving DecidableEq, Repr

namespace ErrorKind

def all : List ErrorKind :=
  [general, badSyntax, unknownInstruction, operandCount, operandFormat, literalOverflow,
   duplicateLabel, unresolvedLabel]

def code : ErrorKind → String
  | general => "AssemblerError"
  | badSyntax => "AssemblySyntaxError"
  | unknownInstruction => "UnknownInstructionError"
  | operandCount => "OperandCountError"
  | operandFormat => "OperandFormatError"
  | literalOverflow => "LiteralOverflowError"
  | duplicateLabel => "DuplicateLabelError"
  | unresolvedLabel => "UnresolvedLabelError"

end ErrorKind

inductive Fault where
  | unreadableLine (line : Text)
  | unknownInstruction (word : Text)
  | duplicateLabel (name : Text) (address : Int)
  | emptyOperand (operands : Text)
  | operandCount (item : Item) (given : Nat)
  | undefinedLabel (name : Text)
  | distantLabel (name : Text) (address : Int)
  | badAddress (operand : Text)
  | badRegister (operand : Text)
  | badLiteral (kind : OperandKind) (operand : Text)
  | literalOverflow (kind : OperandKind) (value : Nat)
  | badWord (operand : Text)
  | badBits (operand : Text)
  | encoding (error : EncodingError)
  deriving DecidableEq, Repr

namespace Fault

def kind : Fault → ErrorKind
  | unreadableLine _ | emptyOperand _ => .badSyntax
  | unknownInstruction _ => .unknownInstruction
  | duplicateLabel _ _ => .duplicateLabel
  | operandCount _ _ => .operandCount
  | undefinedLabel _ => .unresolvedLabel
  | literalOverflow _ _ => .literalOverflow
  | distantLabel _ _ | badAddress _ | badRegister _ | badLiteral _ _ | badWord _ | badBits _
  | encoding _ => .operandFormat

def detail : Fault → String
  | unreadableLine line => "Cannot parse line: " ++ Text.quote line
  | unknownInstruction word => "Unknown instruction: " ++ String.ofList word
  | duplicateLabel name address =>
    "Label '" ++ String.ofList name ++ "' already defined at 0x" ++ Text.hex 3 address
  | emptyOperand operands => "Empty operand in " ++ Text.quote operands
  | operandCount (.instruction m) given =>
    s!"{m.name} takes {m.fields.length} operand(s), got {given}"
  | operandCount item given => s!"{item.name} takes 1 operand, got {given}"
  | undefinedLabel name => "Undefined label: " ++ String.ofList name
  | distantLabel name address =>
    "Label " ++ String.ofList name ++ " resolves to 0x" ++ Text.hex 1 address ++ ", outside 12-bit range"
  | badAddress operand => "Invalid address operand: " ++ Text.quote operand
  | badRegister operand => "Invalid register: " ++ Text.quote operand
  | badLiteral kind operand => s!"Invalid {kind.name} literal: " ++ Text.quote operand
  | literalOverflow kind value => s!"{kind.name} literal {value} exceeds {1 <<< kind.width - 1}"
  | badWord operand => "DW expects #HHHH, got " ++ Text.quote operand
  | badBits operand => "DB expects $ followed by 8 of 0/1/., got " ++ Text.quote operand
  | encoding error => error.message

end Fault

structure Report where
  kind : ErrorKind
  detail : String
  lineNumber : Option Int
  line : Option Text
  deriving DecidableEq, Repr

namespace Report

def message (r : Report) : String :=
  match r.lineNumber, r.line with
  | none, _ => r.detail
  | some n, none => s!"Line {n}: {r.detail}"
  | some n, some line => s!"Line {n}: {r.detail} [" ++ String.ofList (Text.trim line) ++ "]"

def withLine (r : Report) (number : Int) (line : Text) : Report :=
  { r with lineNumber := some number, line := some line }

end Report

def Fault.report (f : Fault) (number : Int) (line : Text) : Report :=
  ⟨f.kind, f.detail, some number, some line⟩

end Chip8.Assembly
