import Chip8.Assembly.Fault

namespace Chip8.Assembly

open Text

abbrev Labels := List (Text × Int)

def isNameStart (c : Char) : Bool := c.isAlpha || c == '_'

def isName : Text → Bool
  | [] => false
  | c :: t => isNameStart c && t.all isWordChar

def marked (mark : Char) (base count : Nat) (value : Char → Option Nat) : Text → Option Nat
  | [] => none
  | c :: ds =>
    if c = mark ∧ ds.length = count then (ds.mapM value).map (valueOf base) else none

def bitValue (c : Char) : Option Nat :=
  if c = '1' then some 1 else if c = '0' ∨ c = '.' then some 0 else none

def readAddress (labels : Labels) (t : Text) : Except Fault Int :=
  match marked '$' 16 3 hexValue (dropFinalFeed t) with
  | some n => .ok n
  | none =>
    if isName (dropFinalFeed t) then
      match labels.lookup t with
      | none => .error (.undefinedLabel t)
      | some a => if 0xFFF < a then .error (.distantLabel t a) else .ok a
    else .error (.badAddress t)

def readRegister (t : Text) : Except Fault Int :=
  match dropFinalFeed t with
  | [v, d] =>
    match hexValue d with
    | some n => if v = 'V' ∨ v = 'v' then .ok n else .error (.badRegister t)
    | none => .error (.badRegister t)
  | _ => .error (.badRegister t)

def readLiteral (kind : OperandKind) (t : Text) : Except (Interruption Fault) Int :=
  let body := dropFinalFeed t
  match marked '#' 16 (kind.width / 4) hexValue body with
  | some n => .ok n
  | none =>
    if body ≠ [] ∧ body.all Char.isDigit then
      if maxDigits < body.length then .error (.endlessNumeral body.length)
      else
        let n := valueOf 10 (body.map (fun c => c.toNat - 48))
        if n < 1 <<< kind.width then .ok n else .error (.error (.literalOverflow kind n))
    else .error (.error (.badLiteral kind t))

def wordBytes (w : Nat) : List UInt8 := [UInt8.ofNat (w / 256), UInt8.ofNat w]

def readWord (t : Text) : Except Fault (List UInt8) :=
  match marked '#' 16 4 hexValue (dropFinalFeed t) with
  | some n => .ok (wordBytes n)
  | none => .error (.badWord t)

def readBits (t : Text) : Except Fault (List UInt8) :=
  match marked '$' 2 8 bitValue (dropFinalFeed t) with
  | some n => .ok [UInt8.ofNat n]
  | none => .error (.badBits t)

def readOperand (labels : Labels) (kind : OperandKind) (t : Text) :
    Except (Interruption Fault) Int :=
  match kind with
  | .address => (readAddress labels t).mapError .error
  | .register => (readRegister t).mapError .error
  | .byte | .nibble => readLiteral kind t

def splitOperands (t : Text) : Except Fault (List Text) :=
  if t = [] then .ok []
  else
    let parts := (pieces (· == ',') t).map trim
    if parts.any List.isEmpty then .error (.emptyOperand t) else .ok parts

end Chip8.Assembly
