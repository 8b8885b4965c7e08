import Chip8.Text.DecimalDigit

namespace Chip8

/-- What ends early, with an error or at a decimal numeral of more digits than are ever read or
written. -/
inductive Interruption (ε : Type) where
  | error (error : ε)
  | endlessNumeral (digits : Nat)
  deriving DecidableEq, Repr

def Interruption.map {ε δ : Type} (f : ε → δ) : Interruption ε → Interruption δ
  | error e => error (f e)
  | endlessNumeral n => endlessNumeral n

namespace Text

def digits (base n : Nat) : Text := (Nat.toDigits base n).map Char.toUpper

def padded (base width : Nat) (n : Int) : Text :=
  let sign : Text := if n < 0 then ['-'] else []
  let magnitude := digits base n.natAbs
  sign ++ List.replicate (width - sign.length - magnitude.length) '0' ++ magnitude

def hex (width : Nat) (n : Int) : String := String.ofList (padded 16 width n)

def binary (width : Nat) (n : Int) : String := String.ofList (padded 2 width n)

def alnumValue (c : Char) : Option Nat :=
  if '0' ≤ c ∧ c ≤ '9' then some (c.toNat - 48)
  else if 'A' ≤ c ∧ c ≤ 'Z' then some (c.toNat - 55)
  else if 'a' ≤ c ∧ c ≤ 'z' then some (c.toNat - 87)
  else none

def digitValue (base : Nat) (c : Char) : Option Nat := (alnumValue c).filter (· < base)

def hexValue : Char → Option Nat := digitValue 16

def valueOf (base : Nat) (ds : List Nat) : Nat := ds.foldl (fun n d => n * base + d) 0

def maxDigits : Nat := 4300

inductive NumeralFault where
  | malformed
  | tooLong (digits : Nat)
  deriving DecidableEq, Repr

def groupedDigits (base : Nat) : Text → Option (List Nat)
  | [] => none
  | [c] => (digitValue base c).map ([·])
  | c :: '_' :: t => do return (← digitValue base c) :: (← groupedDigits base t)
  | c :: t => do return (← digitValue base c) :: (← groupedDigits base t)

def isNumeralBlank (c : Char) : Bool := isBlank c && !(0x1C ≤ c.toNat && c.toNat ≤ 0x1F)

def trimNumeral (t : Text) : Text :=
  ((t.dropWhile isNumeralBlank).reverse.dropWhile isNumeralBlank).reverse

def toAsciiDigit (c : Char) : Char := ((decimalValue c).map (fun d => Char.ofNat (48 + d))).getD c

def dropHexMark : Text → Text
  | '0' :: x :: t => if x = 'x' ∨ x = 'X' then (match t with | '_' :: t => t | t => t) else '0' :: x :: t
  | t => t

def splitSign : Text → Int × Text
  | '+' :: t => (1, t)
  | '-' :: t => (-1, t)
  | t => (1, t)

def isNumeralChar (base : Nat) (c : Char) : Bool := c == '_' || (digitValue base c).isSome

def readInt (base : Nat) (t : Text) : Except NumeralFault Int :=
  let (sign, signless) := splitSign ((trimNumeral t).map toAsciiDigit)
  let body := if base = 16 then dropHexMark signless else signless
  match groupedDigits base (body.takeWhile (isNumeralChar base)) with
  | none => .error .malformed
  | some ds =>
    -- the length is judged before what follows the digits
    if base = 10 ∧ maxDigits < ds.length then .error (.tooLong ds.length)
    else if body.all (isNumeralChar base) then .ok (sign * valueOf base ds)
    else .error .malformed

end Text

end Chip8
