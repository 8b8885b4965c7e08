import Chip8.Text.Numeral
import Chip8.Text.Printable

namespace Chip8.Text

def lowerHex (width n : Nat) : Text := (padded 16 width n).map Char.toLower

def escapeChar (quote c : Char) : Text :=
  if c = quote ∨ c = '\\' then ['\\', c]
  else if c = '\t' then ['\\', 't']
  else if c = '\n' then ['\\', 'n']
  else if c = '\r' then ['\\', 'r']
  else if isPrintable c then [c]
  else if c.toNat ≤ 0xFF then '\\' :: 'x' :: lowerHex 2 c.toNat
  else if c.toNat ≤ 0xFFFF then '\\' :: 'u' :: lowerHex 4 c.toNat
  else '\\' :: 'U' :: lowerHex 8 c.toNat

def quoteMark (t : Text) : Char := if '\'' ∈ t ∧ '"' ∉ t then '"' else '\''

def quoted (t : Text) : Text :=
  quoteMark t :: t.flatMap (escapeChar (quoteMark t)) ++ [quoteMark t]

def quote (t : Text) : String := String.ofList (quoted t)

def NumeralFault.message (base : Nat) (t : Text) : NumeralFault → String
  | .malformed =>
    s!"invalid literal for int() with base {base}: " ++ String.ofList ((quoted t).take 200)
  | .tooLong n =>
    s!"Exceeds the limit ({maxDigits} digits) for integer string conversion: value has {n} digits; "
      ++ "use sys.set_int_max_str_digits() to increase the limit"

end Chip8.Text
