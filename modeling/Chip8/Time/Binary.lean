namespace Chip8.Time

structure Scaled where
  mantissa : Int
  exponent : Int
  deriving DecidableEq, Repr

namespace Scaled

def ofFloat? (x : Float) : Option Scaled :=
  let bits := x.toBits.toNat
  let fraction : Nat := bits % 0x10000000000000
  let exponent : Nat := bits / 0x10000000000000 % 0x800
  let sign : Int := if bits < 0x8000000000000000 then 1 else -1
  if exponent = 2047 then none
  else if exponent = 0 then some ⟨sign * fraction, -1074⟩
  else some ⟨sign * (fraction + 0x10000000000000 : Nat), (exponent : Int) - 1075⟩

def floor (s : Scaled) : Int :=
  if 0 ≤ s.exponent then s.mantissa <<< s.exponent.toNat
  else s.mantissa >>> (-s.exponent).toNat

def round (s : Scaled) : Int :=
  let n := s.floor
  if 0 ≤ s.exponent then n
  else
    let unit : Int := 1 <<< (-s.exponent).toNat
    let twice := 2 * (s.mantissa - n * unit)
    if twice < unit then n
    else if unit < twice then n + 1
    else if n % 2 = 0 then n else n + 1

def remainder (s t : Scaled) : Scaled :=
  let e := min s.exponent t.exponent
  ⟨(s.mantissa <<< (s.exponent - e).toNat).tmod (t.mantissa <<< (t.exponent - e).toNat), e⟩

def toFloat (s : Scaled) : Float := (Float.ofInt s.mantissa).scaleB s.exponent

end Scaled

def floorMod (x y : Float) : Float :=
  match Scaled.ofFloat? x, Scaled.ofFloat? y with
  | some s, some t =>
    let r := s.remainder t
    if r.mantissa = 0 then 0
    else if (r.mantissa < 0) = (t.mantissa < 0) then r.toFloat
    -- the sum is rounded
    else r.toFloat + y
  | _, _ => x - x

def wholeText (x : Float) : String :=
  let sign := if x.toBits.toNat < 0x8000000000000000 then "" else "-"
  match Scaled.ofFloat? x with
  | some s => sign ++ toString s.round.natAbs
  | none => if x.isNaN then "nan" else sign ++ "inf"

end Chip8.Time
