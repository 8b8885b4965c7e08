import Chip8.Bits
import Chip8.Time.Measure

namespace Chip8

open Time

/-- A timer that loses one for every 16.6 ms that pass while it is not zero. -/
structure DelayTimer (τ : Type) where
  value : Int
  spare : τ
  deriving DecidableEq

namespace DelayTimer

variable {τ : Type} [Measure τ]

def zero : DelayTimer τ := ⟨0, 0⟩

def set (t : DelayTimer τ) (value : Int) : DelayTimer τ := { t with value := value % 256 }

def update (t : DelayTimer τ) (elapsed : τ) : DelayTimer τ × Option CountFault :=
  if t.value = 0 then (t, none)
  else
    let spare := t.spare + elapsed
    match Measure.ticks spare with
    -- time that cannot be counted is kept
    | .error fault => ({ t with spare }, some fault)
    | .ok ticks =>
      if ticks = 0 then ({ t with spare }, none)
      else if t.value ≤ ticks then (zero, none)
      else (⟨t.value - ticks, Measure.phase spare⟩, none)

end DelayTimer

end Chip8
