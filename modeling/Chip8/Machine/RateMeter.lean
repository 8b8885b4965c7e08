import Chip8.Time.Measure

namespace Chip8

open Time

structure RateMeter (τ : Type) where
  interval : τ
  start : Option τ
  steps : Nat
  rate : Option τ

namespace RateMeter

variable {τ : Type} [Measure τ]

def every (interval : τ) : RateMeter τ := ⟨interval, none, 0, none⟩

def record (m : RateMeter τ) (now : τ) : RateMeter τ × Except CountFault (Option τ) :=
  let start := m.start.getD now
  let m := { m with start := some start, steps := m.steps + 1 }
  let elapsed := now - start
  if m.interval ≤ elapsed then
    match Measure.rate m.steps elapsed with
    | .error fault => (m, .error fault)
    | .ok rate => ({ m with start := some now, steps := 0, rate := some rate }, .ok (some rate))
  else (m, .ok none)

def rateText (rate : τ) : String := Measure.wholeText rate ++ " instructions/s"

end RateMeter

end Chip8
