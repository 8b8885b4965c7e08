import Mathlib.Data.Rat.Floor
import Chip8.DelayTimer

namespace Chip8

namespace Time

def tick : ℚ := 16.6

def nearest (x : ℚ) : ℤ :=
  let n := ⌊x⌋
  if 2 * (x - n) < 1 then n
  else if 1 < 2 * (x - n) then n + 1
  else if n % 2 = 0 then n else n + 1

instance exactMeasure : Measure ℚ where
  ltDecidable a b := inferInstanceAs (Decidable (a < b))
  leDecidable a b := inferInstanceAs (Decidable (a ≤ b))
  milliseconds x := x * 1000
  period n := 1 / n
  ticks x := .ok ⌊x / tick⌋
  phase x := x - ⌊x / tick⌋ * tick
  rate n x := if x = 0 then .error .empty else .ok (n / x)
  one := 1
  wholeText x := (if x < 0 then "-" else "") ++ toString (nearest x).natAbs

theorem tick_pos : 0 < tick := by
  norm_num [tick]

end Time

end Chip8
