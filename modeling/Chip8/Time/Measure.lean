import Chip8.Time.Binary

namespace Chip8

namespace Time

inductive CountFault where
  | notANumber
  | infinite
  | empty
  deriving DecidableEq, Repr

/-- Numbers that measure time: seconds on a clock, and milliseconds on the delay timer, which `ticks`
counts in whole periods of 16.6 with the `phase` as the rest. -/
class Measure (τ : Type) extends Zero τ, Add τ, Sub τ, Neg τ, LT τ, LE τ where
  ltDecidable : ∀ a b : τ, Decidable (a < b)
  leDecidable : ∀ a b : τ, Decidable (a ≤ b)
  milliseconds : τ → τ
  period : Nat → τ
  ticks : τ → Except CountFault Int
  phase : τ → τ
  rate : Nat → τ → Except CountFault τ
  one : τ
  wholeText : τ → String

instance decidableLt {τ : Type} [Measure τ] (a b : τ) : Decidable (a < b) := Measure.ltDecidable a b

instance decidableLe {τ : Type} [Measure τ] (a b : τ) : Decidable (a ≤ b) := Measure.leDecidable a b

def tickLength : Float := 16.6

def floatTicks (x : Float) : Except CountFault Int :=
  match Scaled.ofFloat? (x / tickLength) with
  | some s => .ok s.floor
  | none => .error (if x.isNaN then .notANumber else .infinite)

instance : Measure Float where
  zero := 0
  ltDecidable a b := inferInstanceAs (Decidable (a < b))
  leDecidable a b := inferInstanceAs (Decidable (a ≤ b))
  milliseconds x := x * 1000
  period n := 1 / Float.ofNat n
  ticks := floatTicks
  phase x := floorMod x tickLength
  rate n x := if x == 0 then .error .empty else .ok (Float.ofNat n / x)
  one := 1
  wholeText := wholeText

end Time

end Chip8
