import Chip8.Time.Measure

namespace Chip8

class Clock (κ : Type) (τ : outParam Type) where
  read : κ → τ × κ
  sleep : κ → τ → κ

structure VirtualClock (τ : Type) where
  now : τ
  tick : τ
  oversleep : τ
  waits : List τ

instance {τ : Type} [Time.Measure τ] : Clock (VirtualClock τ) τ where
  read c := (c.now, { c with now := c.now + c.tick })
  sleep c duration :=
    { c with now := c.now + (duration + c.oversleep), waits := duration :: c.waits }

def VirtualClock.start {τ : Type} [Time.Measure τ] (tick oversleep : τ) : VirtualClock τ :=
  ⟨0, tick, oversleep, []⟩

def VirtualClock.advance {τ : Type} [Time.Measure τ] (c : VirtualClock τ) (duration : τ) :
    VirtualClock τ := { c with now := c.now + duration }

end Chip8
