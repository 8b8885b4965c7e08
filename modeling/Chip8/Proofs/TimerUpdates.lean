import Chip8.DelayTimer
import Mathlib.Tactic.SplitIfs

namespace Chip8.DelayTimer

open Time

variable {τ : Type} [Measure τ]

inductive Updates (t : DelayTimer τ) (elapsed : τ) : DelayTimer τ → Option CountFault → Prop
  | idle (stopped : t.value = 0) : Updates t elapsed t none
  | uncounted {fault : CountFault} (running : t.value ≠ 0)
    (late : Measure.ticks (t.spare + elapsed) = .error fault) :
    Updates t elapsed { t with spare := t.spare + elapsed } (some fault)
  | waiting (running : t.value ≠ 0) (counted : Measure.ticks (t.spare + elapsed) = .ok 0) :
    Updates t elapsed { t with spare := t.spare + elapsed } none
  | expired {n : Int} (running : t.value ≠ 0) (counted : Measure.ticks (t.spare + elapsed) = .ok n)
    (moved : n ≠ 0) (used : t.value ≤ n) : Updates t elapsed zero none
  | lowered {n : Int} (running : t.value ≠ 0) (counted : Measure.ticks (t.spare + elapsed) = .ok n)
    (moved : n ≠ 0) (left : n < t.value) :
    Updates t elapsed ⟨t.value - n, Measure.phase (t.spare + elapsed)⟩ none

theorem updates_update (t : DelayTimer τ) (elapsed : τ) :
    Updates t elapsed (t.update elapsed).1 (t.update elapsed).2 := by
  by_cases hvalue : t.value = 0
  · rw [update, if_pos hvalue]
    exact .idle hvalue
  · rw [update, if_neg hvalue]
    cases hticks : Measure.ticks (t.spare + elapsed) with
    | error fault =>
      simp only [hticks]
      exact .uncounted hvalue hticks
    | ok n =>
      simp only [hticks]
      split_ifs with hzero hover
      · exact .waiting hvalue (hzero ▸ hticks)
      · exact .expired hvalue hticks hzero hover
      · exact .lowered hvalue hticks hzero (Int.not_le.mp hover)

def Forward (t : DelayTimer τ) (elapsed : τ) : Prop :=
  t.value ≠ 0 → ∀ n, Measure.ticks (t.spare + elapsed) = .ok n → 0 ≤ n

def Accepts (t : DelayTimer τ) (elapsed : τ) : Prop :=
  t.value ≠ 0 → ∃ n, Measure.ticks (t.spare + elapsed) = .ok n ∧ 0 ≤ n

theorem Accepts.forward {t : DelayTimer τ} {elapsed : τ} (h : t.Accepts elapsed) :
    t.Forward elapsed := by
  intro hrunning n hn
  obtain ⟨k, hk, hpos⟩ := h hrunning
  rw [hn, Except.ok.injEq] at hk
  exact hk ▸ hpos

namespace Updates

variable {t u : DelayTimer τ} {elapsed : τ} {fault : Option CountFault}

theorem nonneg (h : t.Updates elapsed u fault) (ht : 0 ≤ t.value) : 0 ≤ u.value := by
  cases h with
  | idle | uncounted | waiting => exact ht
  | expired => exact Int.le_refl 0
  | @lowered n running counted moved left =>
    show 0 ≤ t.value - n
    omega

theorem le (h : t.Updates elapsed u fault) (ht : 0 ≤ t.value) (hforward : t.Forward elapsed) :
    u.value ≤ t.value := by
  cases h with
  | idle | uncounted | waiting => exact Int.le_refl _
  | expired => exact ht
  | @lowered n running counted moved left =>
    have hn := hforward running n counted
    show t.value - n ≤ t.value
    omega

theorem counts (h : t.Updates elapsed u fault) (haccepts : t.Accepts elapsed) : fault = none := by
  cases h with
  | uncounted running late =>
    obtain ⟨n, hn, -⟩ := haccepts running
    rw [late] at hn
    cases hn
  | _ => rfl

end Updates

end Chip8.DelayTimer
