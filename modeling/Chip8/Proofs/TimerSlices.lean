import Mathlib.Algebra.Order.BigOperators.Group.List
import Mathlib.Algebra.Order.Floor.Ring
import Mathlib.Tactic.Linarith
import Chip8.Proofs.ExactTime
import Chip8.Proofs.TimerUpdates

namespace Chip8.DelayTimer

open Time

def updateAll {τ : Type} [Measure τ] (t : DelayTimer τ) : List τ → DelayTimer τ × Option CountFault
  | [] => (t, none)
  | elapsed :: rest =>
    match t.update elapsed with
    | (u, none) => u.updateAll rest
    | (u, some fault) => (u, some fault)

theorem updateAll_of_stopped {τ : Type} [Measure τ] {t : DelayTimer τ} (h : t.value = 0)
    (slices : List τ) : t.updateAll slices = (t, none) := by
  induction slices with
  | nil => rfl
  | cons elapsed rest ih =>
    simp only [updateAll, update, if_pos h]
    exact ih

structure InPhase (t : DelayTimer ℚ) : Prop where
  nonneg : 0 ≤ t.spare
  lt : t.spare < tick

def after (t : DelayTimer ℚ) (elapsed : ℚ) : DelayTimer ℚ :=
  let total := t.spare + elapsed
  ⟨max 0 (t.value - ⌊total / tick⌋),
    if 0 < t.value - ⌊total / tick⌋ then total - tick * ⌊total / tick⌋ else 0⟩

variable {t : DelayTimer ℚ} {elapsed : ℚ}

theorem after_of_lt (h : ⌊(t.spare + elapsed) / tick⌋ < t.value) :
    t.after elapsed = ⟨t.value - ⌊(t.spare + elapsed) / tick⌋,
      t.spare + elapsed - tick * ⌊(t.spare + elapsed) / tick⌋⟩ := by
  have hleft := Int.sub_pos.mpr h
  simp only [after, if_pos hleft, max_eq_right hleft.le]

theorem after_of_le (h : t.value ≤ ⌊(t.spare + elapsed) / tick⌋) : t.after elapsed = zero := by
  have hspent : t.value - ⌊(t.spare + elapsed) / tick⌋ ≤ 0 := by omega
  simp only [after, if_neg hspent.not_gt, max_eq_left hspent]
  rfl

theorem InPhase.floor_eq_zero (h : t.InPhase) : ⌊t.spare / tick⌋ = 0 :=
  Int.floor_eq_zero_iff.mpr ⟨div_nonneg h.nonneg tick_pos.le, (div_lt_one tick_pos).mpr h.lt⟩

theorem InPhase.after_zero (h : t.InPhase) (running : 0 < t.value) : t.after 0 = t := by
  have hfloor : ⌊(t.spare + 0) / tick⌋ = 0 := by rw [add_zero, h.floor_eq_zero]
  rw [after_of_lt (by rwa [hfloor]), hfloor]
  simp

theorem inPhase_after (t : DelayTimer ℚ) (elapsed : ℚ) : (t.after elapsed).InPhase := by
  rcases lt_or_ge ⌊(t.spare + elapsed) / tick⌋ t.value with h | h
  · rw [after_of_lt h, mul_comm]
    exact ⟨Int.sub_floor_div_mul_nonneg _ tick_pos, Int.sub_floor_div_mul_lt _ tick_pos⟩
  · rw [after_of_le h]
    exact ⟨le_refl 0, tick_pos⟩

theorem update_of_running (running : 0 < t.value) (forward : 0 ≤ t.spare + elapsed) :
    t.update elapsed = (t.after elapsed, none) := by
  have hcounted : 0 ≤ ⌊(t.spare + elapsed) / tick⌋ :=
    Int.floor_nonneg.mpr (div_nonneg forward tick_pos.le)
  have hticks : Measure.ticks (t.spare + elapsed) = .ok ⌊(t.spare + elapsed) / tick⌋ := rfl
  rw [update, if_neg running.ne']
  simp only [hticks]
  split_ifs with hzero hspent
  · rw [after_of_lt (by rwa [hzero]), hzero]
    simp
  · rw [after_of_le hspent]
  · rw [after_of_lt (not_le.mp hspent), mul_comm tick]
    rfl

theorem floor_carried (x elapsed : ℚ) :
    ⌊(x - tick * ⌊x / tick⌋ + elapsed) / tick⌋ = ⌊(x + elapsed) / tick⌋ - ⌊x / tick⌋ := by
  have hsplit : (x - tick * ⌊x / tick⌋ + elapsed) / tick = (x + elapsed) / tick - ⌊x / tick⌋ := by
    have htick := tick_pos.ne'
    field_simp
    ring
  rw [hsplit, Int.floor_sub_intCast]

theorem after_after {first second : ℚ} (running : 0 < (t.after first).value) :
    (t.after first).after second = t.after (first + second) := by
  have hfirst : ⌊(t.spare + first) / tick⌋ < t.value := by
    by_contra h
    rw [after_of_le (not_lt.mp h)] at running
    exact lt_irrefl 0 running
  have hspare (n m : ℤ) : t.spare + first - tick * n + second - tick * (m - n : ℤ) =
      t.spare + (first + second) - tick * m := by
    push_cast
    ring
  rw [after_of_lt hfirst, after, after]
  simp only [floor_carried, sub_sub_sub_cancel_right, hspare, add_assoc t.spare first second]

theorem after_add_of_stopped {first second : ℚ} (stopped : ¬0 < (t.after first).value)
    (forward : 0 ≤ second) : t.after first = zero ∧ t.after (first + second) = zero := by
  have hfirst : t.value ≤ ⌊(t.spare + first) / tick⌋ := by
    by_contra h
    rw [after_of_lt (not_le.mp h)] at stopped
    exact stopped (Int.sub_pos.mpr (not_le.mp h))
  have hlater : ⌊(t.spare + first) / tick⌋ ≤ ⌊(t.spare + (first + second)) / tick⌋ := by
    apply Int.floor_le_floor
    apply (div_le_div_iff_of_pos_right tick_pos).mpr
    linarith
  exact ⟨after_of_le hfirst, after_of_le (hfirst.trans hlater)⟩

theorem InPhase.updateAll_eq {slices : List ℚ} (h : t.InPhase) (running : 0 < t.value)
    (forward : ∀ e ∈ slices, 0 ≤ e) : t.updateAll slices = (t.after slices.sum, none) := by
  induction slices generalizing t with
  | nil => rw [updateAll, List.sum_nil, h.after_zero running]
  | cons first rest ih =>
    have hfirst : 0 ≤ first := forward first List.mem_cons_self
    have hrest : ∀ e ∈ rest, 0 ≤ e := fun e he => forward e (List.mem_cons_of_mem first he)
    simp only [updateAll, update_of_running running (add_nonneg h.nonneg hfirst), List.sum_cons]
    -- the timer still runs and the rest is counted from its remainder, or it has run out for good
    by_cases hstill : 0 < (t.after first).value
    · rw [ih (inPhase_after t first) hstill hrest, after_after hstill]
    · obtain ⟨hspent, hspent'⟩ := after_add_of_stopped hstill (List.sum_nonneg hrest)
      rw [hspent, hspent', updateAll_of_stopped rfl]

theorem updateAll_slices {slices : List ℚ} (running : 0 < t.value) (nonneg : 0 ≤ t.spare)
    (lt : t.spare < tick) (forward : ∀ e ∈ slices, 0 ≤ e) :
    t.updateAll slices =
        (⟨max 0 (t.value - ⌊(t.spare + slices.sum) / tick⌋),
          if 0 < t.value - ⌊(t.spare + slices.sum) / tick⌋ then
            t.spare + slices.sum - tick * ⌊(t.spare + slices.sum) / tick⌋
          else 0⟩, none) ∧
      t.updateAll slices = t.update slices.sum := by
  have hslices := InPhase.updateAll_eq ⟨nonneg, lt⟩ running forward
  refine ⟨hslices, ?_⟩
  rw [hslices, update_of_running running (add_nonneg nonneg (List.sum_nonneg forward))]

theorem updateAll_slices_carried :
    (0 : ℤ) < 3 ∧ (10 : ℚ) < tick ∧ (∀ e ∈ [5, 3, 0, (12 : ℚ)], 0 ≤ e) ∧
    (⟨3, 10⟩ : DelayTimer ℚ).updateAll [5, 3, 0, 12] = (⟨2, 13.4⟩, none) ∧
    (⟨3, 10⟩ : DelayTimer ℚ).updateAll [5, 3, 0, 12] = (⟨3, 10⟩ : DelayTimer ℚ).update 20 := by
  have hrunning : (0 : ℤ) < 3 := by decide
  have hphase : (10 : ℚ) < tick := by norm_num [tick]
  have hforward : ∀ e ∈ [5, 3, 0, (12 : ℚ)], 0 ≤ e := by decide +kernel
  obtain ⟨hslices, honce⟩ :=
    @updateAll_slices ⟨3, 10⟩ [5, 3, 0, 12] hrunning (by norm_num) hphase hforward
  have hsum : [5, 3, 0, (12 : ℚ)].sum = 20 := by norm_num
  rw [hsum] at honce
  refine ⟨hrunning, hphase, hforward, ?_, honce⟩
  rw [hslices]
  decide +kernel

end Chip8.DelayTimer
