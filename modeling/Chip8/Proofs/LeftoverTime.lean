import Mathlib.Data.List.Induction
import Chip8.Proofs.TimerSlices

namespace Chip8.DelayTimer

open Time

variable {τ : Type} [Measure τ]

inductive Operation (τ : Type) where
  | set (value : Int)
  | update (elapsed : τ)
  | reset

def operate (t : DelayTimer τ) : Operation τ → DelayTimer τ
  | .set value => t.set value
  | .update elapsed => (t.update elapsed).1
  | .reset => zero

def history (ops : List (Operation τ)) : DelayTimer τ := ops.foldl operate zero

def Operation.Idle : Operation τ → Prop
  | set value => value % 256 = 0
  | update _ => True
  | reset => False

/-- A zero was stored while there was time left over, and since then the timer was not started or
reset. -/
inductive Stranded (ops : List (Operation τ)) : Prop
  | stored {front back : List (Operation τ)} {value : Int}
    (split : ops = front ++ .set value :: back) (zeroed : value % 256 = 0)
    (left : (history front).spare ≠ 0) (idle : ∀ op ∈ back, op.Idle) : Stranded ops

theorem history_concat (ops : List (Operation τ)) (op : Operation τ) :
    history (ops ++ [op]) = (history ops).operate op := by
  rw [history, List.foldl_append]
  rfl

theorem Stranded.concat {ops : List (Operation τ)} {op : Operation τ} (h : Stranded ops)
    (idle : op.Idle) : Stranded (ops ++ [op]) := by
  cases h with
  | @stored front back value split zeroed left idles =>
    have hsplit : ops ++ [op] = front ++ .set value :: (back ++ [op]) := by
      rw [split, List.append_assoc, List.cons_append]
    have hidles : ∀ o ∈ back ++ [op], o.Idle := by
      intro o ho
      rcases List.mem_append.mp ho with ho | ho
      · exact idles o ho
      · rwa [List.mem_singleton.mp ho]
    exact .stored hsplit zeroed left hidles

theorem foldl_operate_of_idle {t : DelayTimer τ} (stopped : t.value = 0) {ops : List (Operation τ)}
    (idle : ∀ op ∈ ops, op.Idle) : ops.foldl operate t = t := by
  induction ops with
  | nil => rfl
  | cons op rest ih =>
    have hop : t.operate op = t := by
      have hidle := idle op List.mem_cons_self
      cases op with
      | set value =>
        have hzero : value % 256 = t.value := Eq.trans hidle stopped.symm
        rw [operate, set, hzero]
      | update elapsed => rw [operate, update, if_pos stopped]
      | reset => exact hidle.elim
    rw [List.foldl_cons, hop]
    exact ih fun o ho => idle o (List.mem_cons_of_mem op ho)

theorem stranded_of_leftover {ops : List (Operation τ)} (stopped : (history ops).value = 0)
    (left : (history ops).spare ≠ 0) : Stranded ops := by
  induction ops using List.reverseRecOn with
  | nil => exact absurd rfl left
  | append_singleton ops op ih =>
    rw [history_concat] at stopped left
    cases op with
    | set value => exact .stored rfl stopped left (by simp)
    | reset => exact absurd rfl left
    | update elapsed =>
      have hupdates := (history ops).updates_update elapsed
      rw [operate] at stopped left
      generalize (history ops).update elapsed = r at stopped left hupdates
      obtain ⟨u, fault⟩ := r
      -- counting down to zero clears the time, so the timer stood at zero before
      cases hupdates with
      | idle stood => exact (ih stood left).concat trivial
      | uncounted running | waiting running => exact absurd stopped running
      | expired => exact absurd rfl left
      | lowered running counted moved short =>
        have hleft := Int.sub_pos.mpr short
        exact absurd stopped hleft.ne'

theorem Stranded.leftover {ops : List (Operation τ)} (h : Stranded ops) :
    (history ops).value = 0 ∧ (history ops).spare ≠ 0 := by
  cases h with
  | @stored front back value split zeroed left idle =>
    have hstored : history ops = (history front).set value := by
      rw [split, history, List.foldl_append, List.foldl_cons]
      exact foldl_operate_of_idle zeroed idle
    rw [hstored]
    exact ⟨zeroed, left⟩

theorem history_sound {ops : List (Operation ℚ)} (forward : ∀ e, .update e ∈ ops → 0 ≤ e) :
    0 ≤ (history ops).value ∧ (history ops).InPhase := by
  induction ops using List.reverseRecOn with
  | nil => exact ⟨le_refl 0, le_refl 0, tick_pos⟩
  | append_singleton ops op ih =>
    obtain ⟨hvalue, hphase⟩ := ih fun e he => forward e (List.mem_append_left _ he)
    rw [history_concat]
    cases op with
    | set value => exact ⟨Int.emod_nonneg value (by decide), hphase.nonneg, hphase.lt⟩
    | reset => exact ⟨le_refl 0, le_refl 0, tick_pos⟩
    | update elapsed =>
      have helapsed : 0 ≤ elapsed := forward elapsed (by simp)
      refine ⟨((history ops).updates_update elapsed).nonneg hvalue, ?_⟩
      rw [operate]
      rcases hvalue.eq_or_lt with hstopped | hrunning
      · rwa [update, if_pos hstopped.symm]
      · rw [update_of_running hrunning (add_nonneg hphase.nonneg helapsed)]
        exact inPhase_after _ _

theorem InPhase.value_after_eq {t : DelayTimer ℚ} (h : t.InPhase) (running : 0 < t.value)
    {elapsed : ℚ} (forward : 0 ≤ elapsed) :
    (t.after elapsed).value = t.value ↔ t.spare + elapsed < tick := by
  have htotal : 0 ≤ (t.spare + elapsed) / tick :=
    div_nonneg (add_nonneg h.nonneg forward) tick_pos.le
  have hcounted : 0 ≤ ⌊(t.spare + elapsed) / tick⌋ := Int.floor_nonneg.mpr htotal
  calc (t.after elapsed).value = t.value
      ↔ ⌊(t.spare + elapsed) / tick⌋ = 0 := by
        show max 0 (t.value - ⌊(t.spare + elapsed) / tick⌋) = t.value ↔ _
        omega
    _ ↔ (t.spare + elapsed) / tick < 1 := by
        rw [Int.floor_eq_zero_iff, Set.mem_Ico, and_iff_right htotal]
    _ ↔ t.spare + elapsed < tick := div_lt_one tick_pos

/-- A timer is at zero with time left over if and only if a zero was stored in it in the middle of a
period. A timer that is started makes its first count when the time left over and the time since then
make up a period. -/
theorem leftover_iff_stranded :
    (∀ ops : List (Operation τ),
      (history ops).value = 0 ∧ (history ops).spare ≠ 0 ↔ Stranded ops) ∧
    ∀ ops : List (Operation ℚ), (∀ e, .update e ∈ ops → 0 ≤ e) →
      ∀ (value : Int) (slices : List ℚ), value % 256 ≠ 0 → (∀ e ∈ slices, 0 ≤ e) →
        ∃ u, ((history ops).set value).updateAll slices = (u, none) ∧
          (u.value = value % 256 ↔ (history ops).spare + slices.sum < tick) := by
  constructor
  · exact fun ops => ⟨fun h => stranded_of_leftover h.1 h.2, Stranded.leftover⟩
  · intro ops forward value slices hvalue hslices
    have hphase : ((history ops).set value).InPhase :=
      ⟨(history_sound forward).2.nonneg, (history_sound forward).2.lt⟩
    have hrunning : 0 < ((history ops).set value).value :=
      (Int.emod_nonneg value (by decide)).lt_of_ne' hvalue
    exact ⟨_, hphase.updateAll_eq hrunning hslices,
      hphase.value_after_eq hrunning (List.sum_nonneg hslices)⟩

theorem leftover_iff_stranded_early : ∃ ops : List (Operation ℚ),
    ops = [.set 5, .update 10, .set 0] ∧ (∀ e, .update e ∈ ops → 0 ≤ e) ∧
    (∀ e ∈ [4, (6 : ℚ)], 0 ≤ e) ∧ history ops = ⟨0, 10⟩ ∧ Stranded ops ∧
    ∃ u, ((history ops).set 3).updateAll [4, 6] = (u, none) ∧ u.value ≠ 3 := by
  let ops : List (Operation ℚ) := [.set 5, .update 10, .set 0]
  have hkept : history ops = ⟨0, 10⟩ := by decide +kernel
  have hforward : ∀ e, .update e ∈ ops → 0 ≤ e := by
    intro e he
    obtain rfl : e = 10 := by simpa [ops] using he
    norm_num
  have hslices : ∀ e ∈ [4, (6 : ℚ)], 0 ≤ e := by decide +kernel
  obtain ⟨hstranded, hstarted⟩ := @leftover_iff_stranded ℚ _
  obtain ⟨u, hu, hvalue⟩ := hstarted ops hforward 3 [4, 6] (by decide) hslices
  refine ⟨ops, rfl, hforward, hslices, hkept, (hstranded ops).mp ?_, u, hu, ?_⟩
  · rw [hkept]
    exact ⟨rfl, by norm_num⟩
  · have hlate : ¬((10 : ℚ) + [4, (6 : ℚ)].sum < tick) := by norm_num [tick]
    rw [hkept] at hvalue
    exact mt hvalue.mp hlate

theorem stored_zero_keeps_time :
    (history [.set 5, .update 10, .set 0] : DelayTimer Float) = ⟨0, 10⟩ ∧
    (history [.set 5, .update 10, .set 0, .set 3, .update 10] : DelayTimer Float).value = 2 := by
  decide +kernel

end Chip8.DelayTimer
