import Chip8.Proofs.MachineSteps

namespace Chip8

open Time

def Observer.stops {τ : Type} (p : Processor τ) : Observer → Bool
  | recorder => false
  | limiter executed => executed ≤ p.executed

namespace Machine

variable {κ κ' τ : Type}

structure Abreast (m : Machine κ τ) (n : Machine κ' τ) : Prop where
  processor : n.processor = m.processor
  stopping : n.stopping = m.stopping
  breakpoints : n.breakpoints = m.breakpoints
  observers : n.observers = m.observers

theorem Abreast.symm {m : Machine κ τ} {n : Machine κ' τ} (h : m.Abreast n) : n.Abreast m :=
  ⟨h.processor.symm, h.stopping.symm, h.breakpoints.symm, h.observers.symm⟩

theorem Abreast.trans {κ'' : Type} {m : Machine κ τ} {n : Machine κ' τ} {k : Machine κ'' τ}
    (h : m.Abreast n) (h' : n.Abreast k) : m.Abreast k :=
  ⟨h'.processor.trans h.processor, h'.stopping.trans h.stopping,
    h'.breakpoints.trans h.breakpoints, h'.observers.trans h.observers⟩

theorem foldl_notify_stopping (observers : List Observer) (m : Machine κ τ) :
    (observers.foldl notify m).stopping =
      (m.stopping || observers.any (Observer.stops m.processor)) := by
  induction observers generalizing m with
  | nil => exact (Bool.or_false _).symm
  | cons o rest ih =>
    rw [List.foldl_cons, ih, List.any_cons, ← Bool.or_assoc]
    cases o with
    | recorder => rw [notify, Observer.stops, Bool.or_false]
    | limiter executed =>
      rw [notify, Observer.stops]
      by_cases h : executed ≤ m.processor.executed
      · rw [if_pos h, decide_eq_true h, Bool.or_true]
        rfl
      · rw [if_neg h, decide_eq_false h, Bool.or_false]

theorem stepProcessor_stopping [Measure τ] (m : Machine κ τ) (elapsed : τ) :
    (m.stepProcessor elapsed).1.stopping = m.stopping := by
  rw [stepProcessor]
  split <;> rfl

variable [Clock κ τ] [Clock κ' τ]

theorem prepared_stopping (m : Machine κ τ) : m.prepared.stopping = m.stopping := by
  rw [prepared, trace]
  split_ifs <;> rfl

variable [Measure τ]

def reading (m : Machine κ τ) : τ × Option CountFault :=
  (m.elapsed m.readClock.1,
    match m.step.2 with
    | .error (.clock fault) => some fault
    | _ => none)

theorem measure_stopping (m : Machine κ τ) :
    m.publishIfRedrawn.measure.1.stopping = m.stopping := by
  have hpublish : m.publishIfRedrawn.stopping = m.stopping := by
    rw [publishIfRedrawn]
    split_ifs <;> rfl
  rw [← hpublish]
  simp only [measure]
  split
  · rfl
  · split <;> rfl

inductive Ends (m : Machine κ τ) : Machine κ τ × Except StepFault Bool → Prop
  | failed {n : Machine κ τ} {fault : StepFault} (failed : m.next.2 = some fault)
    (stopping : n.stopping = m.stopping) : Ends m (n, .error fault)
  | uncounted {n : Machine κ τ} {fault : CountFault} (done : m.next.2 = none)
    (stopping : n.stopping = m.stopping) : Ends m (n, .error (.clock fault))
  | done {n : Machine κ τ} (done : m.next.2 = none)
    (stopping : n.stopping = (m.stopping || m.observers.any (Observer.stops m.next.1))) :
    Ends m (n, .ok !m.next.1.finished)

theorem ends_step {m : Machine κ τ} (h : m.processor.finished = false) : m.Ends m.step := by
  obtain ⟨halike, hfault⟩ := m.prepared_alike.stepProcessor (m.elapsed m.readClock.1)
  have hstopping := m.prepared.stepProcessor_stopping (m.elapsed m.readClock.1)
  rw [prepared_stopping] at hstopping
  rw [step_of_unfinished h]
  rcases hstepped : m.prepared.stepProcessor (m.elapsed m.readClock.1) with ⟨n, _ | fault⟩
  · rw [hstepped] at halike hfault hstopping
    have hmeasured := halike.publishIfRedrawn.measure
    have hkept : n.publishIfRedrawn.measure.1.stopping = m.stopping :=
      n.measure_stopping.trans hstopping
    have hprocessor : n.publishIfRedrawn.measure.1.processor = m.next.1 := by
      rw [hmeasured.processor, publishIfRedrawn]
      split_ifs <;> rfl
    have hobservers : n.publishIfRedrawn.measure.1.observers = m.observers := by
      rw [hmeasured.observers, publishIfRedrawn]
      split_ifs <;> rfl
    rcases hresult : n.publishIfRedrawn.measure with ⟨k, _ | fault⟩
    · rw [hresult] at hkept hprocessor hobservers
      have hnotified := (Alike.refl k).foldl_notify k.observers
      simp only [hresult, hnotified.processor]
      rw [hprocessor]
      refine .done hfault.symm ?_
      rw [foldl_notify_stopping, hkept, hprocessor, hobservers]
    · rw [hresult] at hkept
      simp only [hresult]
      exact .uncounted hfault.symm hkept
  · rw [hstepped] at hfault hstopping
    exact .failed hfault.symm hstopping

namespace Abreast

variable {m : Machine κ τ} {n : Machine κ' τ}

theorem step (h : m.Abreast n) (hm : m.processor.finished = false)
    (hreading : m.reading = n.reading) :
    m.step.1.Abreast n.step.1 ∧ n.step.2 = m.step.2 := by
  obtain ⟨helapsed, hcount⟩ := Prod.mk.inj hreading
  have hnext : n.next = m.next := by rw [next, next, h.processor, helapsed]
  have hn : n.processor.finished = false := by rw [h.processor, hm]
  have hstopping (o : List Observer) (ho : o = m.observers) :
      (n.stopping || o.any (Observer.stops n.next.1)) =
        (m.stopping || m.observers.any (Observer.stops m.next.1)) := by
    rw [ho, h.stopping, hnext]
  have halike := m.step_alike
  have halike' := n.step_alike
  rw [bareStep_eq] at halike halike'
  have hprocessor : n.step.1.processor = m.step.1.processor :=
    halike'.processor.trans ((congrArg Prod.fst hnext).trans halike.processor.symm)
  have hbreakpoints : n.step.1.breakpoints = m.step.1.breakpoints :=
    halike'.breakpoints.trans (h.breakpoints.trans halike.breakpoints.symm)
  have hobservers : n.step.1.observers = m.step.1.observers :=
    halike'.observers.trans (h.observers.trans halike.observers.symm)
  suffices hends : n.step.1.stopping = m.step.1.stopping ∧ n.step.2 = m.step.2 from
    ⟨⟨hprocessor, hends.1, hbreakpoints, hobservers⟩, hends.2⟩
  have hm := ends_step hm
  have hn := ends_step hn
  generalize m.step = a at hm hcount ⊢
  generalize n.step = b at hn hcount ⊢
  -- equal readings rule out that only one of the steps fails
  cases hm with
  | failed failed stopping =>
    cases hn with
    | failed failed' stopping' =>
      rw [hnext, failed] at failed'
      exact ⟨stopping'.trans (h.stopping.trans stopping.symm), by cases failed'; rfl⟩
    | uncounted done' => rw [hnext, failed] at done'; cases done'
    | done done' => rw [hnext, failed] at done'; cases done'
  | uncounted done stopping =>
    cases hn with
    | failed failed' => rw [hnext, done] at failed'; cases failed'
    | uncounted done' stopping' =>
      cases hcount
      exact ⟨stopping'.trans (h.stopping.trans stopping.symm), rfl⟩
    | done => cases hcount
  | done done stopping =>
    cases hn with
    | failed failed' => rw [hnext, done] at failed'; cases failed'
    | uncounted => cases hcount
    | done done' stopping' =>
      exact ⟨stopping'.trans ((hstopping _ h.observers).trans stopping.symm), by rw [hnext]⟩

end Abreast

end Machine

namespace Run

variable {κ κ' τ : Type}

structure Abreast (r : Run κ τ) (s : Run κ' τ) : Prop where
  machine : r.machine.Abreast s.machine
  steps : s.steps = r.steps

theorem Abreast.reason?_eq {r : Run κ τ} {s : Run κ' τ} (h : r.Abreast s) (max : Option Int) :
    s.reason? max = r.reason? max := by
  simp only [reason?, h.machine.processor, h.machine.stopping, h.machine.breakpoints, h.steps]

theorem unfinished_of_reason? {r : Run κ τ} {max : Option Int} (h : r.reason? max = none) :
    r.machine.processor.finished = false := by
  cases hfinished : r.machine.processor.finished with
  | false => rfl
  | true =>
    rw [reason?, if_pos hfinished] at h
    cases h

inductive Paired (runs : Run κ τ → Run κ' τ → Prop) (machines : Machine κ τ → Machine κ' τ → Prop) :
    Turn κ τ → Turn κ' τ → Prop
  | going {r : Run κ τ} {s : Run κ' τ} (related : runs r s) :
    Paired runs machines (.going r) (.going s)
  | stopped {m : Machine κ τ} {n : Machine κ' τ} (related : machines m n) (reason : StopReason) :
    Paired runs machines (.stopped m reason) (.stopped n reason)
  | failed {m : Machine κ τ} {n : Machine κ' τ} (related : machines m n) (fault : StepFault) :
    Paired runs machines (.failed m fault) (.failed n fault)

def SameEnd {α : Type} (a : Machine κ τ × α) (b : Machine κ' τ × α) : Prop :=
  b.1.processor = a.1.processor ∧ b.2 = a.2

variable [Measure τ] [Clock κ τ] [Clock κ' τ]

def readings (max : Option Int) (throttle : Bool) : Nat → Run κ τ → List (τ × Option CountFault)
  | 0, _ => []
  | turns + 1, r =>
    match r.reason? max with
    | some _ => []
    | none =>
      r.machine.reading ::
        match r.turn max throttle with
        | .going next => next.readings max throttle turns
        | _ => []

theorem abreast_pace (r : Run κ τ) : r.Abreast r.pace := by
  have halike := r.pace_alike
  refine ⟨⟨halike.processor, ?_, halike.breakpoints, halike.observers⟩, ?_⟩
  · simp only [pace]
    split_ifs <;> rfl
  · simp only [pace]
    split_ifs <;> rfl

namespace Abreast

variable {r : Run κ τ} {s : Run κ' τ} {max : Option Int} {throttle : Bool}

theorem paced (h : r.Abreast s) : r.pace.Abreast s.pace := by
  have hr := r.abreast_pace
  have hs := s.abreast_pace
  exact ⟨hr.machine.symm.trans (h.machine.trans hs.machine),
    hs.steps.trans (h.steps.trans hr.steps.symm)⟩

theorem turn (h : r.Abreast s)
    (hreading : r.reason? max = none → r.machine.reading = s.machine.reading) :
    Paired Abreast (fun m n => n.processor = m.processor) (r.turn max throttle)
      (s.turn max throttle) := by
  rw [Run.turn, Run.turn, h.reason?_eq]
  cases hreason : r.reason? max with
  | some reason =>
    refine .stopped ?_ reason
    rw [(noteStop_alike s.machine reason).processor, (noteStop_alike r.machine reason).processor,
      h.machine.processor]
  | none =>
    obtain ⟨habreast, hresult⟩ := h.machine.step (unfinished_of_reason? hreason) (hreading hreason)
    rcases hm : r.machine.step with ⟨m, fault | going⟩ <;>
      rcases hn : s.machine.step with ⟨n, fault' | going'⟩ <;> rw [hm, hn] at habreast hresult
    · cases hresult
      exact .failed habreast.processor fault
    · cases hresult
    · cases hresult
    · have hnext : Abreast (⟨m, r.steps + 1, r.deadline⟩ : Run κ τ)
          (⟨n, s.steps + 1, s.deadline⟩ : Run κ' τ) := ⟨habreast, by rw [h.steps]⟩
      cases throttle with
      | false => exact .going hnext
      | true => exact .going hnext.paced

theorem finish {turns : Nat} (h : r.Abreast s)
    (hreadings : r.readings max throttle turns = s.readings max throttle turns) :
    Option.Rel SameEnd (r.finish max throttle turns) (s.finish max throttle turns) := by
  induction turns generalizing r s with
  | zero => exact .none
  | succ turns ih =>
    rw [readings, readings, h.reason?_eq] at hreadings
    have hpaired : Paired Abreast (fun m n => n.processor = m.processor) (r.turn max throttle)
        (s.turn max throttle) := by
      apply h.turn
      intro hreason
      rw [hreason] at hreadings
      exact List.head_eq_of_cons_eq hreadings
    rw [Run.finish, Run.finish]
    cases hreason : r.reason? max with
    | some reason =>
      rw [Run.turn, Run.turn, h.reason?_eq, hreason] at hpaired ⊢
      cases hpaired with
      | stopped related => exact .some ⟨related, rfl⟩
    | none =>
      rw [hreason] at hreadings
      have hrest := List.tail_eq_of_cons_eq hreadings
      generalize r.turn max throttle = a at hpaired hrest ⊢
      generalize s.turn max throttle = b at hpaired hrest ⊢
      cases hpaired with
      | going related => exact ih related hrest
      | stopped related reason => exact .some ⟨related, rfl⟩
      | failed related fault => exact .some ⟨related, rfl⟩

end Abreast

end Run

end Chip8
