import Chip8.Proofs.MachineSteps

namespace Chip8

open Time

variable {κ τ : Type} [Measure τ] [Clock κ τ]

def Machine.stepped (m : Machine κ τ) : Nat → Machine κ τ
  | 0 => m
  | i + 1 => (m.stepped i).step.1

namespace StopReason

def Applies (m : Machine κ τ) (max : Option Int) (steps : Nat) : StopReason → Prop
  | finished => (m.stepped steps).processor.finished = true
  | stopped => (m.stepped steps).stopping = true
  | maxSteps => ∃ n, max = some n ∧ n ≤ steps
  | breakpoint => 0 < steps ∧ ((m.stepped steps).processor.pc : Int) ∈ m.breakpoints

def rank : StopReason → Nat
  | finished => 0
  | stopped => 1
  | maxSteps => 2
  | breakpoint => 3

structure Prevails (m : Machine κ τ) (max : Option Int) (steps : Nat) (reason : StopReason) :
    Prop where
  applies : reason.Applies m max steps
  first : ∀ other : StopReason, other.Applies m max steps → reason.rank ≤ other.rank

theorem rank_injective {reason other : StopReason} (h : reason.rank = other.rank) :
    reason = other := by
  cases reason <;> cases other <;> first | rfl | cases h

theorem Prevails.unique {m : Machine κ τ} {max : Option Int} {steps : Nat}
    {reason other : StopReason} (h : reason.Prevails m max steps)
    (h' : other.Prevails m max steps) : reason = other :=
  rank_injective (Nat.le_antisymm (h.first other h'.applies) (h'.first reason h.applies))

end StopReason

namespace Machine

variable {m : Machine κ τ} {max : Option Int} {i k : Nat}

structure Ready (m : Machine κ τ) (max : Option Int) (i : Nat) : Prop where
  unfinished : (m.stepped i).processor.finished = false
  unstopped : (m.stepped i).stopping = false
  allowed : ∀ n, max = some n → i < n
  passed : 0 < i → ((m.stepped i).processor.pc : Int) ∉ m.breakpoints

structure Makes (m : Machine κ τ) (max : Option Int) (i : Nat) : Prop where
  ready : m.Ready max i
  succeeded : ∃ more, (m.stepped i).step.2 = .ok more

inductive RunEnds (m : Machine κ τ) (max : Option Int) (k : Nat) :
    Machine κ τ × Except StepFault StopReason → Prop
  | stopped {reason : StopReason} (prevails : reason.Prevails m max k) :
    RunEnds m max k (Run.noteStop (m.stepped k) reason, .ok reason)
  | failed {fault : StepFault} (ready : m.Ready max k)
    (failed : (m.stepped k).step.2 = .error fault) :
    RunEnds m max k (m.stepped (k + 1), .error fault)

theorem ready_iff : m.Ready max i ↔ ∀ reason : StopReason, ¬reason.Applies m max i := by
  constructor
  · intro h reason
    cases reason with
    | finished => exact Bool.eq_false_iff.mp h.unfinished
    | stopped => exact Bool.eq_false_iff.mp h.unstopped
    | maxSteps =>
      rintro ⟨n, hn, hle⟩
      exact absurd (h.allowed n hn) (by omega)
    | breakpoint => exact fun hstop => h.passed hstop.1 hstop.2
  · intro h
    refine ⟨Bool.eq_false_iff.mpr (h .finished), Bool.eq_false_iff.mpr (h .stopped), ?_, ?_⟩
    · exact fun n hn => Int.not_le.mp fun hle => h .maxSteps ⟨n, hn, hle⟩
    · exact fun hi hpc => h .breakpoint ⟨hi, hpc⟩

theorem stepped_breakpoints (m : Machine κ τ) (i : Nat) :
    (m.stepped i).breakpoints = m.breakpoints := by
  induction i with
  | zero => rfl
  | succ i ih =>
    rw [stepped, (step_alike _).breakpoints, bareStep_eq]
    exact ih

def runAt (m : Machine κ τ) (deadline : τ) (i : Nat) : Run κ τ := ⟨m.stepped i, i, deadline⟩

theorem reason?_runAt (m : Machine κ τ) (max : Option Int) (deadline : τ) (i : Nat) :
    ((m.runAt deadline i).reason? max = none ∧ m.Ready max i) ∨
      ∃ reason : StopReason, (m.runAt deadline i).reason? max = some reason ∧
        reason.Prevails m max i := by
  have hreason : (m.runAt deadline i).reason? max =
      if (m.stepped i).processor.finished then some .finished
      else if (m.stepped i).stopping then some .stopped
      else if max.any (fun n => n ≤ (i : Int)) then some .maxSteps
      else if 0 < i ∧ ((m.stepped i).processor.pc : Int) ∈ m.breakpoints then some .breakpoint
      else none := by
    rw [← stepped_breakpoints m i]
    rfl
  have hmax : max.any (fun n => n ≤ (i : Int)) = true ↔ ∃ n, max = some n ∧ n ≤ i := by
    simp only [Option.any_eq_true, decide_eq_true_eq]
  rw [hreason]
  -- the conditions come in the order of the reasons, each with those before it refuted
  split_ifs with hfinished hstopping hspent hpassed
  · exact .inr ⟨_, rfl, hfinished, fun _ _ => Nat.zero_le _⟩
  · refine .inr ⟨_, rfl, hstopping, fun other hother => ?_⟩
    cases other with
    | finished => exact absurd hother hfinished
    | _ => decide
  · refine .inr ⟨_, rfl, hmax.mp hspent, fun other hother => ?_⟩
    cases other with
    | finished => exact absurd hother hfinished
    | stopped => exact absurd hother hstopping
    | _ => decide
  · refine .inr ⟨_, rfl, hpassed, fun other hother => ?_⟩
    cases other with
    | finished => exact absurd hother hfinished
    | stopped => exact absurd hother hstopping
    | maxSteps => exact absurd (hmax.mpr hother) hspent
    | breakpoint => exact Nat.le_refl _
  · refine .inl ⟨rfl, ready_iff.mpr fun reason => ?_⟩
    cases reason with
    | finished => exact hfinished
    | stopped => exact hstopping
    | maxSteps => exact mt hmax.mpr hspent
    | breakpoint => exact hpassed

inductive Turned (m : Machine κ τ) (max : Option Int) (deadline : τ) (i : Nat) : Turn κ τ → Prop
  | going (makes : m.Makes max i) :
    Turned m max deadline i (.going (m.runAt deadline (i + 1)))
  | stopped {reason : StopReason} (prevails : reason.Prevails m max i) :
    Turned m max deadline i (.stopped (Run.noteStop (m.stepped i) reason) reason)
  | failed {fault : StepFault} (ready : m.Ready max i)
    (failed : (m.stepped i).step.2 = .error fault) :
    Turned m max deadline i (.failed (m.stepped (i + 1)) fault)

theorem turned_turn (m : Machine κ τ) (max : Option Int) (deadline : τ) (i : Nat) :
    m.Turned max deadline i ((m.runAt deadline i).turn max false) := by
  rcases m.reason?_runAt max deadline i with ⟨hreason, hready⟩ | ⟨reason, hreason, hprevails⟩
  · have hstepped : (m.runAt deadline i).machine.step = (m.stepped (i + 1), (m.stepped i).step.2) :=
      rfl
    rw [Run.turn, hreason, hstepped]
    cases hstep : (m.stepped i).step.2 with
    | error fault => exact .failed hready hstep
    | ok more => exact .going ⟨hready, more, hstep⟩
  · rw [Run.turn, hreason]
    exact .stopped hprevails

variable {deadline : τ} {outcome : Machine κ τ × Except StepFault StopReason}

theorem Ready.not_prevails (h : m.Ready max i) {reason : StopReason}
    (prevails : reason.Prevails m max i) : False :=
  ready_iff.mp h reason prevails.applies

theorem Turned.unique {turn turn' : Turn κ τ} (h : m.Turned max deadline i turn)
    (h' : m.Turned max deadline i turn') : turn = turn' := by
  cases h with
  | going makes =>
    cases h' with
    | going => rfl
    | stopped prevails => exact (makes.ready.not_prevails prevails).elim
    | failed _ failed =>
      obtain ⟨more, hmore⟩ := makes.succeeded
      rw [hmore] at failed
      cases failed
  | stopped prevails =>
    cases h' with
    | going makes => exact (makes.ready.not_prevails prevails).elim
    | stopped prevails' => rw [prevails.unique prevails']
    | failed ready => exact (ready.not_prevails prevails).elim
  | failed ready failed =>
    cases h' with
    | going makes =>
      obtain ⟨more, hmore⟩ := makes.succeeded
      rw [hmore] at failed
      cases failed
    | stopped prevails => exact (ready.not_prevails prevails).elim
    | failed _ failed' =>
      rw [failed] at failed'
      cases failed'
      rfl

theorem Turned.turn_eq {turn : Turn κ τ} (h : m.Turned max deadline i turn) :
    (m.runAt deadline i).turn max false = turn :=
  (m.turned_turn max deadline i).unique h

theorem finish_add (h : ∀ i < k, m.Makes max i) (fuel : Nat) :
    (m.runAt deadline 0).finish max false (fuel + k) =
      (m.runAt deadline k).finish max false fuel := by
  induction k generalizing fuel with
  | zero => rfl
  | succ k ih =>
    have hmade : (m.runAt deadline k).finish max false (fuel + 1) =
        (m.runAt deadline (k + 1)).finish max false fuel := by
      rw [Run.finish, Turned.turn_eq (.going (h k (Nat.lt_succ_self k)))]
    rw [← hmade, ← ih (fun i hi => h i (Nat.lt_succ_of_lt hi)), Nat.add_right_comm, Nat.add_assoc]

theorem RunEnds.finish (h : m.RunEnds max k outcome) :
    (m.runAt deadline k).finish max false 1 = some outcome := by
  rw [Run.finish]
  cases h with
  | stopped prevails => rw [Turned.turn_eq (.stopped prevails)]
  | failed ready failed => rw [Turned.turn_eq (.failed ready failed)]

theorem exists_runEnds {fuel : Nat} (hmade : ∀ j < i, m.Makes max j)
    (h : (m.runAt deadline i).finish max false fuel = some outcome) :
    ∃ k, (∀ j < k, m.Makes max j) ∧ m.RunEnds max k outcome := by
  induction fuel generalizing i with
  | zero => cases h
  | succ fuel ih =>
    have hturned := m.turned_turn max deadline i
    rw [Run.finish] at h
    generalize (m.runAt deadline i).turn max false = turn at h hturned
    cases hturned with
    | going makes =>
      refine ih (fun j hj => ?_) h
      rcases Nat.lt_succ_iff_lt_or_eq.mp hj with hj | rfl
      · exact hmade j hj
      · exact makes
    | stopped prevails =>
      obtain rfl := Option.some.inj h
      exact ⟨i, hmade, .stopped prevails⟩
    | failed ready failed =>
      obtain rfl := Option.some.inj h
      exact ⟨i, hmade, .failed ready failed⟩

/-- A run without pauses is the step made again and again. It returns if and only if some number of
steps can be made, before each of which the program is unfinished, no stop is requested, more steps
are allowed and no breakpoint is reached, and after which there is a reason to stop or a step fails.
The first of the reasons is the answer. -/
theorem run_returns_iff (m : Machine κ τ) (max : Option Int)
    (outcome : Machine κ τ × Except StepFault StopReason) :
    (∃ fuel, m.run fuel max false = some outcome) ↔
      ∃ k, (∀ i < k, (Run.start m).machine.Makes max i) ∧
        (Run.start m).machine.RunEnds max k outcome := by
  have hrun (fuel : Nat) : m.run fuel max false =
      ((Run.start m).machine.runAt (Run.start m).deadline 0).finish max false fuel := rfl
  constructor
  · rintro ⟨fuel, h⟩
    exact exists_runEnds (fun j hj => absurd hj (Nat.not_lt_zero j)) h
  · rintro ⟨k, hmakes, hends⟩
    exact ⟨1 + k, by rw [hrun, finish_add hmakes, hends.finish]⟩

end Machine

end Chip8
