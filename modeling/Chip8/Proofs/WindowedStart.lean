import Chip8.Proofs.MachineHistory
import Chip8.Proofs.RunCourse
import Mathlib.Algebra.Order.Ring.Nat

namespace Chip8

open Time

namespace Viewing

def turns (v : Viewing) : Nat := (v.looks.map Prod.fst).sum

def Quiet (v : Viewing) : Prop := ∀ look ∈ v.looks, look.2.any WindowEvent.ends = false

def Closes (v : Viewing) : Prop := ∃ events ∈ v.closing, events.any WindowEvent.ends = true

end Viewing

namespace Machine

variable {κ τ : Type}

/-- Machines that differ at most in the window and in what they show. -/
structure Twin (m n : Machine κ τ) : Prop where
  settings : n.settings = m.settings
  processor : n.processor = m.processor
  frame : n.frame = m.frame
  meter : n.meter = m.meter
  stopping : n.stopping = m.stopping
  failure : n.failure = m.failure
  lastStep : n.lastStep = m.lastStep
  breakpoints : n.breakpoints = m.breakpoints
  observers : n.observers = m.observers
  seen : n.seen = m.seen
  clock : n.clock = m.clock

namespace Twin

variable {m n k : Machine κ τ}

theorem refl (m : Machine κ τ) : m.Twin m := ⟨rfl, rfl, rfl, rfl, rfl, rfl, rfl, rfl, rfl, rfl, rfl⟩

theorem trans (h : m.Twin n) (h' : n.Twin k) : m.Twin k :=
  ⟨h'.settings.trans h.settings, h'.processor.trans h.processor, h'.frame.trans h.frame,
    h'.meter.trans h.meter, h'.stopping.trans h.stopping, h'.failure.trans h.failure,
    h'.lastStep.trans h.lastStep, h'.breakpoints.trans h.breakpoints,
    h'.observers.trans h.observers, h'.seen.trans h.seen, h'.clock.trans h.clock⟩

theorem trace (h : m.Twin n) : m.trace.Twin n.trace := by
  simp only [Machine.trace, h.settings]
  split_ifs
  · exact { h with }
  · exact h

theorem publishIfRedrawn (h : m.Twin n) : m.publishIfRedrawn.Twin n.publishIfRedrawn := by
  simp only [Machine.publishIfRedrawn, h.processor]
  split_ifs
  · exact { h with frame := by simp only [publish, h.processor, h.frame] }
  · exact h

theorem notify (h : m.Twin n) (o : Observer) : (m.notify o).Twin (n.notify o) := by
  cases o with
  | recorder => exact { h with seen := by simp only [Machine.notify, h.processor, h.seen] }
  | limiter executed =>
    simp only [Machine.notify, h.processor]
    split_ifs
    · exact { h with stopping := rfl }
    · exact h

theorem foldl_notify (h : m.Twin n) (observers : List Observer) :
    (observers.foldl Machine.notify m).Twin (observers.foldl Machine.notify n) := by
  induction observers generalizing m n with
  | nil => exact h
  | cons o rest ih => exact ih (h.notify o)

theorem noteStop (h : m.Twin n) (reason : StopReason) :
    (Run.noteStop m reason).Twin (Run.noteStop n reason) := by
  simp only [Run.noteStop]
  split_ifs
  · exact { h with }
  · exact h

theorem conclude (h : m.Twin n) (result : Except StepFault StopReason) :
    (m.conclude result).Twin (n.conclude result) := by
  cases result with
  | ok reason => exact { h with }
  | error fault =>
    simp only [Machine.conclude]
    split_ifs
    · exact { h with failure := rfl }
    · exact h

theorem readClock [Clock κ τ] (h : m.Twin n) :
    (n.readClock : τ × Machine κ τ).1 = m.readClock.1 ∧
      (m.readClock : τ × Machine κ τ).2.Twin n.readClock.2 := by
  rw [Machine.readClock, Machine.readClock, h.clock]
  exact ⟨rfl, { h with clock := rfl }⟩

theorem prepared [Clock κ τ] (h : m.Twin n) : m.prepared.Twin n.prepared := by
  obtain ⟨htime, hread⟩ := h.readClock
  rw [Machine.prepared, Machine.prepared, htime]
  exact trace { hread with lastStep := rfl }

variable [Measure τ]

theorem stepProcessor (h : m.Twin n) (elapsed : τ) :
    (m.stepProcessor elapsed).1.Twin (n.stepProcessor elapsed).1 ∧
      (n.stepProcessor elapsed).2 = (m.stepProcessor elapsed).2 := by
  rw [Machine.stepProcessor, Machine.stepProcessor, h.processor]
  rcases m.processor.step elapsed with ⟨q, _ | fault⟩
  · exact ⟨{ h with processor := rfl }, rfl⟩
  · exact ⟨{ h with processor := rfl }, rfl⟩

variable [Clock κ τ]

theorem elapsed (h : m.Twin n) : n.elapsed n.readClock.1 = m.elapsed m.readClock.1 := by
  rw [Machine.elapsed, Machine.elapsed, h.readClock.1, h.lastStep]

theorem measure (h : m.Twin n) : m.measure.1.Twin n.measure.1 ∧ n.measure.2 = m.measure.2 := by
  obtain ⟨htime, hread⟩ := h.readClock
  simp only [Machine.measure, h.meter]
  cases m.meter with
  | none => exact ⟨h, rfl⟩
  | some meter =>
    simp only [htime]
    rcases meter.record m.readClock.1 with ⟨meter, fault | _ | rate⟩
    · exact ⟨{ hread with meter := rfl }, rfl⟩
    · exact ⟨{ hread with meter := rfl }, rfl⟩
    · exact ⟨{ hread with meter := rfl }, rfl⟩

theorem step (h : m.Twin n) : m.step.1.Twin n.step.1 ∧ n.step.2 = m.step.2 := by
  cases hfinished : m.processor.finished with
  | true =>
    rw [Machine.step, Machine.step, h.processor, if_pos hfinished, if_pos hfinished]
    exact ⟨h, rfl⟩
  | false =>
    have hn : n.processor.finished = false := by rw [h.processor, hfinished]
    obtain ⟨hstepped, hfault⟩ := h.prepared.stepProcessor (m.elapsed m.readClock.1)
    rw [step_of_unfinished hfinished, step_of_unfinished hn, h.elapsed]
    generalize m.prepared.stepProcessor (m.elapsed m.readClock.1) = a at hstepped hfault ⊢
    generalize n.prepared.stepProcessor (m.elapsed m.readClock.1) = b at hstepped hfault ⊢
    obtain ⟨a, fault⟩ := a
    obtain ⟨b, fault'⟩ := b
    obtain rfl : fault' = fault := hfault
    cases fault' with
    | some fault => exact ⟨hstepped, rfl⟩
    | none =>
      obtain ⟨hmeasured, hfault⟩ := hstepped.publishIfRedrawn.measure
      simp only
      generalize a.publishIfRedrawn.measure = c at hmeasured hfault ⊢
      generalize b.publishIfRedrawn.measure = d at hmeasured hfault ⊢
      obtain ⟨c, fault⟩ := c
      obtain ⟨d, fault'⟩ := d
      obtain rfl : fault' = fault := hfault
      cases fault' with
      | some fault => exact ⟨hmeasured, rfl⟩
      | none =>
        have hobservers : d.observers = c.observers := hmeasured.observers
        have hnotified : (c.observers.foldl Machine.notify c).Twin
            (d.observers.foldl Machine.notify d) := hobservers ▸ hmeasured.foldl_notify c.observers
        exact ⟨hnotified, by simp only [hnotified.processor]⟩

end Twin

end Machine

namespace Run

variable {κ τ : Type}

structure Twin (r s : Run κ τ) : Prop where
  machine : r.machine.Twin s.machine
  steps : s.steps = r.steps
  deadline : s.deadline = r.deadline

namespace Twin

variable {r s : Run κ τ}

theorem reason?_eq (h : r.Twin s) (max : Option Int) : s.reason? max = r.reason? max := by
  simp only [reason?, h.machine.processor, h.machine.stopping, h.machine.breakpoints, h.steps]

variable [Measure τ] [Clock κ τ]

theorem pace (h : r.Twin s) : r.pace.Twin s.pace := by
  obtain ⟨htime, hread⟩ := h.machine.readClock
  obtain ⟨htime', hread'⟩ := hread.readClock
  simp only [Run.pace, h.machine.settings, h.deadline, htime, htime']
  split_ifs
  · exact ⟨{ hread with clock := by simp only [hread.clock] }, h.steps, rfl⟩
  · exact ⟨hread', h.steps, rfl⟩
  · exact ⟨hread, h.steps, rfl⟩

theorem turn (h : r.Twin s) (max : Option Int) :
    Paired Run.Twin Machine.Twin (r.turn max true) (s.turn max true) := by
  rw [Run.turn, Run.turn, h.reason?_eq]
  cases r.reason? max with
  | some reason => exact .stopped (h.machine.noteStop reason) reason
  | none =>
    obtain ⟨htwin, hresult⟩ := h.machine.step
    rcases hm : r.machine.step with ⟨m, fault | going⟩ <;>
      rcases hn : s.machine.step with ⟨n, fault' | going'⟩ <;> rw [hm, hn] at htwin hresult
    · cases hresult
      exact .failed htwin fault
    · cases hresult
    · cases hresult
    · have hnext : Run.Twin ⟨m, r.steps + 1, r.deadline⟩ ⟨n, s.steps + 1, s.deadline⟩ :=
        ⟨htwin, by rw [h.steps], h.deadline⟩
      exact .going hnext.pace

theorem readings_eq (h : r.Twin s) (max : Option Int) (turns : Nat) :
    r.readings max true turns = s.readings max true turns := by
  induction turns generalizing r s with
  | zero => rfl
  | succ turns ih =>
    have hreading : r.machine.reading = s.machine.reading := by
      rw [Machine.reading, Machine.reading, h.machine.elapsed, h.machine.step.2]
    have hturn := h.turn max
    rw [readings, readings, h.reason?_eq, hreading]
    cases r.reason? max with
    | some reason => rfl
    | none =>
      generalize r.turn max true = a at hturn ⊢
      generalize s.turn max true = b at hturn ⊢
      cases hturn with
      | going related => exact congrArg _ (ih related)
      | stopped related reason => rfl
      | failed related fault => rfl

end Twin

end Run

namespace Machine

variable {κ τ : Type} {m n : Machine κ τ} {max : Option Int}

def HasOpenWindow (m : Machine κ τ) : Prop := ∃ w, m.window = some w ∧ w.isOpen = true

theorem look_of_quiet (hopen : m.HasOpenWindow) {events : List WindowEvent}
    (hquiet : events.any WindowEvent.ends = false) :
    ∃ n, m.look events = (n, true) ∧ m.Twin n ∧ n.HasOpenWindow := by
  obtain ⟨w, hw, hisOpen⟩ := hopen
  have hpresent : (w.present m.frame).1.isOpen = true := by
    cases m.frame with
    | none => exact hisOpen
    | some frame =>
      rw [Window.present]
      split_ifs <;> exact hisOpen
  simp only [look, hw, Window.update, hisOpen, hquiet, Bool.not_true, Bool.or_self,
    Bool.false_eq_true, if_false]
  exact ⟨_, rfl, { Twin.refl m with }, _, rfl, hpresent⟩

theorem look_of_closing (hopen : m.HasOpenWindow) {events : List WindowEvent}
    (hends : events.any WindowEvent.ends = true) : ∃ n, m.look events = (n, false) ∧ m.Twin n := by
  obtain ⟨w, hw, hisOpen⟩ := hopen
  simp only [look, hw, Window.update, hends, Bool.or_true, if_true]
  exact ⟨_, rfl, { Twin.refl m with }⟩

theorem keepOpen_of_closing {closing : List (List WindowEvent)} (hopen : m.HasOpenWindow)
    (hcloses : ∃ events ∈ closing, events.any WindowEvent.ends = true) :
    ∃ n, keepOpen closing m = some n ∧ m.Twin n := by
  induction closing generalizing m with
  | nil =>
    obtain ⟨events, hmem, -⟩ := hcloses
    cases hmem
  | cons events rest ih =>
    cases hends : events.any WindowEvent.ends with
    | true =>
      obtain ⟨n, hlook, htwin⟩ := look_of_closing hopen hends
      exact ⟨n, by rw [keepOpen, hlook], htwin⟩
    | false =>
      obtain ⟨n, hlook, htwin, hstays⟩ := look_of_quiet hopen hends
      have hlater : ∃ events ∈ rest, events.any WindowEvent.ends = true := by
        obtain ⟨later, hmem, hlater⟩ := hcloses
        rcases List.mem_cons.mp hmem with rfl | hmem
        · rw [hends] at hlater
          cases hlater
        · exact ⟨later, hmem, hlater⟩
      obtain ⟨k, hkept, htwin'⟩ := ih hstays hlater
      exact ⟨k, by rw [keepOpen, hlook]; exact hkept, htwin.trans htwin'⟩

theorem afterwards_of_open {closing : List (List WindowEvent)} (hopen : m.HasOpenWindow)
    (hcloses : m.settings.keepOpen = true →
      ∃ events ∈ closing, events.any WindowEvent.ends = true) :
    ∃ n, m.afterwards closing = some n ∧ m.Twin n := by
  rw [afterwards]
  split_ifs with hkeep
  · have hsaid : (m.say "Program finished. Close the window or press 'q' to exit.").HasOpenWindow :=
      hopen
    obtain ⟨n, hkept, htwin⟩ := keepOpen_of_closing hsaid (hcloses hkeep.2)
    exact ⟨n, hkept, { htwin with }⟩
  · exact ⟨m, rfl, .refl m⟩

def raised : Option StepFault → Except Failure Unit
  | none => .ok ()
  | some fault => .error (.step fault)

/-- What a start beside a window answers when the run alone would give this answer: a fault of the
program is raised, any other is not, and where none is raised a failure kept from before is. -/
def besideWindow (kept : Option StepFault) : Except Failure Unit → Except Failure Unit
  | .error (.step fault) => if fault.isProgramFault then .error (.step fault) else raised kept
  | .error e => .error e
  | .ok () => raised kept

def answered : Except StepFault StopReason → Except Failure Unit
  | .ok _ => .ok ()
  | .error fault => .error (.step fault)

theorem outcome_eq (m : Machine κ τ) : m.outcome = (m, raised m.failure) := by
  rw [outcome]
  cases m.failure <;> rfl

theorem raised_conclude (m : Machine κ τ) (result : Except StepFault StopReason) :
    raised (m.conclude result).failure = besideWindow m.failure (answered result) := by
  cases result with
  | ok reason => rfl
  | error fault =>
    simp only [conclude, answered, besideWindow]
    split_ifs <;> rfl

theorem conclude_kept (m : Machine κ τ) (result : Except StepFault StopReason) :
    (m.conclude result).settings = m.settings ∧ (m.conclude result).window = m.window ∧
      (m.conclude result).processor = m.processor := by
  cases result with
  | ok reason => exact ⟨rfl, rfl, rfl⟩
  | error fault =>
    simp only [conclude]
    split_ifs <;> exact ⟨rfl, rfl, rfl⟩

def windowless {κ' : Type} (m : Machine κ τ) (clock : κ') : Machine κ' τ :=
  { m with window := none, clock }

theorem twin_windowless [Clock κ τ] (m : Machine κ τ) :
    (Run.start { m with stopping := false }).Twin
      (Run.start { m.windowless m.clock with stopping := false }) :=
  ⟨⟨rfl, rfl, rfl, rfl, rfl, rfl, rfl, rfl, rfl, rfl, rfl⟩, rfl, rfl⟩

variable [Measure τ] [Clock κ τ]

namespace Program

theorem advance_ended (m : Machine κ τ) (turns : Nat) :
    (ended m).advance max turns = ended m := by
  cases turns <;> rfl

theorem advance_add (p : Program κ τ) (a b : Nat) :
    p.advance max (a + b) = (p.advance max a).advance max b := by
  induction a generalizing p with
  | zero =>
    rw [Nat.zero_add]
    rfl
  | succ a ih =>
    rw [Nat.succ_add]
    cases p with
    | ended m => rw [advance_ended, advance_ended, advance_ended]
    | running r =>
      simp only [advance]
      cases r.turn max true with
      | going next => exact ih _
      | stopped m reason => rw [advance_ended]
      | failed m fault => rw [advance_ended]

theorem window_advance (p : Program κ τ) (turns : Nat) :
    (p.advance max turns).machine.window = p.machine.window := by
  induction turns generalizing p with
  | zero => rfl
  | succ turns ih =>
    cases p with
    | ended m => rfl
    | running r =>
      have hturns := r.turns_turn max true
      have hstep : r.machine.bareStep.window = r.machine.window := by rw [bareStep_eq]
      simp only [advance]
      generalize r.turn max true = turn at hturns ⊢
      cases hturns with
      | stopped _ halike => exact halike.window
      | @failed n fault _ halike =>
        exact (n.conclude_kept (.error fault)).2.1.trans (halike.window.trans hstep)
      | going _ halike => exact (ih _).trans (halike.window.trans hstep)

inductive Twin : Program κ τ → Program κ τ → Prop
  | running {r s : Run κ τ} (twin : r.Twin s) : Twin (running r) (running s)
  | ended {m n : Machine κ τ} (twin : m.Twin n) : Twin (ended m) (ended n)

theorem Twin.advance {p q : Program κ τ} (h : p.Twin q) (max : Option Int) (turns : Nat) :
    (p.advance max turns).Twin (q.advance max turns) := by
  induction turns generalizing p q with
  | zero => exact h
  | succ turns ih =>
    cases h with
    | ended twin => exact .ended twin
    | @running r s twin =>
      have hpaired := twin.turn max
      simp only [Program.advance]
      generalize r.turn max true = a at hpaired ⊢
      generalize s.turn max true = b at hpaired ⊢
      cases hpaired with
      | going related => exact ih (.running related)
      | stopped related reason => exact .ended (related.conclude (.ok reason))
      | failed related fault => exact .ended (related.conclude (.error fault))

theorem conclusion_running (r : Run κ τ) (max : Option Int) (turns : Nat) :
    conclusion (.running r) turns max =
      (r.finish max true turns).map fun x => x.1.conclude x.2 := by
  induction turns generalizing r with
  | zero => rfl
  | succ turns ih =>
    simp only [conclusion, Program.advance, Run.finish]
    cases r.turn max true with
    | going next => exact ih next
    | stopped n reason => rfl
    | failed n fault => rfl

theorem conclusion_add (p : Program κ τ) (a b : Nat) :
    conclusion p (a + b) max = conclusion (p.advance max a) b max := by
  rw [conclusion, conclusion, advance_add]

theorem Twin.conclusion {p q : Program κ τ} (h : p.Twin q) (max : Option Int) (turns : Nat) :
    Option.Rel Machine.Twin (conclusion p turns max) (conclusion q turns max) := by
  have hadvanced := h.advance max turns
  rw [Machine.conclusion, Machine.conclusion]
  generalize p.advance max turns = a at hadvanced ⊢
  generalize q.advance max turns = b at hadvanced ⊢
  cases hadvanced with
  | running twin => exact .none
  | ended twin => exact .some twin

theorem window_conclusion {p : Program κ τ} {turns : Nat} (h : conclusion p turns max = some m) :
    m.window = p.machine.window := by
  rw [← window_advance p turns]
  rw [conclusion] at h
  cases hadvanced : p.advance max turns with
  | running r =>
    rw [hadvanced] at h
    cases h
  | ended n =>
    rw [hadvanced] at h
    cases h
    rfl

end Program

theorem watch_of_quiet (max : Option Int) {looks : List (Nat × List WindowEvent)}
    {p q : Program κ τ} (h : p.Twin q) (hopen : q.machine.HasOpenWindow)
    (hquiet : ∀ look ∈ looks, look.2.any WindowEvent.ends = false) :
    ∃ q', watch max looks q = (q', true) ∧
      Program.Twin (p.advance max (looks.map Prod.fst).sum) q' ∧ q'.machine.HasOpenWindow := by
  induction looks generalizing p q with
  | nil => exact ⟨q, rfl, h, hopen⟩
  | cons look rest ih =>
    obtain ⟨turns, events⟩ := look
    have hadvanced := h.advance max turns
    have hstays : (q.advance max turns).machine.HasOpenWindow := by
      rw [HasOpenWindow, Program.window_advance]
      exact hopen
    rw [List.map_cons, List.sum_cons, Program.advance_add]
    simp only [watch]
    generalize p.advance max turns = a at hadvanced ⊢
    generalize q.advance max turns = b at hadvanced hstays ⊢
    cases hadvanced with
    | @ended k n twin =>
      rw [Program.advance_ended]
      exact ⟨.ended n, rfl, .ended twin, hstays⟩
    | @running r s twin =>
      obtain ⟨n, hlook, htwin, hshows⟩ :=
        look_of_quiet hstays (hquiet (turns, events) List.mem_cons_self)
      have hlook' : s.machine.look events = (n, true) := hlook
      simp only [hlook']
      exact ih (.running ⟨twin.machine.trans htwin, twin.steps, twin.deadline⟩) hshows
        fun look hmem => hquiet look (List.mem_cons_of_mem _ hmem)

def opened (m : Machine κ τ) (w : Window) : Machine κ τ :=
  { m.drawAll (w.openOn true).2.1 with window := some (w.openOn true).1 }

theorem start_of_watch {w : Window} {viewing : Viewing} {p : Program κ τ} (hw : m.window = some w)
    (hopens : viewing.screen = true) (fuel : Nat)
    (hwatch : watch max viewing.looks (.running (Run.start { m.opened w with stopping := false })) =
      (p, true)) :
    m.start fuel max viewing = (conclusion p fuel max).bind fun n =>
      (n.afterwards viewing.closing).map fun k => k.stop.outcome := by
  have hopened : (w.openOn true).2.2 = true := rfl
  rw [opened] at hwatch
  simp only [start, hw, startWindowed, hopens, hwatch, hopened, Option.map_eq_bind]
  rfl

theorem start_rel_finish {w : Window} {viewing : Viewing} (hw : m.window = some w)
    (hopens : viewing.screen = true) (hquiet : viewing.Quiet)
    (hcloses : m.settings.keepOpen = true → viewing.Closes) (max : Option Int) (fuel : Nat) :
    Option.Rel
      (fun a b => a.1.processor = b.1.processor ∧ a.2 = besideWindow m.failure (answered b.2))
      (m.start fuel max viewing)
      ((Run.start { m with stopping := false }).finish max true (viewing.turns + fuel)) := by
  have htwin : (Run.start { m with stopping := false } : Run κ τ).Twin
      (Run.start { m.opened w with stopping := false }) :=
    ⟨⟨rfl, rfl, rfl, rfl, rfl, rfl, rfl, rfl, rfl, rfl, rfl⟩, rfl, rfl⟩
  obtain ⟨p, hwatch, hp, hopen⟩ := watch_of_quiet max (.running htwin) ⟨_, rfl, rfl⟩ hquiet
  rw [start_of_watch hw hopens fuel hwatch]
  -- the run alone makes the turns before the looks and then those after them
  have hrel := hp.conclusion max fuel
  rw [← Program.conclusion_add, ← Viewing.turns, Program.conclusion_running] at hrel
  generalize hrun : (Run.start { m with stopping := false }).finish max true
    (viewing.turns + fuel) = run at hrel
  generalize hended : conclusion p fuel max = ended at hrel
  cases run with
  | none =>
    cases hrel
    exact .none
  | some x =>
    obtain ⟨k, result⟩ := x
    obtain ⟨hsettings, hfailure, -⟩ := (Run.passes_finish hrun).kept
    obtain ⟨hkept, -, hprocessor⟩ := k.conclude_kept result
    cases hrel with
    | @some _ n twin =>
      have hshows : n.HasOpenWindow := by
        rw [HasOpenWindow, Program.window_conclusion hended]
        exact hopen
      have hasked : n.settings = m.settings := twin.settings.trans (hkept.trans hsettings)
      obtain ⟨j, hafter, htwin'⟩ := afterwards_of_open hshows (hasked ▸ hcloses)
      simp only [Option.bind_some, hafter, Option.map_some]
      refine .some ⟨?_, ?_⟩
      · rw [outcome_eq]
        exact htwin'.processor.trans (twin.processor.trans hprocessor)
      · rw [outcome_eq]
        change raised j.failure = _
        rw [htwin'.failure, twin.failure, raised_conclude, hfailure]
        rfl

theorem start_of_windowless (m : Machine κ τ) {viewing : Viewing} (hw : m.window = none)
    (fuel : Nat) :
    m.start fuel max viewing =
      ((Run.start m).finish max true fuel).map fun x => (x.1, answered x.2) := by
  rw [start, hw]
  rfl

theorem start_of_stopping (m : Machine κ τ) {viewing : Viewing} (hw : m.window = none)
    (hstop : m.stopping = true) (fuel : Nat) :
    ∃ n, m.start (fuel + 1) max viewing = some (n, .ok ()) ∧ n.processor = m.processor := by
  obtain ⟨reason, hreason⟩ : ∃ reason, (Run.start m).reason? max = some reason := by
    have hstops : (Run.start m).machine.stopping = true := hstop
    rw [Run.reason?, if_pos hstops]
    split_ifs
    · exact ⟨_, rfl⟩
    · exact ⟨_, rfl⟩
  refine ⟨Run.noteStop (Run.start m).machine reason, ?_, ?_⟩
  · rw [start_of_windowless m hw, Run.finish, Run.turn, hreason]
    rfl
  · exact (Run.noteStop_alike _ reason).processor

variable {κ' : Type} [Clock κ' τ]

/-- Given the same elapsed times, a start beside a window that nobody closes and a start without one
lead to the same processor, once the latter is rid of a stop request, which the former drops. The
answers differ only in faults of the clock and in a failure kept from an earlier start. With the
stop request the latter does nothing. -/
theorem start_rel_windowless {w : Window} {clock : κ'} {viewing : Viewing} (hw : m.window = some w)
    (hopens : viewing.screen = true) (hquiet : viewing.Quiet)
    (hcloses : m.settings.keepOpen = true → viewing.Closes)
    (hreadings : ∀ turns, (Run.start { m with stopping := false }).readings max true turns =
      (Run.start { m.windowless clock with stopping := false }).readings max true turns)
    (fuel : Nat) :
    Option.Rel (fun a b => a.1.processor = b.1.processor ∧ a.2 = besideWindow m.failure b.2)
      (m.start fuel max viewing)
      ({ m.windowless clock with stopping := false }.start (viewing.turns + fuel) max viewing) ∧
    (m.stopping = true → ∃ n, (m.windowless clock).start (fuel + 1) max viewing = some (n, .ok ()) ∧
      n.processor = m.processor) := by
  refine ⟨?_, fun hstop => (m.windowless clock).start_of_stopping rfl hstop fuel⟩
  have habreast : (Run.start { m with stopping := false } : Run κ τ).Abreast
      (Run.start { m.windowless clock with stopping := false } : Run κ' τ) :=
    ⟨⟨rfl, rfl, rfl, rfl⟩, rfl⟩
  have hends := habreast.finish (hreadings (viewing.turns + fuel))
  have hbeside := start_rel_finish hw hopens hquiet hcloses max fuel
  rw [start_of_windowless { m.windowless clock with stopping := false } rfl]
  generalize m.start fuel max viewing = beside at hbeside ⊢
  generalize (Run.start { m with stopping := false }).finish max true (viewing.turns + fuel) = alone
    at hends hbeside
  generalize (Run.start { m.windowless clock with stopping := false }).finish max true
    (viewing.turns + fuel) = other at hends ⊢
  cases hends with
  | none =>
    cases hbeside
    exact .none
  | some hsame =>
    cases hbeside with
    | some hbeside =>
      refine .some ⟨hbeside.1.trans hsame.1.symm, ?_⟩
      rw [hbeside.2, ← hsame.2]

theorem start_rel_windowless_stopped : ∃ m : Machine (VirtualClock Float) Float,
    m.Reachable { seed := some 7 } ∧ m.stopping = true ∧ m.failure = none ∧
    (m.start 2 none { looks := [(1, [.other])] }).isSome = true ∧
    Option.Rel (fun a b => a.1.processor = b.1.processor ∧ a.2 = besideWindow none b.2)
      (m.start 2 none { looks := [(1, [.other])] })
      ({ m.windowless m.clock with stopping := false }.start 3 none
        { looks := [(1, [.other])] }) ∧
    ∃ n, (m.windowless m.clock).start 3 none { looks := [(1, [.other])] } = some (n, .ok ()) ∧
      n.processor = m.processor := by
  let settings : Settings := { seed := some 7 }
  let f : Machine (VirtualClock Float) Float := (new settings (.start 0 0) default).toOption.get rfl
  let loaded := (f.loadRom [0x00, 0x00]).1
  let m := loaded.stop
  have made : new settings (.start 0 0) default = .ok f := rfl
  have hloaded : loaded.Reachable settings := .operate (.new made)
    (show f.operate (.loadRom [0x00, 0x00]) = some loaded from rfl)
  have hm : m.Reachable settings := .operate hloaded (show loaded.operate .stop = some m from rfl)
  have hquiet : Viewing.Quiet { looks := [(1, [.other])] } := by
    intro look hlook
    rw [List.mem_singleton.mp hlook]
    rfl
  obtain ⟨w, hw⟩ := Option.isSome_iff_exists.mp (show m.window.isSome = true by decide +kernel)
  obtain ⟨hrel, hstops⟩ := start_rel_windowless hw rfl hquiet
    (fun hkeep => absurd hkeep Bool.false_ne_true) (m.twin_windowless.readings_eq none) 2
  exact ⟨m, hm, rfl, rfl, by decide +kernel, hrel, hstops rfl⟩

theorem start_beside_window_differs : ∃ m k : Machine (VirtualClock Float) Float,
    m.Reachable { seed := some 7 } ∧ k.Reachable { seed := some 7 } ∧
    (m.start 1 none {}).map (Except.isOk ∘ Prod.snd) = some false ∧
    ((m.windowless m.clock).start 1 none {}).map (Except.isOk ∘ Prod.snd) = some true ∧
    (k.start 1 (some 0) {}).map (Except.isOk ∘ Prod.snd) = some false ∧
    ({ k.windowless k.clock with stopping := false }.start 1 (some 0) {}).map
      (Except.isOk ∘ Prod.snd) = some true := by
  let settings : Settings := { seed := some 7 }
  let f : Machine (VirtualClock Float) Float := (new settings (.start 0 0) default).toOption.get rfl
  let loaded := (f.loadRom [0x00, 0x00]).1
  have made : new settings (.start 0 0) default = .ok f := rfl
  have hloaded : loaded.Reachable settings := .operate (.new made)
    (show f.operate (.loadRom [0x00, 0x00]) = some loaded from rfl)
  have hstopped : loaded.stop.Reachable settings :=
    .operate hloaded (show loaded.operate .stop = some loaded.stop from rfl)
  let failed := ((loaded.start 1 none {}).map Prod.fst).getD loaded
  have hstarts : (loaded.start 1 none {}).isSome = true := by decide +kernel
  obtain ⟨⟨k, result⟩, hk⟩ := Option.isSome_iff_exists.mp hstarts
  have hfailed : failed.Reachable settings := by
    simp only [failed, hk]
    exact .start hloaded hk
  exact ⟨loaded.stop, failed, hstopped, hfailed, by decide +kernel, by decide +kernel,
    by decide +kernel, by decide +kernel⟩

end Machine

end Chip8
