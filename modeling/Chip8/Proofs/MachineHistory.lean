import Chip8.Machine.Start
import Chip8.Proofs.MachineSteps
import Chip8.Proofs.ReachableStates

namespace Chip8.Machine

open Time

inductive Operation where
  | loadRom (rom : List UInt8)
  | loadSource (source : Text)
  | loadProgram (files : Storage.Files) (name : Text)
  | reset (seed : Option Int)
  | step
  | run (fuel : Nat) (max : Option Int) (throttle : Bool)
  | stop
  | setBreakpoint (address : Int)
  | clearBreakpoint (address : Int)
  | clearBreakpoints
  | addObserver (o : Observer)
  | removeObserver (o : Observer)

variable {κ τ : Type} [Measure τ]

theorem of_new {settings : Settings} {clock : κ} {entropy : Entropy} {m : Machine κ τ}
    (made : Machine.new settings clock entropy = .ok m) : m.settings = settings ∧
      m.processor = (Processor.new settings.seed settings.advancing entropy).1 ∧ m.frame = none := by
  rw [Machine.new] at made
  split at made
  · cases made
    exact ⟨rfl, rfl, rfl⟩
  · cases made

variable [Clock κ τ]

def operate (m : Machine κ τ) : Operation → Option (Machine κ τ)
  | .loadRom rom => some (m.loadRom rom).1
  | .loadSource source => some (m.loadSource source).1
  | .loadProgram files name => some (m.loadProgram files name).1
  | .reset seed => some (m.reset seed)
  | .step => some m.step.1
  | .run fuel max throttle => (m.run fuel max throttle).map Prod.fst
  | .stop => some m.stop
  | .setBreakpoint address => some (m.setBreakpoint address)
  | .clearBreakpoint address => some (m.clearBreakpoint address)
  | .clearBreakpoints => some m.clearBreakpoints
  | .addObserver o => some (m.addObserver o)
  | .removeObserver o => some (m.removeObserver o)

/-- The machines that come of one with the settings, whatever is done to it and also if that
fails. -/
inductive Reachable (settings : Settings) : Machine κ τ → Prop
  | new {m : Machine κ τ} {clock : κ} {entropy : Entropy}
    (made : Machine.new settings clock entropy = .ok m) : Reachable settings m
  | operate {m n : Machine κ τ} (reached : Reachable settings m) {op : Operation}
    (operated : m.operate op = some n) : Reachable settings n
  | start {m n : Machine κ τ} (reached : Reachable settings m) {fuel : Nat} {max : Option Int}
    {viewing : Viewing} {result : Except Failure Unit}
    (started : m.start fuel max viewing = some (n, result)) : Reachable settings n
  | shutdown {m : Machine κ τ} (reached : Reachable settings m) : Reachable settings m.shutdown
  | set {m n : Machine κ τ} (reached : Reachable settings m) {s : Debugger.Session κ τ}
    (held : s.machine = some m) (argument : Text)
    (answered : (s.set m argument).1.machine = some n) : Reachable settings n

structure Stable (settings : Settings) (holds : Machine κ τ → Prop) : Prop where
  new {m : Machine κ τ} {clock : κ} {entropy : Entropy} :
    Machine.new settings clock entropy = .ok m → holds m
  congr {m n : Machine κ τ} : holds m → n.settings = m.settings → n.processor = m.processor →
    n.frame = m.frame → holds n
  bareStep {m : Machine κ τ} : holds m → holds m.bareStep
  loadRom {m : Machine κ τ} {rom : List UInt8} {q : Processor τ} : holds m →
    m.processor.loadRom rom = .ok q → holds { m with processor := q }
  reset {m : Machine κ τ} (seed : Option Int) : holds m → holds (m.reset seed)
  set {m n : Machine κ τ} {s : Debugger.Session κ τ} (argument : Text) : holds m →
    s.machine = some m → (s.set m argument).1.machine = some n → holds n

namespace Stable

variable {settings : Settings} {holds : Machine κ τ → Prop} {m n : Machine κ τ}

theorem alike (hs : Stable settings holds) (h : holds m) (halike : m.Alike n) : holds n :=
  hs.congr h halike.settings halike.processor halike.frame

theorem passes (hs : Stable settings holds) {ms : List Mnemonic} (h : holds m)
    (hpasses : m.Passes ms n) : holds n := by
  induction hpasses with
  | refl => exact h
  | alike halike _ ih => exact ih (hs.alike h halike)
  | step _ ih => exact ih (hs.bareStep h)

theorem loadedRom (hs : Stable settings holds) (h : holds m) (rom : List UInt8) :
    holds (m.loadRom rom).1 := by
  rw [Machine.loadRom]
  cases hload : m.processor.loadRom rom with
  | error e => exact h
  | ok q => exact hs.reset none (hs.congr (hs.loadRom h hload) rfl rfl rfl)

theorem loadedSource (hs : Stable settings holds) (h : holds m) (source : Text) :
    holds (m.loadSource source).1 := by
  have hlogged := hs.congr h (n := m.logAll (assemble Memory.programStart source).logEntries)
    rfl rfl rfl
  simp only [Machine.loadSource]
  split
  · exact hs.loadedRom hlogged _
  · exact hlogged
  · exact hlogged

theorem loadedProgram (hs : Stable settings holds) (h : holds m) (files : Storage.Files)
    (name : Text) : holds (m.loadProgram files name).1 := by
  have hnamed : holds (m.loadNamed files (Storage.Path.parse name)).1 := by
    rw [Machine.loadNamed]
    split_ifs
    · split
      · exact hs.loadedSource h _
      · exact h
    · split
      · exact hs.loadedRom h _
      · exact h
  simp only [Machine.loadProgram]
  rcases hload : m.loadNamed files (Storage.Path.parse name) with ⟨n, result⟩
  rw [hload] at hnamed
  split
  · rename_i k hk
    cases hk
    exact hs.congr hnamed rfl rfl rfl
  · rename_i k cause hk
    cases hk
    exact hnamed
  · rename_i k e _ hk
    cases hk
    exact hnamed

theorem operated (hs : Stable settings holds) (h : holds m) {op : Operation}
    (hop : m.operate op = some n) : holds n := by
  cases op with
  | loadRom rom =>
    cases hop
    exact hs.loadedRom h rom
  | loadSource source =>
    cases hop
    exact hs.loadedSource h source
  | loadProgram files name =>
    cases hop
    exact hs.loadedProgram h files name
  | reset seed =>
    cases hop
    exact hs.reset seed h
  | step =>
    cases hop
    exact hs.passes h m.passes_step
  | run fuel max throttle =>
    obtain ⟨⟨k, result⟩, hrun, rfl⟩ := Option.map_eq_some_iff.mp hop
    exact hs.passes h (passes_run hrun)
  | stop | setBreakpoint | clearBreakpoint | clearBreakpoints | addObserver | removeObserver =>
    cases hop
    exact hs.congr h rfl rfl rfl

/-! Runs beside a window -/

theorem looked (hs : Stable settings holds) (h : holds m) (events : List WindowEvent) :
    holds (m.look events).1 := by
  simp only [look]
  split
  · exact h
  · exact hs.congr h rfl rfl rfl

theorem concluded (hs : Stable settings holds) (h : holds m)
    (result : Except StepFault StopReason) : holds (m.conclude result) := by
  simp only [conclude]
  split
  · exact hs.congr h rfl rfl rfl
  · split_ifs
    · exact hs.congr h rfl rfl rfl
    · exact h

theorem advanced (hs : Stable settings holds) (max : Option Int) (turns : Nat) {p : Program κ τ}
    (h : holds p.machine) : holds (p.advance max turns).machine := by
  induction turns generalizing p with
  | zero => exact h
  | succ turns ih =>
    cases p with
    | ended m => exact h
    | running r =>
      have hturns := r.turns_turn max true
      simp only [Program.advance]
      generalize r.turn max true = turn at hturns ⊢
      cases hturns with
      | stopped _ halike => exact hs.concluded (hs.alike h halike) (.ok _)
      | failed _ halike => exact hs.concluded (hs.alike (hs.bareStep h) halike) (.error _)
      | going _ halike => exact ih (hs.alike (hs.bareStep h) halike)

theorem watched (hs : Stable settings holds) {max : Option Int}
    {looks : List (Nat × List WindowEvent)} {p q : Program κ τ} {stays : Bool}
    (hwatch : watch max looks p = (q, stays)) (h : holds p.machine) : holds q.machine := by
  induction looks generalizing p with
  | nil =>
    cases hwatch
    exact h
  | cons look rest ih =>
    obtain ⟨turns, events⟩ := look
    have hadvanced := hs.advanced max turns h
    simp only [watch] at hwatch
    split at hwatch
    · rename_i n hn
      rw [hn] at hadvanced
      cases hwatch
      exact hadvanced
    · rename_i r hr
      rw [hr] at hadvanced
      have hlooked : holds (r.machine.look events).1 := hs.looked hadvanced events
      split at hwatch <;> rename_i hlook <;> rw [hlook] at hlooked
      · exact ih hwatch hlooked
      · cases hwatch
        exact hlooked

theorem haltedProgram (hs : Stable settings holds) {p : Program κ τ} (h : holds p.machine) :
    holds (p.withMachine p.machine.stop).machine := by
  cases p <;> exact hs.congr h rfl rfl rfl

theorem kept (hs : Stable settings holds) (h : holds m) {events : List (List WindowEvent)}
    (hkept : keepOpen events m = some n) : holds n := by
  induction events generalizing m with
  | nil => cases hkept
  | cons look rest ih =>
    have hlooked := hs.looked h look
    simp only [keepOpen] at hkept
    split at hkept <;> rename_i hlook <;> rw [hlook] at hlooked
    · exact ih hlooked hkept
    · cases hkept
      exact hlooked

theorem concluding (hs : Stable settings holds) {p : Program κ τ} (h : holds p.machine)
    {fuel : Nat} {max : Option Int} (hended : conclusion p fuel max = some n) : holds n := by
  have hadvanced := hs.advanced max fuel h
  simp only [conclusion] at hended
  split at hended
  · cases hended
  · rename_i k hk
    rw [hk] at hadvanced
    cases hended
    exact hadvanced

theorem afterwards (hs : Stable settings holds) (h : holds m) {closing : List (List WindowEvent)}
    (hafter : m.afterwards closing = some n) : holds n := by
  simp only [Machine.afterwards] at hafter
  split_ifs at hafter
  · have hsaid := hs.congr h
      (n := m.say "Program finished. Close the window or press 'q' to exit.") rfl rfl rfl
    exact hs.kept hsaid hafter
  · cases hafter
    exact h

theorem stopped (hs : Stable settings holds) (h : holds m) {result : Except Failure Unit}
    (hstop : m.stop.outcome = (n, result)) : holds n := by
  have hn : m.stop.outcome.1 = m.stop := by
    rw [outcome]
    split <;> rfl
  rw [hstop] at hn
  obtain rfl : n = m.stop := hn
  exact hs.congr h rfl rfl rfl

theorem startedWindowed (hs : Stable settings holds) (h : holds m) {window : Window} {fuel : Nat}
    {max : Option Int} {viewing : Viewing} {result : Except Failure Unit}
    (hstart : m.startWindowed window fuel max viewing = some (n, result)) : holds n := by
  simp only [startWindowed] at hstart
  split_ifs at hstart
  · cases hstart
    exact hs.congr h rfl rfl rfl
  · -- the program ends on its own, or the window is closed before and stops it
    split at hstart <;> rename_i program hwatch
    · have hprogram : holds program.machine := hs.watched hwatch (hs.congr h rfl rfl rfl)
      obtain ⟨ended, hended, hstart⟩ := Option.bind_eq_some_iff.mp hstart
      obtain ⟨kept, hkept, hstart⟩ := Option.bind_eq_some_iff.mp hstart
      have hkept := hs.afterwards (hs.concluding hprogram hended) hkept
      exact hs.stopped hkept (Option.some.inj hstart)
    · have hprogram : holds program.machine := hs.watched hwatch (hs.congr h rfl rfl rfl)
      obtain ⟨ended, hended, hstart⟩ := Option.bind_eq_some_iff.mp hstart
      have hended := hs.concluding (hs.haltedProgram hprogram) hended
      exact hs.stopped hended (Option.some.inj hstart)

theorem started (hs : Stable settings holds) (h : holds m) {fuel : Nat} {max : Option Int}
    {viewing : Viewing} {result : Except Failure Unit}
    (hstart : m.start fuel max viewing = some (n, result)) : holds n := by
  rw [start] at hstart
  split at hstart
  · exact hs.startedWindowed h hstart
  · obtain ⟨⟨k, reason⟩, hrun, hk⟩ := Option.map_eq_some_iff.mp hstart
    cases hk
    exact hs.passes h (passes_run hrun)

end Stable

theorem Reachable.holds {settings : Settings} {holds : Machine κ τ → Prop} {m : Machine κ τ}
    (h : Reachable settings m) (hs : Stable settings holds) : holds m := by
  induction h with
  | new made => exact hs.new made
  | operate _ operated ih => exact hs.operated ih operated
  | start _ started ih => exact hs.started ih started
  | @shutdown m _ ih =>
    rw [Machine.shutdown]
    split
    · exact hs.congr ih rfl rfl rfl
    · exact hs.congr ih rfl rfl rfl
  | set _ held argument answered ih => exact hs.set argument ih held answered

structure Configured (settings : Settings) (m : Machine κ τ) : Prop where
  configured : m.settings = settings
  processor : m.processor.Reachable (fun _ _ => True) settings.seed settings.advancing

theorem Configured.stable (settings : Settings) :
    Stable settings (@Configured κ τ _ settings) where
  new made := by
    obtain ⟨hsettings, hprocessor, -⟩ := of_new made
    exact ⟨hsettings, hprocessor ▸ .new _⟩
  congr h hsettings hprocessor _ := ⟨hsettings.trans h.configured, hprocessor ▸ h.processor⟩
  bareStep {m} h := by
    rw [bareStep_eq]
    exact ⟨h.configured, h.processor.step trivial⟩
  loadRom h hload := ⟨h.configured, h.processor.loadRom hload⟩
  reset _ h := ⟨h.configured, h.processor.reset _ _⟩
  set {m n s} argument h held answered := by
    refine ⟨?_, h.processor.set held argument answered⟩
    rcases Debugger.Session.eq_assign_of_set held answered with rfl | ⟨value, target, rfl⟩
    · exact h.configured
    · cases target <;> exact h.configured

theorem Reachable.configured {settings : Settings} {m : Machine κ τ} (h : Reachable settings m) :
    Configured settings m := h.holds (Configured.stable settings)

end Chip8.Machine
