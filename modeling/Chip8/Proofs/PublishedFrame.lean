import Chip8.Proofs.MachineHistory
import Chip8.Proofs.StepChanges
import Chip8.Proofs.StepFaults

namespace Chip8

open Time

namespace Processor

variable {τ : Type} [Measure τ] {p : Processor τ}

inductive Paints (p : Processor τ) (elapsed : τ) : Prop
  | drawn {m : Mnemonic} (done : (p.step elapsed).2 = none)
    (instruction : p.instruction? elapsed = some m) (draws : m ∈ [.clr, .draw])
    (redrawn : (p.step elapsed).1.redrawn = true) : Paints p elapsed
  | left {m : Mnemonic} (done : (p.step elapsed).2 = none)
    (instruction : p.instruction? elapsed = some m) (undrawn : m ∉ [.clr, .draw])
    (redrawn : (p.step elapsed).1.redrawn = false)
    (screen : (p.step elapsed).1.screen = p.screen) : Paints p elapsed
  | failed (failed : (p.step elapsed).2 ≠ none) (instruction : p.instruction? elapsed = none)
    (screen : (p.step elapsed).1.screen = p.screen) : Paints p elapsed

theorem paints_step (h : Holds (0 ≤ ·) p.registers) (elapsed : τ) : p.Paints elapsed := by
  cases hfault : (p.step elapsed).2 with
  | some fault =>
    -- sprites are drawn whole, so an instruction that fails has drawn nothing
    have hfailed : (p.step elapsed).2 ≠ none := by
      rw [hfault]
      exact Option.some_ne_none fault
    obtain ⟨timer, redrawn, hkept⟩ := step_of_failed h hfailed
    refine .failed hfailed ?_ ?_
    · rw [instruction?, hfault]
    · rw [hkept]
  | none =>
    have hsteps := p.steps_step elapsed
    rw [hfault] at hsteps
    generalize hstep : (p.step elapsed).1 = r at hsteps
    cases hsteps with
    | @done i q reaches executed =>
      have hinstruction : p.instruction? elapsed = some i.mnemonic := by
        rw [instruction?, hfault, reaches.decoded]
        rfl
      have hredrawn : (p.woken elapsed).redrawn = false := rfl
      have hchanges := execute_changes hredrawn (congrArg Prod.snd executed)
      rw [executed] at hchanges
      by_cases hm : i.mnemonic ∈ [.clr, .draw]
      · refine .drawn hfault hinstruction hm ?_
        rw [hstep]
        exact hchanges.redrawn.mpr hm
      · refine .left hfault hinstruction hm ?_ ?_
        · rw [hstep]
          exact Bool.eq_false_iff.mpr (mt hchanges.redrawn.mp hm)
        · rw [hstep]
          exact hchanges.screen hm

end Processor

namespace Machine

variable {κ τ : Type} {m n : Machine κ τ}

def sequence (m : Machine κ τ) : Int := (m.frame.map Frame.sequence).getD 0

def Current (m : Machine κ τ) : Prop :=
  (m.frame = none ∧ m.processor.screen = .blank) ∨
    ∃ f, m.frame = some f ∧ f.rows = m.processor.screen.rows

theorem Current.congr (h : m.Current) (hframe : n.frame = m.frame)
    (hscreen : n.processor.screen = m.processor.screen) : n.Current := by
  rw [Current, hframe, hscreen]
  exact h

theorem current_publish (m : Machine κ τ) : m.publish.Current := .inr ⟨_, rfl, rfl⟩

theorem sequence_publish (m : Machine κ τ) : m.publish.sequence = m.sequence + 1 := rfl

def drawings (ms : List Mnemonic) : Nat := ms.countP (· ∈ [.clr, .draw])

theorem drawings_of_mem {m : Mnemonic} (h : m ∈ [.clr, .draw]) : drawings [m] = 1 := by
  rw [drawings, List.countP_singleton, if_pos (decide_eq_true h)]

theorem drawings_of_notMem {m : Mnemonic} (h : m ∉ [.clr, .draw]) : drawings [m] = 0 := by
  rw [drawings, List.countP_singleton, if_neg (by simpa using h)]

theorem drawings_append (ms ns : List Mnemonic) :
    drawings (ms ++ ns) = drawings ms + drawings ns := List.countP_append

variable [Measure τ] {settings : Settings}

theorem Configured.registers (h : Configured settings m) :
    Processor.Holds (0 ≤ ·) m.processor.registers := by
  have hranged := h.processor.holds (Processor.Ranged.stable .naturals
    fun t elapsed _ ht => (t.updates_update elapsed).nonneg ht)
  exact hranged.registers

def resets : Except Failure Unit → Nat
  | .ok _ => 1
  | .error _ => 0

theorem sequence_loadRom (m : Machine κ τ) (rom : List UInt8) :
    (m.loadRom rom).1.sequence = m.sequence + resets (m.loadRom rom).2 := by
  rw [loadRom]
  cases m.processor.loadRom rom with
  | error e => exact (Int.add_zero _).symm
  | ok q => exact sequence_publish _

theorem sequence_loadSource (m : Machine κ τ) (source : Text) :
    (m.loadSource source).1.sequence = m.sequence + resets (m.loadSource source).2 := by
  simp only [loadSource]
  split
  · exact sequence_loadRom _ _
  · exact (Int.add_zero _).symm
  · exact (Int.add_zero _).symm

theorem sequence_loadNamed (m : Machine κ τ) (files : Storage.Files) (path : Storage.Path) :
    (m.loadNamed files path).1.sequence = m.sequence + resets (m.loadNamed files path).2 := by
  rw [loadNamed]
  split_ifs
  · split
    · exact sequence_loadSource _ _
    · exact (Int.add_zero _).symm
  · split
    · exact sequence_loadRom _ _
    · exact (Int.add_zero _).symm

theorem sequence_loadProgram (m : Machine κ τ) (files : Storage.Files) (name : Text) :
    (m.loadProgram files name).1.sequence = m.sequence + resets (m.loadProgram files name).2 := by
  have hnamed := m.sequence_loadNamed files (.parse name)
  simp only [loadProgram]
  split <;> rename_i hload <;> rw [hload] at hnamed <;> exact hnamed

variable [Clock κ τ]

theorem bareStep_of_drawn (hdone : m.next.2 = none) (hdrawn : m.next.1.redrawn = true) :
    m.bareStep = { m with processor := m.next.1 }.publish := by
  rw [bareStep, if_pos hdone, publishIfRedrawn, if_pos hdrawn]

theorem bareStep_of_left (h : m.next.2 = none → m.next.1.redrawn = false) :
    m.bareStep = { m with processor := m.next.1 } := by
  rw [bareStep]
  split_ifs with hdone
  · rw [publishIfRedrawn, if_neg (Bool.eq_false_iff.mp (h hdone))]
  · rfl

theorem bareStep_frame (h : Processor.Holds (0 ≤ ·) m.processor.registers) :
    (m.Current → m.bareStep.Current) ∧
      m.bareStep.sequence = m.sequence + drawings m.instruction?.toList := by
  rw [instruction?]
  cases m.processor.paints_step h (m.elapsed m.readClock.1) with
  | drawn done instruction draws redrawn =>
    rw [bareStep_of_drawn done redrawn, instruction, Option.toList_some, drawings_of_mem draws]
    exact ⟨fun _ => current_publish _, sequence_publish _⟩
  | left done instruction undrawn redrawn screen =>
    rw [bareStep_of_left fun _ => redrawn, instruction, Option.toList_some,
      drawings_of_notMem undrawn]
    exact ⟨fun hm => hm.congr rfl screen, (Int.add_zero _).symm⟩
  | failed failed instruction screen =>
    rw [bareStep_of_left fun hdone => absurd hdone failed, instruction]
    exact ⟨fun hm => hm.congr rfl screen, (Int.add_zero _).symm⟩

theorem Configured.stable_current (settings : Settings) :
    Stable settings (fun m : Machine κ τ => Configured settings m ∧ m.Current) where
  new made := by
    obtain ⟨-, hprocessor, hframe⟩ := of_new made
    refine ⟨(Configured.stable settings).new made, .inl ⟨hframe, ?_⟩⟩
    rw [hprocessor]
    rfl
  congr h hsettings hprocessor hframe :=
    ⟨(Configured.stable settings).congr h.1 hsettings hprocessor hframe,
      h.2.congr hframe (by rw [hprocessor])⟩
  bareStep h := ⟨(Configured.stable settings).bareStep h.1, (bareStep_frame h.1.registers).1 h.2⟩
  loadRom h hload := by
    refine ⟨(Configured.stable settings).loadRom h.1 hload, h.2.congr rfl ?_⟩
    obtain ⟨-, rfl⟩ := Processor.loadRom_eq_ok.mp hload
    rfl
  reset seed h := ⟨(Configured.stable settings).reset seed h.1, current_publish _⟩
  set argument h held answered := by
    refine ⟨(Configured.stable settings).set argument h.1 held answered, ?_⟩
    rcases Debugger.Session.eq_assign_of_set held answered with rfl | ⟨value, target, rfl⟩
    · exact h.2
    · cases target <;> exact h.2.congr rfl rfl

theorem Passes.sequence_eq {ms : List Mnemonic} (h : m.Passes ms n) (hm : Configured settings m) :
    n.sequence = m.sequence + drawings ms := by
  induction h with
  | refl m => exact (Int.add_zero _).symm
  | @alike m k n ms halike _ ih =>
    have hsequence : k.sequence = m.sequence := by rw [sequence, halike.frame, sequence]
    rw [ih ((Configured.stable settings).alike hm halike), hsequence]
  | @step m n ms _ ih =>
    -- what the step draws is in the frame it leaves, and the rest is counted from that frame
    rw [ih ((Configured.stable settings).bareStep hm), (bareStep_frame hm.registers).2,
      drawings_append]
    omega

def frames (m : Machine κ τ) : Operation → Nat
  | .loadRom rom => resets (m.loadRom rom).2
  | .loadSource source => resets (m.loadSource source).2
  | .loadProgram files name => resets (m.loadProgram files name).2
  | .reset _ => 1
  | .step => drawings m.instruction?.toList
  | .run fuel max throttle => drawings ((Run.start m).instructions max throttle fuel)
  | _ => 0

/-- The last frame is never out of date, and operations number the frames without a gap. -/
theorem frame_follows {m : Machine κ τ} (h : m.Reachable settings) :
    m.Current ∧ ∀ op n, m.operate op = some n →
      n.Current ∧ n.sequence = m.sequence + m.frames op := by
  obtain ⟨hconfigured, hcurrent⟩ := h.holds (Configured.stable_current settings)
  refine ⟨hcurrent, ?_⟩
  intro op n hop
  refine ⟨((h.operate hop).holds (Configured.stable_current settings)).2, ?_⟩
  cases op with
  | loadRom rom =>
    cases hop
    exact m.sequence_loadRom rom
  | loadSource source =>
    cases hop
    exact m.sequence_loadSource source
  | loadProgram files name =>
    cases hop
    exact m.sequence_loadProgram files name
  | reset seed =>
    cases hop
    exact sequence_publish _
  | step =>
    cases hop
    exact m.passes_step.sequence_eq hconfigured
  | run fuel max throttle =>
    obtain ⟨⟨k, result⟩, hrun, rfl⟩ := Option.map_eq_some_iff.mp hop
    exact (passes_run hrun).sequence_eq hconfigured
  | stop | setBreakpoint | clearBreakpoint | clearBreakpoints | addObserver | removeObserver =>
    cases hop
    exact (Int.add_zero _).symm

theorem frame_follows_drawing : ∃ m n : Machine (VirtualClock Float) Float,
    m.Reachable { windowed := false, seed := some 7 } ∧ m.sequence = 1 ∧
    m.operate (.run 5 none false) = some n ∧ n.Current ∧ n.sequence = 3 := by
  let settings : Settings := { windowed := false, seed := some 7 }
  let f : Machine (VirtualClock Float) Float := (new settings (.start 0 0) default).toOption.get rfl
  let m := (f.loadRom [0x00, 0xE0, 0x60, 0x05, 0xD0, 0x05, 0x00, 0xEE]).1
  have made : new settings (.start 0 0) default = .ok f := rfl
  have hm : m.Reachable settings := .operate (.new made)
    (show f.operate (.loadRom [0x00, 0xE0, 0x60, 0x05, 0xD0, 0x05, 0x00, 0xEE]) = some m from rfl)
  obtain ⟨hsequence, hframes, hends⟩ : m.sequence = 1 ∧ m.frames (.run 5 none false) = 2 ∧
      (m.operate (.run 5 none false)).isSome := by decide +kernel
  obtain ⟨n, hn⟩ := Option.isSome_iff_exists.mp hends
  obtain ⟨hcurrent, hnumber⟩ := (frame_follows hm).2 _ n hn
  rw [hsequence, hframes] at hnumber
  exact ⟨m, n, hm, hsequence, hn, hcurrent, hnumber⟩

end Machine

end Chip8
