import Chip8.Proofs.SpriteDrawing
import Chip8.Proofs.StateRanges

namespace Chip8.Processor

open Time

variable {τ : Type} {p q : Processor τ}

theorem drawSprite_done (h : Holds (0 ≤ ·) p.registers) (x y : Fin 16) (height : Nat) :
    (p.drawSprite x y height).2 = none ∧ (p.drawSprite x y height).1.redrawn = true := by
  obtain ⟨screen, hit, hdraw⟩ := p.screen.draw_eq_some false
    ((p.memory.readBlock p.index height).map (fun b => (b.toNat : Int))) (h x) (h y)
  simp only [drawSprite, hdraw]
  exact ⟨trivial, rfl⟩

theorem execute_of_fault (h : Holds (0 ≤ ·) p.registers) {word : Nat} {m : Mnemonic}
    {fault : StepFault} (he : p.execute word m = (q, some fault)) : q = p := by
  rcases execute_fault he with rfl | rfl | rfl
  · cases he
    rfl
  · simp only [execute, call] at he
    split_ifs at he
    · cases he
      rfl
    · cases he
  · have hnone := (drawSprite_done h (Opcode.x word) (Opcode.y word) (Opcode.nibble word)).1
    simp only [execute] at he
    rw [he] at hnone
    cases hnone

def refusalOf (p : Processor τ) (word : Nat) : Mnemonic → Option StepFault
  | .sys => some (.unsupportedOpcode word p.pc)
  | .call => if p.depth = 48 then some (.stackOverflow p.pc) else none
  | _ => none

theorem execute_snd (h : p.InRange) (word : Nat) (m : Mnemonic) :
    (p.execute word m).2 = p.refusalOf word m := by
  cases m with
  | call =>
    simp only [execute, refusalOf, h.levelled.call_eq]
    split_ifs <;> rfl
  | draw => exact (drawSprite_done (fun x => (h.registers x).1) _ _ _).1
  | _ => rfl

def refusal (p : Processor τ) : Option StepFault :=
  if p.finished then some .halted
  else
    match Instruction.decode p.fetch with
    | none => some (.unknownOpcode p.fetch p.pc)
    | some i => p.refusalOf p.fetch i.mnemonic

variable [Measure τ] {elapsed : τ}

theorem step_snd (h : p.InRange) (haccepts : p.timer.Accepts elapsed) :
    (p.step elapsed).2 = p.refusal := by
  have hwoken : (p.woken elapsed).InRange := h.woken haccepts.forward
  have hcounts := (p.timer.updates_update elapsed).counts haccepts
  have hsteps := p.steps_step elapsed
  generalize (p.step elapsed).1 = q at hsteps
  generalize (p.step elapsed).2 = fault at hsteps ⊢
  cases hsteps with
  | halted finished => rw [refusal, if_pos finished]
  | uncounted _ late =>
    rw [late] at hcounts
    cases hcounts
  | unknown unfinished _ undecoded => rw [refusal, unfinished, undecoded, if_neg Bool.false_ne_true]
  | @failed i q fault reaches executed =>
    have hsnd := execute_snd hwoken p.fetch i.mnemonic
    rw [executed] at hsnd
    rw [refusal, reaches.unfinished, reaches.decoded, if_neg Bool.false_ne_true]
    exact hsnd
  | @done i q reaches executed =>
    have hsnd := execute_snd hwoken p.fetch i.mnemonic
    rw [executed] at hsnd
    rw [refusal, reaches.unfinished, reaches.decoded, if_neg Bool.false_ne_true]
    exact hsnd

theorem step_of_failed (h : Holds (0 ≤ ·) p.registers) (hfailed : (p.step elapsed).2 ≠ none) :
    ∃ timer redrawn, (p.step elapsed).1 = { p with timer, redrawn } := by
  have hsteps := p.steps_step elapsed
  generalize (p.step elapsed).1 = q at hsteps ⊢
  generalize (p.step elapsed).2 = fault at hsteps hfailed
  cases hsteps with
  | halted => exact ⟨p.timer, p.redrawn, rfl⟩
  | uncounted | unknown => exact ⟨_, _, rfl⟩
  | failed _ executed =>
    obtain rfl := execute_of_fault (p := p.woken elapsed) h executed
    exact ⟨_, _, rfl⟩
  | done => exact absurd rfl hfailed

theorem step_executed (h : (p.step elapsed).2 = none) :
    (p.step elapsed).1.executed = p.executed + 1 := by
  have hsteps := p.steps_step elapsed
  generalize (p.step elapsed).1 = q at hsteps ⊢
  rw [h] at hsteps
  cases hsteps with
  | @done i q _ executed =>
    have hq := (p.woken elapsed).execute_executed p.fetch i.mnemonic
    rw [executed] at hq
    show q.executed + 1 = p.executed + 1
    rw [hq]
    rfl

theorem step_refusal {seed : Option Int} {advancing : Bool}
    (h : Reachable DelayTimer.Forward seed advancing p) (haccepts : p.timer.Accepts elapsed) :
    (p.step elapsed).2 = p.refusal ∧
    (p.finished = true → (p.step elapsed).1 = p) ∧
    ((p.step elapsed).2 ≠ none →
      ∃ timer redrawn, (p.step elapsed).1 = { p with timer, redrawn }) ∧
    ((p.step elapsed).2 = none → (p.step elapsed).1.executed = p.executed + 1) := by
  have hp : p.InRange := h.holds (InRange.stable seed advancing)
  refine ⟨step_snd hp haccepts, ?_, ?_, step_executed⟩
  · intro hfinished
    rw [step_of_finished hfinished]
  · exact step_of_failed fun x => (hp.registers x).1

def strandedImage : List UInt8 := [0x60, 0x05, 0xF0, 0x15, 0xF1, 0x00]

theorem step_refusal_stranded : ∃ p : Processor Float,
    Reachable DelayTimer.Forward (some 7) true p ∧ p.timer.Accepts 20 ∧ p.timer.value = 5 ∧
      (p.step 20).2 = some (.unknownOpcode 0xF100 0x204) ∧
      ∃ timer redrawn, (p.step 20).1 = { p with timer, redrawn } := by
  let loaded : Processor Float := { (new (some 7) true default).1 with
    memory := Memory.fresh.store Memory.programStart strandedImage, rom := strandedImage }
  let reset := (loaded.reset none default).1
  let started := ((reset.step 0).1.step 0).1
  have hreset : Reachable DelayTimer.Forward (some 7) true reset :=
    .reset (.loadRom (.new default) (loadRom_eq_ok.mpr ⟨by decide, rfl⟩)) none default
  obtain ⟨hidle, hticks, hvalue, hrefusal⟩ : (reset.step 0).1.timer.value = 0 ∧
      (Measure.ticks (started.timer.spare + 20)).toOption = some 1 ∧ started.timer.value = 5 ∧
      started.refusal = some (.unknownOpcode 0xF100 0x204) := by decide +kernel
  have hstarted : Reachable DelayTimer.Forward (some 7) true started :=
    (hreset.step fun hrunning => absurd rfl hrunning).step fun hrunning => absurd hidle hrunning
  have haccepts : started.timer.Accepts 20 := by
    intro _
    cases hn : Measure.ticks (started.timer.spare + 20) with
    | error fault =>
      rw [hn] at hticks
      cases hticks
    | ok n =>
      rw [hn, Except.toOption, Option.some.injEq] at hticks
      exact ⟨n, rfl, by omega⟩
  obtain ⟨hsnd, -, hkept, -⟩ := step_refusal hstarted haccepts
  rw [hrefusal] at hsnd
  exact ⟨started, hstarted, haccepts, hvalue, hsnd, hkept (by rw [hsnd]; exact Option.some_ne_none _)⟩

end Chip8.Processor
