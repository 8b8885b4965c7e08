import Chip8.Proofs.DecodedOperands
import Chip8.Proofs.StateRanges

namespace Chip8.Processor

open Time

variable {τ : Type} {p : Processor τ}

def register (p : Processor τ) (operand : Int) : Int :=
  p.registers.get ⟨operand.toNat % 16, by omega⟩

def skips (p : Processor τ) : Instruction → Bool
  | ⟨.ske, [x, n]⟩ => p.register x = n
  | ⟨.skne, [x, n]⟩ => p.register x ≠ n
  | ⟨.skre, [x, y]⟩ => p.register x = p.register y
  | ⟨.skrne, [x, y]⟩ => p.register x ≠ p.register y
  | _ => false

def destination (p : Processor τ) : Instruction → Int
  | ⟨.jump, [a]⟩ | ⟨.call, [a]⟩ => a
  | ⟨.jumpi, [a]⟩ => a + p.registers.get jumpRegister
  | ⟨.rts, _⟩ => if p.depth = 0 then p.pc else (p.memory.readWord p.sp + 2) % 0x10000
  | i => if p.skips i then (p.pc + 4) % 0x10000 else (p.pc + 2) % 0x10000

theorem register_natCast (p : Processor τ) (x : Fin 16) : p.register x = p.registers.get x := by
  have hx : (⟨(x : Int).toNat % 16, by omega⟩ : Fin 16) = x := Fin.ext (by simp only; omega)
  rw [register, hx]

theorem goTo_pc (p : Processor τ) {a : Int} (h : 0 ≤ a ∧ a < 0x10000) :
    ((p.goTo a).pc : Int) = a := by
  simp only [goTo]
  omega

theorem advance_pc (p : Processor τ) : (p.advance.pc : Int) = ((p.pc : Int) + 2) % 0x10000 := by
  simp only [advance, goTo]
  omega

theorem skipIf_pc (p : Processor τ) (condition : Bool) : ((p.skipIf condition).pc : Int) =
    if condition then ((p.pc : Int) + 4) % 0x10000 else ((p.pc : Int) + 2) % 0x10000 := by
  rw [skipIf]
  split_ifs
  · simp only [advance, goTo]
    omega
  · exact p.advance_pc

theorem execute_pc {word : Nat} {m : Mnemonic}
    (hv : 0 ≤ p.registers.get jumpRegister ∧ p.registers.get jumpRegister ≤ 255)
    (he : (p.execute word m).2 = none) :
    ((p.execute word m).1.pc : Int) = p.destination (.ofWord m word) := by
  have haddress : Opcode.address word < 0x1000 := Nat.mod_lt _ (by decide)
  cases m with
  | sys => cases he
  | jump =>
    rw [Instruction.ofWord_address rfl]
    exact p.goTo_pc ⟨by omega, by omega⟩
  | jumpi =>
    rw [Instruction.ofWord_address rfl]
    exact p.goTo_pc ⟨by omega, by omega⟩
  | call =>
    simp only [execute, call] at he ⊢
    split_ifs at he ⊢
    rw [Instruction.ofWord_address rfl]
    exact goTo_pc _ ⟨by omega, by omega⟩
  | rts =>
    simp only [execute, ret, Instruction.ofWord, destination]
    split_ifs
    · rfl
    · exact advance_pc _
    · exact advance_pc _
  | ske | skne =>
    rw [Instruction.ofWord_byte rfl]
    simp only [execute, destination, skips, register_natCast]
    exact p.skipIf_pc _
  | skre | skrne =>
    rw [Instruction.ofWord_registers rfl]
    simp only [execute, destination, skips, register_natCast]
    exact p.skipIf_pc _
  | draw =>
    simp only [execute, drawSprite] at he ⊢
    split at he
    · cases he
    · exact p.advance_pc
  | _ => exact p.advance_pc

theorem execute_finished_iff (h : p.finished = false) (word : Nat) (m : Mnemonic) :
    (p.execute word m).1.finished = true ↔ m = .rts ∧ p.depth = 0 := by
  by_cases hm : m = .rts
  · subst hm
    show p.ret.finished = true ↔ _
    by_cases hdepth : p.depth = 0
    · rw [ret, if_pos hdepth]
      exact iff_of_true rfl ⟨rfl, hdepth⟩
    · rw [ret, if_neg hdepth]
      exact iff_of_false (Bool.eq_false_iff.mp h) fun hrts => hdepth hrts.2
  · rw [execute_eq, if_neg hm, h]
    exact iff_of_false Bool.false_ne_true fun hrts => hm hrts.1

variable [Measure τ] {elapsed : τ}

theorem step_destination {seed : Option Int} {advancing : Bool}
    (h : p.Reachable DelayTimer.Forward seed advancing) (hdone : (p.step elapsed).2 = none) :
    ∃ i, Instruction.decode p.fetch = some i ∧ (p.step elapsed).1.pc = p.destination i ∧
      ((p.step elapsed).1.finished = true ↔ i.mnemonic = .rts ∧ p.depth = 0) := by
  have hp : p.InRange := h.holds (InRange.stable seed advancing)
  have hsteps := p.steps_step elapsed
  rw [hdone] at hsteps
  generalize (p.step elapsed).1 = q at hsteps ⊢
  cases hsteps with
  | @done i q reaches executed =>
    have hpc := execute_pc (p := p.woken elapsed) (hp.registers jumpRegister)
      (congrArg Prod.snd executed)
    have hfinished :=
      execute_finished_iff (p := p.woken elapsed) reaches.unfinished p.fetch i.mnemonic
    rw [executed, ← eq_ofWord reaches.decoded] at hpc
    rw [executed] at hfinished
    exact ⟨i, reaches.decoded, hpc, hfinished⟩

def indexedImage : List UInt8 := [0x60, 0xFF, 0xBF, 0xFF]

theorem step_destination_indexed : ∃ p : Processor Float,
    p.Reachable DelayTimer.Forward (some 7) true ∧ (p.step 0).2 = none ∧ (p.step 0).1.pc = 0x10FE ∧
      (p.step 0).1.finished = false := by
  let p : Processor Float := ((powerOn indexedImage (some 7) true 7).step 0).1
  have hp : p.Reachable DelayTimer.Forward (some 7) true :=
    (Reachable.powerOn (by decide) 7).step fun hrunning => absurd rfl hrunning
  obtain ⟨hdone, hdecode, hdestination⟩ : (p.step 0).2 = none ∧
      Instruction.decode p.fetch = some ⟨.jumpi, [0xFFF]⟩ ∧
      p.destination ⟨.jumpi, [0xFFF]⟩ = 0x10FE := by decide +kernel
  obtain ⟨i, hi, hpc, hfinished⟩ := step_destination hp hdone
  obtain rfl : i = ⟨.jumpi, [0xFFF]⟩ := Option.some.inj (hi.symm.trans hdecode)
  refine ⟨p, hp, hdone, by omega, ?_⟩
  rw [Bool.eq_false_iff, ne_eq, hfinished]
  exact fun hrts => absurd hrts.1 (by decide)

end Chip8.Processor
