import Chip8.Processor.Step
import Chip8.Proofs.MemoryCells
import Mathlib.Tactic.SplitIfs

namespace Chip8.Processor

open Time

variable {τ : Type}

theorem skipIf_eq (p : Processor τ) (condition : Bool) :
    p.skipIf condition = { p with pc := (p.skipIf condition).pc } := by
  unfold skipIf
  split_ifs <;> rfl

theorem drawSprite_eq (p : Processor τ) (x y : Fin 16) (height : Nat) :
    (p.drawSprite x y height).1 = { p with
      screen := (p.drawSprite x y height).1.screen
      redrawn := (p.drawSprite x y height).1.redrawn
      registers := (p.drawSprite x y height).1.registers
      pc := (p.drawSprite x y height).1.pc } := by
  simp only [drawSprite]
  split <;> rfl

theorem ret_eq (p : Processor τ) :
    p.ret = { p with
      memory := p.ret.memory
      depth := p.ret.depth
      sp := p.ret.sp
      pc := p.ret.pc
      finished := p.ret.finished } := by
  simp only [ret]
  split_ifs <;> rfl

theorem call_eq (p : Processor τ) (address : Nat) :
    (p.call address).1 = { p with
      memory := (p.call address).1.memory
      depth := (p.call address).1.depth
      sp := (p.call address).1.sp
      pc := (p.call address).1.pc } := by
  simp only [call]
  split_ifs <;> rfl

theorem execute_eq (p : Processor τ) (word : Nat) (m : Mnemonic) :
    (p.execute word m).1 = { p with
      pc := (p.execute word m).1.pc
      registers := (p.execute word m).1.registers
      memory := if m ∈ [.call, .rts, .bcd, .stor] then (p.execute word m).1.memory else p.memory
      index := if m ∈ [.loadi, .addi, .ldspr, .stor, .read] then (p.execute word m).1.index
        else p.index
      sp := if m ∈ [.call, .rts] then (p.execute word m).1.sp else p.sp
      depth := if m ∈ [.call, .rts] then (p.execute word m).1.depth else p.depth
      finished := if m = .rts then (p.execute word m).1.finished else p.finished
      timer := if m = .loadd then (p.execute word m).1.timer else p.timer
      random := if m = .rand then (p.execute word m).1.random else p.random
      screen := if m ∈ [.clr, .draw] then (p.execute word m).1.screen else p.screen
      redrawn := if m ∈ [.clr, .draw] then (p.execute word m).1.redrawn else p.redrawn } := by
  cases m with
  | rts =>
    simp only [execute]
    rw [ret_eq]
    rfl
  | call =>
    simp only [execute]
    rw [call_eq]
    rfl
  | ske | skne | skre | skrne =>
    simp only [execute]
    rw [skipIf_eq]
    rfl
  | draw =>
    simp only [execute]
    rw [drawSprite_eq]
    rfl
  | _ => rfl

theorem execute_stack (p : Processor τ) (word : Nat) {m : Mnemonic} (hcall : m ≠ .call)
    (hrts : m ≠ .rts) :
    (p.execute word m).1.sp = p.sp ∧ (p.execute word m).1.depth = p.depth := by
  have hm : m ∉ [.call, .rts] := by simp [hcall, hrts]
  rw [execute_eq]
  exact ⟨if_neg hm, if_neg hm⟩

theorem execute_index_of_notMem (p : Processor τ) (word : Nat) {m : Mnemonic}
    (h : m ∉ [.loadi, .addi, .ldspr, .stor, .read]) : (p.execute word m).1.index = p.index := by
  rw [execute_eq]
  exact if_neg h

theorem execute_timer_of_ne (p : Processor τ) (word : Nat) {m : Mnemonic} (h : m ≠ .loadd) :
    (p.execute word m).1.timer = p.timer := by
  rw [execute_eq]
  exact if_neg h

theorem execute_screen (p : Processor τ) (word : Nat) {m : Mnemonic} (h : m ∉ [.clr, .draw]) :
    (p.execute word m).1.screen = p.screen ∧ (p.execute word m).1.redrawn = p.redrawn := by
  rw [execute_eq]
  exact ⟨if_neg h, if_neg h⟩

theorem execute_options (p : Processor τ) (word : Nat) (m : Mnemonic) :
    (p.execute word m).1.seed = p.seed ∧ (p.execute word m).1.advancing = p.advancing := by
  rw [execute_eq]
  exact ⟨rfl, rfl⟩

theorem execute_executed (p : Processor τ) (word : Nat) (m : Mnemonic) :
    (p.execute word m).1.executed = p.executed := by
  rw [execute_eq]

def stored (p : Processor τ) (word : Nat) : Mnemonic → List Int
  | .bcd => [p.index, p.index + 1, p.index + 2]
  | .stor => (List.range ((Opcode.x word).val + 1)).map (fun (k : Nat) => p.index + k)
  | _ => []

theorem readByte_foldl_writeByte (m : Memory) (base c : Int) (values : Fin 16 → Int)
    (l : List (Fin 16)) (h : ∀ i ∈ l, (base + i.val) % 0x1000 ≠ c % 0x1000) :
    (l.foldl (fun m (i : Fin 16) => m.writeByte (base + i.val) (values i)) m).readByte c =
      m.readByte c := by
  induction l generalizing m with
  | nil => rfl
  | cons i l ih =>
    rw [List.foldl_cons, ih _ (fun j hj => h j (by simp [hj])), Memory.readByte_writeByte,
      if_neg (h i (by simp)).symm]

theorem execute_readByte (p : Processor τ) (word : Nat) {m : Mnemonic} (c : Int)
    (hcall : m ≠ .call) (hrts : m ≠ .rts)
    (h : ∀ a ∈ p.stored word m, a % 0x1000 ≠ c % 0x1000) :
    (p.execute word m).1.memory.readByte c = p.memory.readByte c := by
  cases m with
  | call => exact absurd rfl hcall
  | rts => exact absurd rfl hrts
  | ske | skne | skre | skrne =>
    simp only [execute]
    rw [skipIf_eq]
  | draw =>
    simp only [execute]
    rw [drawSprite_eq]
  | bcd =>
    simp only [stored, List.forall_mem_cons] at h
    obtain ⟨h0, h1, h2, -⟩ := h
    simp only [execute, advance, goTo, storeBcd, Memory.readByte_writeByte, h0.symm, h1.symm,
      h2.symm, if_false]
  | stor =>
    apply readByte_foldl_writeByte
    intro i hi
    have hle : i ≤ Opcode.x word := by simpa [firstRegisters] using hi
    exact h _ (List.mem_map.mpr ⟨i.val, List.mem_range.mpr (by omega), rfl⟩)
  | _ => rfl

theorem goTo_pc_lt (p : Processor τ) (address : Int) : (p.goTo address).pc < 0x10000 := by
  simp only [goTo]
  omega

theorem execute_pc_lt (p : Processor τ) (word : Nat) (m : Mnemonic) (h : p.pc < 0x10000) :
    (p.execute word m).1.pc < 0x10000 := by
  cases m with
  | sys => exact h
  | rts =>
    simp only [execute, ret]
    split
    · exact h
    · exact goTo_pc_lt _ _
  | call =>
    simp only [execute, call]
    split_ifs
    · exact h
    · exact goTo_pc_lt _ _
  | ske | skne | skre | skrne =>
    simp only [execute, skipIf]
    split_ifs <;> exact goTo_pc_lt _ _
  | draw =>
    simp only [execute, drawSprite]
    split
    · exact h
    · exact goTo_pc_lt _ _
  | _ => exact goTo_pc_lt _ _

theorem execute_fault {p q : Processor τ} {word : Nat} {m : Mnemonic} {fault : StepFault}
    (h : p.execute word m = (q, some fault)) : m = .sys ∨ m = .call ∨ m = .draw := by
  cases m with
  | sys => exact .inl rfl
  | call => exact .inr (.inl rfl)
  | draw => exact .inr (.inr rfl)
  | _ => cases h

variable [Measure τ]

def woken (p : Processor τ) (elapsed : τ) : Processor τ :=
  { p with timer := (p.timer.update elapsed).1, redrawn := false }

structure Reaches (p : Processor τ) (elapsed : τ) (i : Instruction) : Prop where
  unfinished : p.finished = false
  counted : (p.timer.update elapsed).2 = none
  decoded : Instruction.decode p.fetch = some i

inductive Steps (p : Processor τ) (elapsed : τ) : Processor τ → Option StepFault → Prop
  | halted (finished : p.finished = true) : Steps p elapsed p (some .halted)
  | uncounted {fault : CountFault} (unfinished : p.finished = false)
    (late : (p.timer.update elapsed).2 = some fault) :
    Steps p elapsed (p.woken elapsed) (some (.clock fault))
  | unknown (unfinished : p.finished = false) (counted : (p.timer.update elapsed).2 = none)
    (undecoded : Instruction.decode p.fetch = none) :
    Steps p elapsed (p.woken elapsed) (some (.unknownOpcode p.fetch p.pc))
  | failed {i : Instruction} {q : Processor τ} {fault : StepFault} (reaches : p.Reaches elapsed i)
    (executed : (p.woken elapsed).execute p.fetch i.mnemonic = (q, some fault)) :
    Steps p elapsed q (some fault)
  | done {i : Instruction} {q : Processor τ} (reaches : p.Reaches elapsed i)
    (executed : (p.woken elapsed).execute p.fetch i.mnemonic = (q, none)) :
    Steps p elapsed { q with executed := q.executed + 1 } none

theorem step_of_finished {p : Processor τ} {elapsed : τ} (h : p.finished = true) :
    p.step elapsed = (p, some .halted) := by
  rw [step, if_pos h]

theorem step_of_unfinished {p : Processor τ} {elapsed : τ} (h : p.finished = false) :
    p.step elapsed = match (p.timer.update elapsed).2 with
      | some fault => (p.woken elapsed, some (.clock fault))
      | none =>
        match Instruction.decode p.fetch with
        | none => (p.woken elapsed, some (.unknownOpcode p.fetch p.pc))
        | some i =>
          match (p.woken elapsed).execute p.fetch i.mnemonic with
          | (q, some fault) => (q, some fault)
          | (q, none) => ({ q with executed := q.executed + 1 }, none) := by
  rw [step, if_neg (by simp [h])]
  rfl

theorem step_of_reaches {p : Processor τ} {elapsed : τ} {i : Instruction}
    (h : p.Reaches elapsed i) :
    p.step elapsed = match (p.woken elapsed).execute p.fetch i.mnemonic with
      | (q, some fault) => (q, some fault)
      | (q, none) => ({ q with executed := q.executed + 1 }, none) := by
  rw [step_of_unfinished h.unfinished, h.counted, h.decoded]

theorem step_of_executed {p : Processor τ} {elapsed : τ} {i : Instruction}
    (h : p.Reaches elapsed i) (he : ((p.woken elapsed).execute p.fetch i.mnemonic).2 = none) :
    p.step elapsed = ({ ((p.woken elapsed).execute p.fetch i.mnemonic).1 with
      executed := ((p.woken elapsed).execute p.fetch i.mnemonic).1.executed + 1 }, none) := by
  rw [step_of_reaches h]
  generalize (p.woken elapsed).execute p.fetch i.mnemonic = e at he ⊢
  obtain ⟨q, _⟩ := e
  subst he
  rfl

theorem steps_step (p : Processor τ) (elapsed : τ) :
    Steps p elapsed (p.step elapsed).1 (p.step elapsed).2 := by
  cases hf : p.finished with
  | true =>
    rw [step_of_finished hf]
    exact .halted hf
  | false =>
    cases hc : (p.timer.update elapsed).2 with
    | some fault =>
      rw [step_of_unfinished hf, hc]
      exact .uncounted hf hc
    | none =>
      cases hd : Instruction.decode p.fetch with
      | none =>
        rw [step_of_unfinished hf, hc, hd]
        exact .unknown hf hc hd
      | some i =>
        rw [step_of_reaches ⟨hf, hc, hd⟩]
        rcases he : (p.woken elapsed).execute p.fetch i.mnemonic with ⟨q, _ | fault⟩
        · exact .done ⟨hf, hc, hd⟩ he
        · exact .failed ⟨hf, hc, hd⟩ he

theorem step_keeps (holds : Processor τ → Prop) {p : Processor τ} {elapsed : τ} (hp : holds p)
    (hwoken : holds (p.woken elapsed))
    (hexecute : ∀ q word m, holds q → holds (q.execute word m).1)
    (hcount : ∀ q n, holds q → holds { q with executed := n }) : holds (p.step elapsed).1 := by
  have hsteps := p.steps_step elapsed
  generalize (p.step elapsed).1 = q at hsteps ⊢
  generalize (p.step elapsed).2 = fault at hsteps
  cases hsteps with
  | halted => exact hp
  | uncounted | unknown => exact hwoken
  | @failed i q fault _ he =>
    have hq := hexecute (p.woken elapsed) p.fetch i.mnemonic hwoken
    rwa [he] at hq
  | @done i q _ he =>
    have hq := hexecute (p.woken elapsed) p.fetch i.mnemonic hwoken
    rw [he] at hq
    exact hcount q _ hq

end Chip8.Processor
