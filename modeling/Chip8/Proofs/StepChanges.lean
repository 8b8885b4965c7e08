import Chip8.Proofs.RegisterRange

namespace Chip8.Processor

open Time

variable {τ : Type} {p q : Processor τ} {word : Nat} {m : Mnemonic}

def touched (p : Processor τ) (word : Nat) : Mnemonic → List Int
  | .call => [p.freeSlot, p.freeSlot + 1]
  | .rts => if p.depth = 0 then [] else [p.sp, p.sp + 1]
  | m => p.stored word m

def targets (word : Nat) : Mnemonic → List (Fin 16)
  | .load | .add | .copy | .or | .and | .xor | .rand | .moved => [Opcode.x word]
  | .addr | .sub | .subn | .shr | .shl => [Opcode.x word, flagRegister]
  | .draw => [flagRegister]
  | .read => firstRegisters (Opcode.x word)
  | _ => []

structure Changes (p : Processor τ) (word : Nat) (m : Mnemonic) (q : Processor τ) : Prop where
  memory : ∀ c, (∀ a ∈ p.touched word m, a % 0x1000 ≠ c % 0x1000) →
    q.memory.readByte c = p.memory.readByte c
  pushed : m = .call → q.sp = p.freeSlot
  popped : m = .rts → p.depth ≠ 0 →
    q.memory.readByte p.sp = 0 ∧ q.memory.readByte (p.sp + 1) = 0
  stack : m ∉ [.call, .rts] → q.sp = p.sp ∧ q.depth = p.depth
  screen : m ∉ [.clr, .draw] → q.screen = p.screen
  redrawn : q.redrawn = true ↔ m ∈ [.clr, .draw]
  random : q.random = if m = .rand then p.random.next.2 else p.random
  index : m ∉ [.loadi, .addi, .ldspr, .stor, .read] → q.index = p.index
  registers : ∀ x, x ∉ targets word m → q.registers.get x = p.registers.get x

theorem execute_registers {x : Fin 16} (h : x ∉ targets word m) :
    (p.execute word m).1.registers.get x = p.registers.get x := by
  cases m with
  | load | add | copy | or | and | xor | rand | moved =>
    exact get_setRegister_of_ne (mt List.mem_singleton.mpr h) _
  | addr | sub | subn | shr | shl =>
    simp only [targets, List.mem_cons, List.not_mem_nil, or_false, not_or] at h
    exact (get_setRegister_of_ne h.2 _).trans (get_setRegister_of_ne h.1 _)
  | draw =>
    simp only [execute, drawSprite]
    split
    · rfl
    · exact get_setRegister_of_ne (mt List.mem_singleton.mpr h) _
  | read => exact get_foldl_withRegister _ h
  | rts =>
    simp only [execute]
    rw [ret_eq]
  | call =>
    simp only [execute]
    rw [call_eq]
  | ske | skne | skre | skrne =>
    simp only [execute]
    rw [skipIf_eq]
  | _ => rfl

theorem touched_of_ne (hcall : m ≠ .call) (hrts : m ≠ .rts) :
    p.touched word m = p.stored word m := by
  cases m with
  | call => exact absurd rfl hcall
  | rts => exact absurd rfl hrts
  | _ => rfl

theorem ret_memory (h : p.depth ≠ 0) : p.ret.memory = p.memory.writeWord p.sp 0 := by
  rw [ret, if_neg h]
  rfl

theorem execute_readByte_of_touched {c : Int}
    (h : ∀ a ∈ p.touched word m, a % 0x1000 ≠ c % 0x1000) :
    (p.execute word m).1.memory.readByte c = p.memory.readByte c := by
  by_cases hcall : m = .call
  · subst hcall
    simp only [execute, call]
    split_ifs
    · rfl
    · exact Memory.readByte_writeWord_of_ne _ h
  by_cases hrts : m = .rts
  · subst hrts
    by_cases hdepth : p.depth = 0
    · simp only [execute, ret, if_pos hdepth]
    · rw [touched, if_neg hdepth] at h
      simp only [execute, ret_memory hdepth]
      exact Memory.readByte_writeWord_of_ne _ h
  · rw [touched_of_ne hcall hrts] at h
    exact execute_readByte p word c hcall hrts h

theorem ret_cleared (h : p.depth ≠ 0) :
    p.ret.memory.readByte p.sp = 0 ∧ p.ret.memory.readByte (p.sp + 1) = 0 := by
  rw [ret_memory h, Memory.readByte_writeWord, Memory.readByte_writeWord, if_neg (by omega),
    if_pos rfl, if_pos rfl]
  exact ⟨rfl, rfl⟩

theorem call_sp {address : Nat} (h : (p.call address).2 = none) :
    (p.call address).1.sp = p.freeSlot := by
  simp only [call] at h ⊢
  split_ifs at h ⊢
  rfl

theorem execute_redrawn_iff (hp : p.redrawn = false) (he : (p.execute word m).2 = none) :
    (p.execute word m).1.redrawn = true ↔ m ∈ [.clr, .draw] := by
  by_cases hm : m ∈ [.clr, .draw]
  · rw [iff_true_right hm]
    simp only [List.mem_cons, List.not_mem_nil, or_false] at hm
    rcases hm with rfl | rfl
    · rfl
    · simp only [execute, drawSprite] at he ⊢
      split at he
      · cases he
      · rfl
  · rw [(p.execute_screen word hm).2, hp, iff_false_right hm]
    exact Bool.false_ne_true

theorem execute_random (p : Processor τ) (word : Nat) (m : Mnemonic) :
    (p.execute word m).1.random = if m = .rand then p.random.next.2 else p.random := by
  by_cases hm : m = .rand
  · subst hm
    rfl
  · rw [if_neg hm, execute_eq]
    exact if_neg hm

theorem execute_changes (hp : p.redrawn = false) (he : (p.execute word m).2 = none) :
    Changes p word m (p.execute word m).1 where
  memory c h := execute_readByte_of_touched h
  pushed hm := by
    subst hm
    exact call_sp he
  popped hm hdepth := by
    subst hm
    exact ret_cleared hdepth
  stack hm := by
    simp only [List.mem_cons, List.not_mem_nil, or_false, not_or] at hm
    exact p.execute_stack word hm.1 hm.2
  screen hm := (p.execute_screen word hm).1
  redrawn := execute_redrawn_iff hp he
  random := p.execute_random word m
  index hm := p.execute_index_of_notMem word hm
  registers x hx := execute_registers hx

variable [Measure τ] {elapsed : τ}

theorem step_changes (h : (p.step elapsed).2 = none) :
    ∃ i, Instruction.decode p.fetch = some i ∧
      Changes p p.fetch i.mnemonic (p.step elapsed).1 := by
  have hsteps := p.steps_step elapsed
  rw [h] at hsteps
  generalize (p.step elapsed).1 = q at hsteps
  cases hsteps with
  | @done i q hreaches he =>
    have hredrawn : (p.woken elapsed).redrawn = false := rfl
    have hchanges := execute_changes hredrawn (congrArg Prod.snd he)
    rw [he] at hchanges
    obtain ⟨memory, pushed, popped, stack, screen, redrawn, random, index, registers⟩ := hchanges
    exact ⟨i, hreaches.decoded, memory, pushed, popped, stack, screen, redrawn, random, index,
      registers⟩

def spilling : Processor Float :=
  { powerOn [0xF1, 0x55] (some 7) true 7 with
    index := 0xFFF
    registers := Vector.replicate 16 4 }

theorem step_changes_spilling :
    (spilling.step 0).2 = none ∧ (spilling.step 0).1.memory.readByte 0 = 4 ∧
    (spilling.step 0).1.memory.readByte 1 = spilling.memory.readByte 1 ∧
    (spilling.step 0).1.screen = spilling.screen ∧ (spilling.step 0).1.redrawn = false ∧
    (spilling.step 0).1.random = spilling.random ∧
    ∀ x, (spilling.step 0).1.registers.get x = spilling.registers.get x := by
  obtain ⟨hnone, hdecode, hwrapped, happart⟩ : (spilling.step 0).2 = none ∧
      Instruction.decode spilling.fetch = some ⟨.stor, [1]⟩ ∧
      (spilling.step 0).1.memory.readByte 0 = 4 ∧
      ∀ a ∈ spilling.touched spilling.fetch .stor, a % 0x1000 ≠ 1 % 0x1000 := by decide +kernel
  obtain ⟨i, hi, h⟩ := step_changes hnone
  obtain rfl : i = ⟨.stor, [1]⟩ := Option.some.inj (hi.symm.trans hdecode)
  refine ⟨hnone, hwrapped, h.memory 1 happart, h.screen (by decide), ?_, h.random,
    fun x => h.registers x List.not_mem_nil⟩
  rw [Bool.eq_false_iff, ne_eq, h.redrawn]
  decide

end Chip8.Processor
