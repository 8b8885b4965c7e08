import Chip8.Proofs.LoadedProgram
import Chip8.Proofs.StackDepth

namespace Chip8.Processor

open Time

variable {τ : Type}

def inStackWindow (a : Int) : Prop := 0xEA0 ≤ a % 0x1000 ∧ a % 0x1000 ≤ 0xEFF

instance (a : Int) : Decidable (inStackWindow a) := inferInstanceAs (Decidable (_ ∧ _))

/-- The return addresses are in memory below the stack pointer, oldest first, and zeros above. -/
structure Stacks (p : Processor τ) (calls : List Nat) : Prop where
  depth : p.depth = calls.length
  bound : calls.length ≤ 48
  sp : p.sp = 0xEA0 + 2 * (calls.length - 1)
  words : ∀ i (h : i < calls.length), p.memory.readWord ((0xEA0 + 2 * i : Nat) : Int) = calls[i]
  zeros : ∀ a : Nat, 0xEA0 + 2 * calls.length ≤ a → a ≤ 0xEFF → p.memory.readByte a = 0
  pc : p.pc < 0x10000

def tracked (p : Processor τ) (calls : List Nat) : Mnemonic → List Nat
  | .call => calls ++ [p.pc]
  | .rts => calls.dropLast
  | _ => calls

namespace Stacks

variable {p q : Processor τ} {calls : List Nat}

theorem stack_eq (h : p.Stacks calls) : p.stack = calls := by
  apply List.ext_getElem
  · simp only [stack, List.length_map, List.length_range, h.depth]
  · intro i hi hi'
    simp only [stack, List.getElem_map, List.getElem_range]
    exact h.words i hi'

theorem congr (h : p.Stacks calls) (hsp : q.sp = p.sp) (hdepth : q.depth = p.depth)
    (hpc : q.pc < 0x10000)
    (hmemory : ∀ a, inStackWindow a → q.memory.readByte a = p.memory.readByte a) :
    q.Stacks calls where
  depth := hdepth.trans h.depth
  bound := h.bound
  sp := hsp.trans h.sp
  words i hi := by
    have hbound := h.bound
    have h0 := hmemory ((0xEA0 + 2 * i : Nat) : Int) ⟨by omega, by omega⟩
    have h1 := hmemory ((0xEA0 + 2 * i : Nat) + 1 : Int) ⟨by omega, by omega⟩
    rw [← h.words i hi, Memory.readWord, Memory.readWord, h0, h1]
  zeros a ha ha' := by
    rw [hmemory a ⟨by omega, by omega⟩, h.zeros a ha ha']
  pc := hpc

theorem levelled (h : p.Stacks calls) : p.Levelled :=
  ⟨h.depth ▸ h.bound, by rw [h.sp, h.depth]⟩

theorem freeSlot_eq (h : p.Stacks calls) : p.freeSlot = 0xEA0 + 2 * calls.length := by
  rw [h.levelled.freeSlot_eq, h.depth]

theorem call_eq (h : p.Stacks calls) (address : Nat) :
    p.call address = if calls.length = 48 then (p, some (.stackOverflow p.pc)) else
      ({ p with
        memory := p.memory.writeWord p.freeSlot p.pc
        sp := p.freeSlot
        depth := p.depth + 1 }.goTo address, none) := by
  rw [h.levelled.call_eq]
  simp only [h.depth]

theorem push (h : p.Stacks calls) (hroom : calls.length < 48) (address : Nat) :
    (p.call address).1.Stacks (calls ++ [p.pc]) := by
  have hpc := h.pc
  rw [h.call_eq, if_neg (by omega), h.freeSlot_eq]
  refine ⟨by simp [goTo, h.depth], by simp; omega, by simp [goTo], ?_, ?_, goTo_pc_lt _ _⟩
  · intro i hi
    simp only [goTo]
    by_cases hlast : i = calls.length
    · subst hlast
      rw [Memory.readWord_writeWord, List.getElem_concat_length]
      · omega
      · rfl
    · have hi' : i < calls.length := by
        simp at hi
        omega
      rw [Memory.readWord_writeWord_of_apart _ _ _ _ ⟨by omega, by omega⟩, h.words i hi',
        List.getElem_append_left hi']
  · intro a ha ha'
    simp only [List.length_append, List.length_singleton] at ha
    simp only [goTo, Memory.readByte_writeWord]
    rw [if_neg (by omega), if_neg (by omega), h.zeros a (by omega) ha']

theorem readWord_sp (h : p.Stacks calls) (hne : calls ≠ []) :
    p.memory.readWord p.sp = calls.getLast hne := by
  have hpos := List.length_pos_of_ne_nil hne
  rw [h.sp, h.words _ (by omega), List.getLast_eq_getElem]

theorem pop (h : p.Stacks calls) (hne : calls ≠ []) : p.ret.Stacks calls.dropLast := by
  have hpos := List.length_pos_of_ne_nil hne
  have hbound := h.bound
  have hdepth := h.depth
  have hsp := h.sp
  rw [ret, if_neg (by omega)]
  refine ⟨?_, ?_, ?_, ?_, ?_, goTo_pc_lt _ _⟩
  · simp [advance, goTo, hdepth]
  · simp only [List.length_dropLast]
    omega
  · simp only [advance, goTo, List.length_dropLast]
    split_ifs <;> omega
  · intro i hi
    simp only [List.length_dropLast] at hi
    simp only [advance, goTo, List.getElem_dropLast]
    rw [Memory.readWord_writeWord_of_apart _ _ _ _ ⟨by omega, by omega⟩, h.words i (by omega)]
  · intro a ha ha'
    simp only [List.length_dropLast] at ha
    simp only [advance, goTo, Memory.readByte_writeWord]
    split_ifs with h1 h0
    · rfl
    · rfl
    · exact h.zeros a (by omega) ha'

theorem ret_pc (h : p.Stacks calls) (hne : calls ≠ []) :
    p.ret.pc = (calls.getLast hne + 2) % 0x10000 := by
  have hpos := List.length_pos_of_ne_nil hne
  rw [ret, if_neg (by have := h.depth; omega)]
  simp only [advance, goTo, h.readWord_sp hne]
  omega

theorem counted (h : p.Stacks calls) (n : Nat) : { p with executed := n }.Stacks calls :=
  h.congr rfl rfl h.pc (fun _ _ => rfl)

theorem execute (h : p.Stacks calls) {word : Nat} {m : Mnemonic} (hcall : m ≠ .call)
    (hrts : m ≠ .rts) (hs : ∀ a ∈ p.stored word m, ¬inStackWindow a) :
    (p.execute word m).1.Stacks calls := by
  obtain ⟨hsp, hdepth⟩ := p.execute_stack word hcall hrts
  refine h.congr hsp hdepth (p.execute_pc_lt word m h.pc) fun a ha => ?_
  apply p.execute_readByte word a hcall hrts
  intro b hb hab
  apply hs b hb
  rwa [inStackWindow, hab]

theorem execute_fault (h : p.Stacks calls) {word : Nat} {m : Mnemonic} {fault : StepFault}
    (he : p.execute word m = (q, some fault)) : q.Stacks calls := by
  have hq : (p.execute word m).1 = q := by rw [he]
  rw [← hq]
  rcases Processor.execute_fault he with rfl | rfl | rfl
  · exact h
  · simp only [Processor.execute, h.call_eq] at he ⊢
    split_ifs at he ⊢ with hfull
    · exact h
    · cases he
  · exact h.execute (by decide) (by decide) (fun a ha => by cases ha)

theorem execute_done (h : p.Stacks calls) {word : Nat} {m : Mnemonic}
    (he : p.execute word m = (q, none)) (hs : ∀ a ∈ p.stored word m, ¬inStackWindow a) :
    q.Stacks (p.tracked calls m) := by
  have hbound := h.bound
  have hdepth := h.depth
  have hq : (p.execute word m).1 = q := by rw [he]
  rw [← hq]
  cases m with
  | call =>
    have hroom : calls.length ≠ 48 := by
      intro hfull
      rw [Processor.execute, h.call_eq, if_pos hfull] at he
      cases he
    exact h.push (by omega) _
  | rts =>
    simp only [Processor.execute, tracked]
    by_cases hnil : calls = []
    · subst hnil
      rw [List.length_nil] at hdepth
      rw [ret, if_pos hdepth]
      exact h.congr rfl rfl h.pc fun _ _ => rfl
    · exact h.pop hnil
  | _ => exact h.execute (by decide) (by decide) hs

end Stacks

variable [Measure τ]

def track (p : Processor τ) (elapsed : τ) (calls : List Nat) : List Nat :=
  match (p.step elapsed).2, Instruction.decode p.fetch with
  | none, some i => p.tracked calls i.mnemonic
  | _, _ => calls

def Spares (p : Processor τ) (elapsed : τ) : Prop :=
  ∀ i, Instruction.decode p.fetch = some i → (p.step elapsed).2 = none →
    ∀ a ∈ p.stored p.fetch i.mnemonic, ¬inStackWindow a

inductive SparingRun (p : Processor τ) : Processor τ → List Nat → Prop
  | refl : SparingRun p p []
  | step {q : Processor τ} {calls : List Nat} {elapsed : τ} (run : SparingRun p q calls)
    (spares : q.Spares elapsed) : SparingRun p (q.step elapsed).1 (q.track elapsed calls)

theorem SparingRun.next {p q : Processor τ} {calls next : List Nat} {elapsed : τ} {i : Instruction}
    (run : p.SparingRun q calls) (hd : Instruction.decode q.fetch = some i)
    (hs : ∀ a ∈ q.stored q.fetch i.mnemonic, ¬inStackWindow a)
    (ht : q.track elapsed calls = next) : p.SparingRun (q.step elapsed).1 next := by
  rw [← ht]
  refine run.step fun j hj _ => ?_
  rw [hd, Option.some.injEq] at hj
  exact hj ▸ hs

namespace Stacks

variable {p q : Processor τ} {calls : List Nat} {elapsed : τ} {rom : List UInt8}

theorem woken (h : p.Stacks calls) : (p.woken elapsed).Stacks calls :=
  h.congr rfl rfl h.pc (fun _ _ => rfl)

theorem step (h : p.Stacks calls) (hs : p.Spares elapsed) :
    (p.step elapsed).1.Stacks (p.track elapsed calls) := by
  have hsteps := p.steps_step elapsed
  rw [Spares] at hs
  rw [track]
  generalize (p.step elapsed).1 = q at hsteps
  generalize (p.step elapsed).2 = fault at hsteps hs
  cases hsteps with
  | halted => exact h
  | uncounted => exact h.woken
  | unknown => exact h.woken
  | failed _ he => exact h.woken.execute_fault he
  | @done i q hr he =>
    rw [hr.decoded]
    exact (h.woken.execute_done he (hs i hr.decoded rfl)).counted _

theorem reset (h : p.loadRom rom = .ok q) (seed : Option Int) (e : Entropy) :
    (q.reset seed e).1.Stacks [] where
  depth := rfl
  bound := Nat.zero_le _
  sp := rfl
  words _ hi := absurd hi (Nat.not_lt_zero _)
  zeros a ha ha' := by
    obtain ⟨hsize, rfl⟩ := loadRom_eq_ok.mp h
    have hmax : Memory.maxRom = 0xCA0 := rfl
    have hstart : Memory.programStart = 0x200 := rfl
    simp only [List.length_nil] at ha
    exact Memory.readByte_program hsize (by omega) (by omega) (by omega)
  pc := show Memory.programStart < 0x10000 by decide

theorem run (h : p.Stacks []) (hrun : p.SparingRun q calls) : q.Stacks calls := by
  induction hrun with
  | refl => exact h
  | step _ hs ih => exact ih.step hs

end Stacks

/-- On every run that spares its window, the stack in memory is the list of the return addresses of
the calls that have not returned, and nothing lies above them. -/
theorem stack_refines {p q r : Processor τ} {rom : List UInt8} {seed : Option Int}
    {e : Entropy} {calls : List Nat} (hload : p.loadRom rom = .ok q)
    (hrun : (q.reset seed e).1.SparingRun r calls) :
    r.stack = calls ∧ calls.length ≤ 48 ∧
    (∀ a : Nat, 0xEA0 + 2 * calls.length ≤ a → a ≤ 0xEFF → r.memory.readByte a = 0) ∧
    (∀ elapsed i, r.Reaches elapsed i → i.mnemonic = .rts → ∀ hne : calls ≠ [],
      (r.step elapsed).2 = none ∧ (r.step elapsed).1.pc = (calls.getLast hne + 2) % 0x10000) ∧
    (∀ elapsed i, r.Reaches elapsed i → i.mnemonic = .call →
      (r.step elapsed).2 = if calls.length = 48 then some (.stackOverflow r.pc) else none) := by
  have h : r.Stacks calls := (Stacks.reset hload seed e).run hrun
  refine ⟨h.stack_eq, h.bound, h.zeros, ?_, ?_⟩
  · intro elapsed i hr hi hne
    have hwoken : (r.woken elapsed).Stacks calls := h.woken
    have hpc := hwoken.ret_pc hne
    rw [step_of_reaches hr, hi]
    exact ⟨rfl, hpc⟩
  · intro elapsed i hr hi
    rw [step_of_reaches hr, hi, execute, h.woken.call_eq]
    split_ifs <;> rfl

def storingImage : List UInt8 := [0xF0, 0x55, 0x22, 0x06, 0x00, 0xEE, 0x00, 0xEE]

theorem stack_refines_storing :
    ∃ q r : Processor Float, (new (some 0) false default).1.loadRom storingImage = .ok q ∧
      (q.reset none default).1.SparingRun r [0x202] ∧ r.stack = [0x202] ∧
      (r.step 0).2 = none ∧ (r.step 0).1.pc = 0x204 := by
  let p : Processor Float := { (new (some 0) false default).1 with
    memory := Memory.fresh.store Memory.programStart storingImage, rom := storingImage }
  have hload : (new (some 0) false default).1.loadRom storingImage = .ok p :=
    loadRom_eq_ok.mpr ⟨by decide, rfl⟩
  let start := (p.reset none default).1
  let stored := (start.step 0).1
  let called := (stored.step 0).1
  obtain ⟨hdecode, hspares, htrack⟩ : Instruction.decode start.fetch = some ⟨.stor, [0]⟩ ∧
      (∀ a ∈ start.stored start.fetch .stor, ¬inStackWindow a) ∧
      start.track 0 [] = [] := by decide +kernel
  have hstor : start.SparingRun stored [] := SparingRun.refl.next hdecode hspares htrack
  obtain ⟨hdecode, htrack⟩ : Instruction.decode stored.fetch = some ⟨.call, [0x206]⟩ ∧
      stored.track 0 [] = [0x202] := by decide +kernel
  have hcall : start.SparingRun called [0x202] :=
    hstor.next hdecode (fun _ ha => nomatch ha) htrack
  obtain ⟨hunfinished, hcounted, hdecode⟩ : called.finished = false ∧
      (called.timer.update 0).2 = none ∧
      Instruction.decode called.fetch = some ⟨.rts, []⟩ := by decide +kernel
  obtain ⟨hstack, -, -, hreturn, -⟩ := stack_refines hload hcall
  obtain ⟨hnone, hpc⟩ := hreturn 0 _ ⟨hunfinished, hcounted, hdecode⟩ rfl (by decide)
  exact ⟨_, _, hload, hcall, hstack, hnone, hpc⟩

end Chip8.Processor
