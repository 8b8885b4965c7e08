import Chip8.Proofs.ReachableStates

namespace Chip8

namespace Bitmap

theorem length_rows {width height : Nat} (b : Bitmap width height) : b.rows.length = height := by
  rw [rows, List.length_map, Vector.length_toList]

theorem length_of_mem_rows {width height : Nat} {b : Bitmap width height} {row : List Bool}
    (h : row ∈ b.rows) : row.length = width := by
  obtain ⟨pixels, -, rfl⟩ := List.mem_map.mp h
  exact pixels.length_toList

end Bitmap

namespace Processor

open Time

variable {τ : Type} {p : Processor τ}

theorem execute_index_le (p : Processor τ) (word : Nat) (m : Mnemonic)
    (h : 0 ≤ p.index ∧ p.index ≤ 0xFFFF) :
    0 ≤ (p.execute word m).1.index ∧ (p.execute word m).1.index ≤ 0xFFFF := by
  have hafter (last : Fin 16) : 0 ≤ p.indexAfter last ∧ p.indexAfter last ≤ 0xFFFF := by
    simp only [indexAfter]
    split_ifs <;> omega
  by_cases hm : m ∈ [.loadi, .addi, .ldspr, .stor, .read]
  · simp only [List.mem_cons, List.not_mem_nil, or_false] at hm
    rcases hm with rfl | rfl | rfl | rfl | rfl
    · simp only [execute, advance, goTo, Opcode.address]
      omega
    · simp only [execute, advance, goTo]
      omega
    · simp only [execute, advance, goTo, Memory.fontAddress, Memory.fontStart]
      omega
    · exact hafter _
    · exact hafter _
  · rw [execute_index_of_notMem p word hm]
    exact h

structure InRange (p : Processor τ) : Prop where
  registers : Holds (fun n => 0 ≤ n ∧ n ≤ 255) p.registers
  timer : 0 ≤ p.timer.value ∧ p.timer.value ≤ 255
  index : 0 ≤ p.index ∧ p.index ≤ 0xFFFF
  pc : p.pc < 0x10000
  depth : p.depth ≤ 48
  sp : p.sp = 0xEA0 + 2 * (p.depth - 1)

namespace InRange

theorem of_ranged (hranged : Ranged (fun n => 0 ≤ n ∧ n ≤ 255) p)
    (hindex : 0 ≤ p.index ∧ p.index ≤ 0xFFFF) (hpc : p.pc < 0x10000) (hlevelled : p.Levelled) :
    p.InRange :=
  ⟨hranged.registers, hranged.timer, hindex, hpc, hlevelled.bound, hlevelled.sp⟩

theorem ranged (h : p.InRange) : Ranged (fun n => 0 ≤ n ∧ n ≤ 255) p := ⟨h.registers, h.timer⟩

theorem levelled (h : p.InRange) : p.Levelled := ⟨h.depth, h.sp⟩

theorem execute (h : p.InRange) (word : Nat) (m : Mnemonic) : (p.execute word m).1.InRange :=
  of_ranged (h.ranged.execute .bytes word m) (p.execute_index_le word m h.index)
    (p.execute_pc_lt word m h.pc) (h.levelled.execute word m)

variable [Measure τ]

theorem powerOn (rom : List UInt8) (seed : Option Int) (advancing : Bool) (start : Int) :
    (powerOn rom seed advancing start : Processor τ).InRange :=
  of_ranged (.powerOn .bytes rom seed advancing start)
    (show (0 : Int) ≤ 0 ∧ (0 : Int) ≤ 0xFFFF by decide)
    (show Memory.programStart < 0x10000 by decide) ⟨Nat.zero_le 48, rfl⟩

theorem woken {elapsed : τ} (h : p.InRange) (hforward : p.timer.Forward elapsed) :
    (p.woken elapsed).InRange := by
  have hupdates := p.timer.updates_update elapsed
  obtain ⟨hlow, hhigh⟩ := h.timer
  exact { h with timer := ⟨hupdates.nonneg hlow, (hupdates.le hlow hforward).trans hhigh⟩ }

theorem stable (seed : Option Int) (advancing : Bool) :
    Stable DelayTimer.Forward seed advancing (@InRange τ) where
  new _ := powerOn _ _ _ _
  loadRom _ _ h := { h with }
  reset _ _ _ := powerOn _ _ _ _
  step {p elapsed} h hforward := by
    apply step_keeps InRange h (h.woken hforward)
    · exact fun q word m hq => hq.execute word m
    · exact fun q _ hq => { hq with }
  setIndex value h :=
    { h with index := show 0 ≤ value % 0x10000 ∧ value % 0x10000 ≤ 0xFFFF by omega }
  setRegister x value h := { h with registers := h.registers.set (by omega) x }
  setMemory _ h := { h with }

end InRange

variable [Measure τ]

theorem reachable_inRange {seed : Option Int} {advancing : Bool}
    (h : Reachable DelayTimer.Forward seed advancing p) :
    p.registers.toList.length = 16 ∧ (∀ x, 0 ≤ p.registers.get x ∧ p.registers.get x ≤ 255) ∧
    (0 ≤ p.index ∧ p.index ≤ 65535) ∧ p.pc ≤ 65535 ∧
    p.depth ≤ 48 ∧ (p.sp : Int) = 0xEA0 + 2 * max ((p.depth : Int) - 1) 0 ∧
    (0 ≤ p.timer.value ∧ p.timer.value ≤ 255) ∧
    p.memory.cells.toList.length = 4096 ∧
    p.screen.rows.length = 32 ∧ ∀ row ∈ p.screen.rows, row.length = 64 := by
  have hp : p.InRange := h.holds (InRange.stable seed advancing)
  have hpc := hp.pc
  have hsp := hp.sp
  refine ⟨p.registers.length_toList, hp.registers, hp.index, by omega, hp.depth, by omega, hp.timer,
    p.memory.cells.length_toList, p.screen.length_rows, ?_⟩
  intro row hrow
  exact Bitmap.length_of_mem_rows hrow

def countingImage : List UInt8 := [0xF0, 0x15, 0xF1, 0x07]

theorem reachable_inRange_counting : ∃ p : Processor Float,
    Reachable DelayTimer.Forward (some 7) true p ∧ p.registers.get 0 = 44 ∧ p.registers.get 1 = 43 ∧
      0 ≤ p.timer.value ∧ p.timer.value ≤ 255 := by
  let loaded : Processor Float := { (new (some 7) true default).1 with
    memory := Memory.fresh.store Memory.programStart countingImage, rom := countingImage }
  let restarted := (loaded.reset none default).1
  let m : Machine (VirtualClock Float) Float :=
    { settings := {}, processor := restarted, window := none, frame := none, meter := none,
      stopping := false, failure := none, lastStep := none, breakpoints := [], observers := [],
      seen := [], clock := .start 0 0, entropy := default, effects := #[] }
  let s : Debugger.Session (VirtualClock Float) Float :=
    { seed := none, machine := some m, clock := .start 0 0, entropy := default, program := none }
  let assigned : Processor Float := restarted.setRegister 0 44
  let started := (assigned.step 0).1
  let counted := (started.step 20).1
  have hreset : Reachable DelayTimer.Forward (some 7) true restarted :=
    .reset (.loadRom (.new default) (loadRom_eq_ok.mpr ⟨by decide, rfl⟩)) none default
  have hassigned : Reachable DelayTimer.Forward (some 7) true assigned := by
    have hanswered : (s.set m "reg v0 300".toList).1.machine =
        some { m with processor := assigned } := by rfl
    exact .set (show Reachable DelayTimer.Forward (some 7) true m.processor from hreset) rfl _ hanswered
  have hstarted : Reachable DelayTimer.Forward (some 7) true started :=
    hassigned.step fun hrunning => absurd rfl hrunning
  obtain ⟨hticks, hzero, hone⟩ : (Measure.ticks (started.timer.spare + 20)).toOption = some 1 ∧
      counted.registers.get 0 = 44 ∧ counted.registers.get 1 = 43 := by decide +kernel
  have hcounted : Reachable DelayTimer.Forward (some 7) true counted := by
    refine hstarted.step fun _ n hn => ?_
    rw [hn, Except.toOption, Option.some.injEq] at hticks
    omega
  obtain ⟨-, -, -, -, -, -, htimer, -⟩ := reachable_inRange hcounted
  exact ⟨counted, hcounted, hzero, hone, htimer⟩

end Processor

end Chip8
