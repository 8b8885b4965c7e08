import Chip8.Debugger.Session
import Chip8.Proofs.LoadedProgram
import Chip8.Proofs.RegisterRange
import Chip8.Proofs.StackDepth
import Chip8.Proofs.TimerUpdates

namespace Chip8

open Time

namespace Debugger.Session

variable {κ τ : Type} {s : Session κ τ} {m n : Machine κ τ}

theorem eq_assign_of_set (held : s.machine = some m) {argument : Text}
    (answered : (s.set m argument).1.machine = some n) :
    n = m ∨ ∃ value target, n = assign m value target := by
  have hkept (h : s.machine = some n) : n = m := by
    rw [held, Option.some.injEq] at h
    exact h.symm
  simp only [set] at answered
  split at answered
  · split at answered
    · exact .inl (hkept answered)
    · exact .inl (hkept answered)
    · exact .inr ⟨_, _, (Option.some.inj answered).symm⟩
  · exact .inl (hkept answered)

end Debugger.Session

namespace Processor

variable {τ : Type} {p : Processor τ} {P : Int → Prop}

structure Ranged (P : Int → Prop) (p : Processor τ) : Prop where
  registers : Holds P p.registers
  timer : P p.timer.value

theorem Ranged.execute (h : Ranged P p) (hP : BitRange P) (word : Nat) (m : Mnemonic) :
    Ranged P (p.execute word m).1 where
  registers := execute_holds hP h.registers h.timer word m
  timer := by
    by_cases hm : m = .loadd
    · subst hm
      show P (p.registers.get (Opcode.x word) % 256)
      exact hP.byte (by omega) (by omega)
    · rw [execute_timer_of_ne p word hm]
      exact h.timer

variable [Measure τ] {admits : DelayTimer τ → τ → Prop} {seed : Option Int} {advancing : Bool}

/-- The states that images loaded, resets, steps with admitted times, failing ones among them, and
assignments of the debugger lead to. -/
inductive Reachable (admits : DelayTimer τ → τ → Prop) (seed : Option Int) (advancing : Bool) :
    Processor τ → Prop
  | new (e : Entropy) : Reachable admits seed advancing (Processor.new seed advancing e).1
  | loadRom {p q : Processor τ} {rom : List UInt8} (reached : Reachable admits seed advancing p)
    (loaded : p.loadRom rom = .ok q) : Reachable admits seed advancing q
  | reset {p : Processor τ} (reached : Reachable admits seed advancing p) (start : Option Int)
    (e : Entropy) : Reachable admits seed advancing (p.reset start e).1
  | step {p : Processor τ} {elapsed : τ} (reached : Reachable admits seed advancing p)
    (admitted : admits p.timer elapsed) : Reachable admits seed advancing (p.step elapsed).1
  | set {κ : Type} {s : Debugger.Session κ τ} {m n : Machine κ τ}
    (reached : Reachable admits seed advancing m.processor) (held : s.machine = some m)
    (argument : Text) (answered : (s.set m argument).1.machine = some n) :
    Reachable admits seed advancing n.processor

theorem Reachable.powerOn {rom : List UInt8} (h : rom.length ≤ Memory.maxRom) (start : Int) :
    Reachable admits seed advancing (powerOn rom seed advancing start : Processor τ) :=
  .reset (.loadRom (.new default) (loadRom_eq_ok.mpr ⟨h, rfl⟩)) (some start) default

structure Stable (admits : DelayTimer τ → τ → Prop) (seed : Option Int) (advancing : Bool)
    (holds : Processor τ → Prop) : Prop where
  new (e : Entropy) : holds (Processor.new seed advancing e).1
  loadRom {p : Processor τ} (memory : Memory) (rom : List UInt8) : holds p →
    holds { p with memory, rom }
  reset {p : Processor τ} (start : Option Int) (e : Entropy) : holds p → holds (p.reset start e).1
  step {p : Processor τ} {elapsed : τ} : holds p → admits p.timer elapsed → holds (p.step elapsed).1
  setIndex {p : Processor τ} (value : Int) : holds p → holds { p with index := value % 0x10000 }
  setRegister {p : Processor τ} (x : Fin 16) (value : Int) : holds p →
    holds (p.setRegister x (value % 256))
  setMemory {p : Processor τ} (memory : Memory) : holds p → holds { p with memory }

theorem Reachable.holds {holds : Processor τ → Prop} (h : Reachable admits seed advancing p)
    (hs : Stable admits seed advancing holds) : holds p := by
  induction h with
  | new e => exact hs.new e
  | loadRom _ loaded ih =>
    obtain ⟨-, rfl⟩ := loadRom_eq_ok.mp loaded
    exact hs.loadRom _ _ ih
  | reset _ start e ih => exact hs.reset start e ih
  | step _ admitted ih => exact hs.step ih admitted
  | set _ held argument answered ih =>
    rcases Debugger.Session.eq_assign_of_set held answered with rfl | ⟨value, target, rfl⟩
    · exact ih
    · cases target with
      | index => exact hs.setIndex value ih
      | register x => exact hs.setRegister x value ih
      | cell a => exact hs.setMemory _ ih

theorem stable_options : Stable admits seed advancing
    (fun p => p.seed = seed ∧ p.advancing = advancing) where
  new _ := ⟨rfl, rfl⟩
  loadRom _ _ h := h
  reset _ _ h := h
  step {p elapsed} h _ := by
    apply step_keeps (fun p => p.seed = seed ∧ p.advancing = advancing) h h
    · intro q word m hq
      obtain ⟨hseed, hadvancing⟩ := q.execute_options word m
      rwa [hseed, hadvancing]
    · exact fun _ _ hq => hq
  setIndex _ h := h
  setRegister _ _ h := h
  setMemory _ h := h

namespace Ranged

theorem powerOn (hP : BitRange P) (rom : List UInt8) (seed : Option Int) (advancing : Bool) (start : Int) :
    Ranged P (powerOn rom seed advancing start : Processor τ) where
  registers x := by
    have hx : (Vector.replicate 16 (0 : Int)).get x = 0 := Vector.getElem_replicate x.isLt
    show P ((Vector.replicate 16 0).get x)
    rw [hx]
    exact hP.byte (by decide) (by decide)
  timer := hP.byte (Int.le_refl 0) (show (0 : Int) ≤ 255 by decide)

theorem stable (hP : BitRange P)
    (hupdate : ∀ t elapsed, admits t elapsed → P t.value → P (t.update elapsed).1.value) :
    Stable admits seed advancing (Ranged P) where
  new _ := powerOn hP _ _ _ _
  loadRom _ _ h := ⟨h.registers, h.timer⟩
  reset _ _ _ := powerOn hP _ _ _ _
  step {p elapsed} h hadmits := by
    apply step_keeps (Ranged P) h
    · exact ⟨h.registers, hupdate _ _ hadmits h.timer⟩
    · exact fun q word m hq => hq.execute hP word m
    · exact fun _ _ hq => ⟨hq.registers, hq.timer⟩
  setIndex _ h := ⟨h.registers, h.timer⟩
  setRegister x _ h := ⟨h.registers.set (hP.byte (by omega) (by omega)) x, h.timer⟩
  setMemory _ h := ⟨h.registers, h.timer⟩

end Ranged

end Processor

end Chip8
