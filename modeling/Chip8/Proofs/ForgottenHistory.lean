import Chip8.Proofs.MachineHistory

namespace Chip8

open Time

namespace Processor

variable {τ : Type} [Measure τ] {seed : Option Int} {advancing : Bool} {p : Processor τ}

def outcomes (p : Processor τ) : List τ → List (Processor τ × Option StepFault)
  | [] => []
  | elapsed :: rest => p.step elapsed :: (p.step elapsed).1.outcomes rest

def launch (p : Processor τ) (rom : List UInt8) (start : Option Int) (e : Entropy) :
    Except RomTooLarge (Processor τ) :=
  (p.loadRom rom).map fun q => (q.reset start e).1

def reseeded (p : Processor τ) (start : Int) : Processor τ := { p with random := .ofSeed start }

theorem launch_eq_ok (p : Processor τ) {rom : List UInt8} (h : rom.length ≤ Memory.maxRom)
    (start : Option Int) (e : Entropy) :
    p.launch rom start e = .ok (powerOn rom p.seed p.advancing (e.pick (start.or p.seed)).1) := by
  rw [launch, loadRom_eq_ok.mpr ⟨h, rfl⟩]
  rfl

theorem launch_eq_error (p : Processor τ) {rom : List UInt8} (h : Memory.maxRom < rom.length)
    (start : Option Int) (e : Entropy) :
    p.launch rom start e = .error ⟨rom.length, Memory.maxRom⟩ := by
  rw [launch, loadRom, Memory.loadRom, if_pos h]
  rfl

theorem Reachable.launch {admits : DelayTimer τ → τ → Prop} (h : Reachable admits seed advancing p)
    (rom : List UInt8) (start : Option Int) (c d e : Entropy) :
    p.launch rom start e = ((Processor.new seed advancing c).1.launch rom start d).map
      (·.reseeded (e.pick (start.or seed)).1) := by
  obtain ⟨hseed, hadvancing⟩ := h.holds stable_options
  by_cases hsize : rom.length ≤ Memory.maxRom
  · rw [launch_eq_ok p hsize, launch_eq_ok _ hsize, hseed, hadvancing]
    rfl
  · rw [launch_eq_error p (Nat.not_le.mp hsize), launch_eq_error _ (Nat.not_le.mp hsize)]
    rfl

end Processor

theorem Entropy.fst_pick_congr {d e : Entropy} {seed : Option Int}
    (h : seed = none → e.head = d.head) : (e.pick seed).1 = (d.pick seed).1 := by
  cases seed with
  | none => exact h rfl
  | some seed => rfl

namespace Machine

variable {κ τ : Type} [Measure τ]

structure Launched (rom : List UInt8) (seed : Option Int) (advancing : Bool) (e : Entropy)
    (m : Machine κ τ) : Prop where
  processor : m.processor = .powerOn rom seed advancing (e.pick seed).1
  entropy : m.entropy = (e.pick seed).2
  stopping : m.stopping = false
  failure : m.failure = none
  lastStep : m.lastStep = none

theorem loadRom_eq_error (m : Machine κ τ) {rom : List UInt8} (h : Memory.maxRom < rom.length) :
    m.loadRom rom = (m, .error (.load (.tooLarge ⟨rom.length, Memory.maxRom⟩))) := by
  have hload : m.processor.loadRom rom = .error ⟨rom.length, Memory.maxRom⟩ := by
    rw [Processor.loadRom, Memory.loadRom, if_pos h]
    rfl
  rw [loadRom, hload]

variable {settings : Settings} {m f : Machine κ τ}

theorem Configured.loadRom (h : Configured settings m) {rom : List UInt8}
    (hsize : rom.length ≤ Memory.maxRom) : (m.loadRom rom).2 = .ok () ∧
      Launched rom settings.seed settings.advancing m.entropy (m.loadRom rom).1 := by
  obtain ⟨hseed, hadvancing⟩ := h.processor.holds Processor.stable_options
  have hpick : m.settings.seed.or m.processor.seed = settings.seed := by
    rw [hseed, h.configured, Option.or_self]
  rw [Machine.loadRom, Processor.loadRom_eq_ok.mpr ⟨hsize, rfl⟩]
  refine ⟨rfl, ?_, ?_, rfl, rfl, rfl⟩
  · show Processor.powerOn rom m.processor.seed m.processor.advancing
      (m.entropy.pick (m.settings.seed.or m.processor.seed)).1 = _
    rw [hpick, hseed, hadvancing]
  · show (m.entropy.pick (m.settings.seed.or m.processor.seed)).2 = _
    rw [hpick]

variable [Clock κ τ]

/-- After a load and a reset nothing tells what a processor did before, neither its state nor
anything that later steps do, if a seed is given or the same one drawn. Another draw shows in the
generator alone. The same holds of a machine that is given a program, whose memory keeps no byte of an
earlier, longer one. -/
theorem loadRom_forgets {clock : κ} {c d e : Entropy} {seed : Option Int} {advancing : Bool}
    {p : Processor τ} (hp : p.Reachable (fun _ _ => True) seed advancing) (hm : m.Reachable settings)
    (made : new settings clock c = .ok f) (rom : List UInt8) (start : Option Int) (times : List τ) :
    ((start.or seed = none → e.head = d.head) →
      p.launch rom start e = (Processor.new seed advancing c).1.launch rom start d ∧
      (p.launch rom start e).map (·.outcomes times) =
        ((Processor.new seed advancing c).1.launch rom start d).map (·.outcomes times)) ∧
    p.launch rom start e = ((Processor.new seed advancing c).1.launch rom start d).map
      (·.reseeded (e.pick (start.or seed)).1) ∧
    (m.loadRom rom).2 = (f.loadRom rom).2 ∧
    (rom.length ≤ 3232 →
      (∃ q, p.launch rom start e = .ok q) ∧
      (m.loadRom rom).2 = .ok () ∧
      ((settings.seed = none → m.entropy.head = f.entropy.head) →
        (m.loadRom rom).1.processor = (f.loadRom rom).1.processor ∧
        (m.loadRom rom).1.processor.outcomes times = (f.loadRom rom).1.processor.outcomes times) ∧
      (m.loadRom rom).1.processor =
        (f.loadRom rom).1.processor.reseeded (m.entropy.pick settings.seed).1 ∧
      (m.loadRom rom).1.stopping = (f.loadRom rom).1.stopping ∧
      (m.loadRom rom).1.failure = (f.loadRom rom).1.failure ∧
      (m.loadRom rom).1.lastStep = (f.loadRom rom).1.lastStep ∧
      ∀ a, 0x200 + rom.length ≤ a → a < 0x1000 →
        (m.loadRom rom).1.processor.memory.readByte (a : Nat) = 0) := by
  have hlaunch := hp.launch rom start c d e
  have hf : f.Reachable settings := .new made
  refine ⟨fun hdrawn => ?_, hlaunch, ?_, ?_⟩
  · -- the fresh processor with the seed drawn here is the one with the seed drawn there
    have hnew : (Processor.new seed advancing c).1.Reachable (fun (_ : DelayTimer τ) _ => True)
        seed advancing := .new c
    rw [Entropy.fst_pick_congr hdrawn, ← hnew.launch rom start c d d] at hlaunch
    exact ⟨hlaunch, by rw [hlaunch]⟩
  · by_cases hsize : rom.length ≤ Memory.maxRom
    · rw [(hm.configured.loadRom hsize).1, (hf.configured.loadRom hsize).1]
    · rw [loadRom_eq_error m (Nat.not_le.mp hsize), loadRom_eq_error f (Nat.not_le.mp hsize)]
  · intro hsize
    obtain ⟨hresult, hlaunched⟩ := hm.configured.loadRom hsize
    obtain ⟨-, hfresh⟩ := hf.configured.loadRom hsize
    refine ⟨⟨_, p.launch_eq_ok hsize start e⟩, hresult, fun hdrawn => ?_, ?_,
      hlaunched.stopping.trans hfresh.stopping.symm, hlaunched.failure.trans hfresh.failure.symm,
      hlaunched.lastStep.trans hfresh.lastStep.symm, ?_⟩
    · have hprocessor : (m.loadRom rom).1.processor = (f.loadRom rom).1.processor := by
        rw [hlaunched.processor, hfresh.processor, Entropy.fst_pick_congr hdrawn]
      exact ⟨hprocessor, by rw [hprocessor]⟩
    · rw [hlaunched.processor, hfresh.processor]
      rfl
    · intro a hrom ha
      rw [hlaunched.processor]
      exact Memory.readByte_program hsize ha (by omega) (.inr hrom)

theorem loadRom_forgets_longer : ∃ m f : Machine (VirtualClock Float) Float,
    m.processor.Reachable (fun _ _ => True) (some 7) true ∧
    m.Reachable { windowed := false, seed := some 7 } ∧
    new { windowed := false, seed := some 7 } (.start 0 0) default = .ok f ∧
    m.processor.executed = 1 ∧ m.processor.memory.readByte 0x202 = 0x12 ∧
    m.processor.launch [0x00, 0xE0] (some 3) default =
      (Processor.new (some 7) true default).1.launch [0x00, 0xE0] (some 3) default ∧
    (m.loadRom [0x00, 0xE0]).1.processor = (f.loadRom [0x00, 0xE0]).1.processor ∧
    (m.loadRom [0x00, 0xE0]).1.processor.memory.readByte 0x202 = 0 := by
  let settings : Settings := { windowed := false, seed := some 7 }
  let f : Machine (VirtualClock Float) Float := (new settings (.start 0 0) default).toOption.get rfl
  let loaded := (f.loadRom [0x60, 0x05, 0x12, 0x02]).1
  let m := loaded.step.1
  have made : new settings (.start 0 0) default = .ok f := rfl
  have hloaded : loaded.Reachable settings := .operate (.new made)
    (show f.operate (.loadRom [0x60, 0x05, 0x12, 0x02]) = some loaded from rfl)
  have hm : m.Reachable settings := .operate hloaded
    (show loaded.operate .step = some m from rfl)
  have hp := hm.configured.processor
  obtain ⟨hexecuted, hbyte⟩ : m.processor.executed = 1 ∧
      m.processor.memory.readByte 0x202 = 0x12 := by decide +kernel
  obtain ⟨hlaunch, -, -, hrest⟩ :=
    loadRom_forgets (d := default) (e := default) hp hm made [0x00, 0xE0] (some 3) []
  obtain ⟨-, -, hprocessor, -, -, -, -, hzero⟩ := hrest (by decide)
  have hforgotten := hzero 0x202 (by decide) (by decide)
  exact ⟨m, f, hp, hm, made, hexecuted, hbyte, (hlaunch nofun).1, (hprocessor nofun).1, hforgotten⟩

end Machine

end Chip8
