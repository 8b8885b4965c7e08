import Chip8.Proofs.ForgottenHistory

namespace Chip8.Processor

open Time

variable {τ : Type} {p q : Processor τ}

structure Agrees (p q : Processor τ) : Prop where
  pc : p.pc = q.pc
  registers : p.registers = q.registers
  index : p.index = q.index
  sp : p.sp = q.sp
  depth : p.depth = q.depth
  memory : p.memory = q.memory
  screen : p.screen = q.screen
  finished : p.finished = q.finished
  redrawn : p.redrawn = q.redrawn
  executed : p.executed = q.executed
  advancing : p.advancing = q.advancing

def withSourcesOf (p r : Processor τ) : Processor τ :=
  { p with timer := r.timer, random := r.random, rom := r.rom, seed := r.seed }

theorem agrees_withSourcesOf (p r : Processor τ) : p.Agrees (p.withSourcesOf r) :=
  ⟨rfl, rfl, rfl, rfl, rfl, rfl, rfl, rfl, rfl, rfl, rfl⟩

theorem Agrees.eq_withSourcesOf (h : p.Agrees q) : q = p.withSourcesOf q := by
  cases p
  cases q
  obtain ⟨rfl, rfl, rfl, rfl, rfl, rfl, rfl, rfl, rfl, rfl, rfl⟩ := h
  rfl

theorem skipIf_withSourcesOf (p r : Processor τ) (condition : Bool) :
    (p.withSourcesOf r).skipIf condition = (p.skipIf condition).withSourcesOf r := by
  unfold skipIf
  split_ifs <;> rfl

theorem ret_withSourcesOf (p r : Processor τ) :
    (p.withSourcesOf r).ret = p.ret.withSourcesOf r := by
  have hdepth : (p.withSourcesOf r).depth = p.depth := rfl
  simp only [ret, hdepth]
  split_ifs <;> rfl

theorem call_withSourcesOf (p r : Processor τ) (address : Nat) :
    (p.withSourcesOf r).call address =
      ((p.call address).1.withSourcesOf r, (p.call address).2) := by
  have hslot : (p.withSourcesOf r).freeSlot = p.freeSlot := rfl
  simp only [call, hslot]
  split_ifs <;> rfl

theorem drawSprite_withSourcesOf (p r : Processor τ) (x y : Fin 16) (height : Nat) :
    (p.withSourcesOf r).drawSprite x y height =
      ((p.drawSprite x y height).1.withSourcesOf r, (p.drawSprite x y height).2) := by
  have hmemory : (p.withSourcesOf r).memory = p.memory := rfl
  have hindex : (p.withSourcesOf r).index = p.index := rfl
  have hscreen : (p.withSourcesOf r).screen = p.screen := rfl
  have hregisters : (p.withSourcesOf r).registers = p.registers := rfl
  simp only [drawSprite, hmemory, hindex, hscreen, hregisters]
  split <;> rfl

theorem execute_withSourcesOf (p r : Processor τ) (word : Nat) {m : Mnemonic} (hmoved : m ≠ .moved)
    (hrand : m ≠ .rand) : ∃ s, (p.withSourcesOf r).execute word m =
      ((p.execute word m).1.withSourcesOf s, (p.execute word m).2) := by
  cases m with
  | moved => exact absurd rfl hmoved
  | rand => exact absurd rfl hrand
  | ske | skne | skre | skrne =>
    refine ⟨r, ?_⟩
    simp only [execute]
    rw [skipIf_withSourcesOf]
    rfl
  | rts =>
    refine ⟨r, ?_⟩
    simp only [execute]
    rw [ret_withSourcesOf]
  | call => exact ⟨r, call_withSourcesOf p r _⟩
  | draw => exact ⟨r, drawSprite_withSourcesOf p r _ _ _⟩
  | loadd => exact ⟨{ r with timer := r.timer.set (p.registers.get (Opcode.x word)) }, rfl⟩
  | _ => exact ⟨r, rfl⟩

theorem Agrees.execute (h : p.Agrees q) (word : Nat) {m : Mnemonic} (hmoved : m ≠ .moved)
    (hrand : m ≠ .rand) :
    (p.execute word m).1.Agrees (q.execute word m).1 ∧
      (p.execute word m).2 = (q.execute word m).2 := by
  obtain ⟨s, hs⟩ := p.execute_withSourcesOf q word hmoved hrand
  rw [h.eq_withSourcesOf, hs]
  exact ⟨agrees_withSourcesOf _ s, rfl⟩

theorem Agrees.fetch (h : p.Agrees q) : p.fetch = q.fetch := by
  rw [Processor.fetch, Processor.fetch, h.memory, h.pc]

def Consults (p : Processor τ) : Prop :=
  p.finished = false ∧ ∃ i, Instruction.decode p.fetch = some i ∧
    (i.mnemonic = .moved ∨ i.mnemonic = .rand)

theorem Agrees.consults_iff (h : p.Agrees q) : p.Consults ↔ q.Consults := by
  rw [Consults, Consults, h.finished, h.fetch]

variable [Measure τ]

def Takes (p : Processor τ) (elapsed : τ) : Prop :=
  p.finished = false → (p.timer.update elapsed).2 = none

theorem Agrees.woken (h : p.Agrees q) (t u : τ) : (p.woken t).Agrees (q.woken u) :=
  { h with redrawn := rfl }

theorem Agrees.step (h : p.Agrees q) {t u : τ} (ht : p.Takes t) (hu : q.Takes u)
    (hconsults : ¬p.Consults) :
    (p.step t).1.Agrees (q.step u).1 ∧ (p.step t).2 = (q.step u).2 := by
  have hfinished := h.finished
  have hfetch := h.fetch
  have hwoken := h.woken t u
  cases hp : p.finished with
  | true =>
    rw [hp] at hfinished
    rw [step_of_finished hp, step_of_finished hfinished.symm]
    exact ⟨h, rfl⟩
  | false =>
    rw [hp] at hfinished
    have hcounted := ht hp
    have hcounted' := hu hfinished.symm
    cases hd : Instruction.decode p.fetch with
    | none =>
      have hd' : Instruction.decode q.fetch = none := hfetch ▸ hd
      rw [step_of_unfinished hp, step_of_unfinished hfinished.symm, hcounted, hcounted', hd, hd',
        hfetch, h.pc]
      exact ⟨hwoken, rfl⟩
    | some i =>
      have hd' : Instruction.decode q.fetch = some i := hfetch ▸ hd
      have hmoved : i.mnemonic ≠ .moved := fun hm => hconsults ⟨hp, i, hd, .inl hm⟩
      have hrand : i.mnemonic ≠ .rand := fun hm => hconsults ⟨hp, i, hd, .inr hm⟩
      obtain ⟨hagrees, hfault⟩ := hwoken.execute q.fetch hmoved hrand
      rw [step_of_reaches ⟨hp, hcounted, hd⟩, step_of_reaches ⟨hfinished.symm, hcounted', hd'⟩,
        hfetch]
      generalize (p.woken t).execute q.fetch i.mnemonic = e at hagrees hfault
      generalize (q.woken u).execute q.fetch i.mnemonic = e' at hagrees hfault
      obtain ⟨p', fault⟩ := e
      obtain ⟨q', fault'⟩ := e'
      obtain rfl : fault = fault' := hfault
      cases fault with
      | some fault => exact ⟨hagrees, rfl⟩
      | none => exact ⟨{ hagrees with executed := congrArg (· + 1) hagrees.executed }, rfl⟩

def after (p : Processor τ) (times : Nat → τ) : Nat → Processor τ
  | 0 => p
  | n + 1 => ((p.after times n).step (times n)).1

theorem Agrees.after (h : p.Agrees q) {times times' : Nat → τ} {n : Nat}
    (ht : ∀ k < n, (p.after times k).Takes (times k))
    (ht' : ∀ k < n, (q.after times' k).Takes (times' k))
    (hconsults : ∀ k < n, ¬(p.after times k).Consults) :
    (p.after times n).Agrees (q.after times' n) := by
  induction n with
  | zero => exact h
  | succ n ih =>
    have hn : (p.after times n).Agrees (q.after times' n) := by
      apply ih
      · exact fun k hk => ht k (Nat.lt_succ_of_lt hk)
      · exact fun k hk => ht' k (Nat.lt_succ_of_lt hk)
      · exact fun k hk => hconsults k (Nat.lt_succ_of_lt hk)
    have hlast := Nat.lt_succ_self n
    exact (hn.step (ht n hlast) (ht' n hlast) (hconsults n hlast)).1

theorem agrees_of_launch {a b : Processor τ} {rom : List UInt8} {start start' : Option Int}
    {e e' : Entropy} (hoptions : a.advancing = b.advancing) (hp : a.launch rom start e = .ok p)
    (hq : b.launch rom start' e' = .ok q) : p.Agrees q := by
  have hsize : rom.length ≤ Memory.maxRom := by
    by_contra hlong
    rw [launch_eq_error a (Nat.not_le.mp hlong)] at hp
    cases hp
  rw [launch_eq_ok a hsize, Except.ok.injEq] at hp
  rw [launch_eq_ok b hsize, Except.ok.injEq, ← hoptions] at hq
  subst hp hq
  exact ⟨rfl, rfl, rfl, rfl, rfl, rfl, rfl, rfl, rfl, rfl, rfl⟩

/-- Until one of them first asks the timer or the generator, two runs of one image are the same
whatever their seeds and times, and they ask for the first time at the same step. -/
theorem runs_agree {a b : Processor τ} {rom : List UInt8} {start start' : Option Int}
    {e e' : Entropy} {times times' : Nat → τ} {n : Nat} (hoptions : a.advancing = b.advancing)
    (hp : a.launch rom start e = .ok p) (hq : b.launch rom start' e' = .ok q)
    (ht : ∀ k < n, (p.after times k).Takes (times k))
    (ht' : ∀ k < n, (q.after times' k).Takes (times' k))
    (hconsults : ∀ k < n, ¬(p.after times k).Consults) :
    (p.after times n).Agrees (q.after times' n) ∧
    (∀ k < n, ((p.after times k).step (times k)).2 = ((q.after times' k).step (times' k)).2) ∧
    ((p.after times n).Consults ↔ (q.after times' n).Consults) := by
  have hstart : p.Agrees q := agrees_of_launch hoptions hp hq
  have hafter : ∀ k ≤ n, (p.after times k).Agrees (q.after times' k) := by
    intro k hk
    apply hstart.after
    · exact fun j hj => ht j (Nat.lt_of_lt_of_le hj hk)
    · exact fun j hj => ht' j (Nat.lt_of_lt_of_le hj hk)
    · exact fun j hj => hconsults j (Nat.lt_of_lt_of_le hj hk)
  refine ⟨hafter n (Nat.le_refl n), ?_, (hafter n (Nat.le_refl n)).consults_iff⟩
  intro k hk
  exact ((hafter k (Nat.le_of_lt hk)).step (ht k hk) (ht' k hk) (hconsults k hk)).2

def delayedImage : List UInt8 := [0x60, 0x05, 0xF0, 0x15, 0x71, 0x01, 0xF2, 0x07]

theorem runs_agree_delayed : ∃ p q : Processor Float,
    (new (some 1) true default).1.launch delayedImage none default = .ok p ∧
    (new (some 2) true default).1.launch delayedImage none default = .ok q ∧
    p.random ≠ q.random ∧
    (p.after (fun _ => 0) 3).timer.value = 5 ∧ (q.after (fun _ => 20) 3).timer.value = 4 ∧
    (p.after (fun _ => 0) 3).Agrees (q.after (fun _ => 20) 3) ∧
    (q.after (fun _ => 20) 3).Consults := by
  let p : Processor Float := powerOn delayedImage (some 1) true 1
  let q : Processor Float := powerOn delayedImage (some 2) true 2
  have hp : (new (some 1) true default).1.launch delayedImage none default = .ok p :=
    launch_eq_ok _ (by decide) none default
  have hq : (new (some 2) true default).1.launch delayedImage none default = .ok q :=
    launch_eq_ok _ (by decide) none default
  obtain ⟨hrandom, hvalue, hvalue'⟩ : p.random ≠ q.random ∧
      (p.after (fun _ => 0) 3).timer.value = 5 ∧ (q.after (fun _ => 20) 3).timer.value = 4 := by
    decide +kernel
  obtain ⟨ht, ht', hdecode⟩ : (∀ k < 3, ((p.after (fun _ => 0) k).timer.update 0).2 = none) ∧
      (∀ k < 3, ((q.after (fun _ => 20) k).timer.update 20).2 = none) ∧
      (∀ k < 3, (Instruction.decode (p.after (fun _ => 0) k).fetch).map Instruction.mnemonic ∈
        [some .load, some .loadd, some .add]) := by decide +kernel
  have hconsults : ∀ k < 3, ¬(p.after (fun _ => 0) k).Consults := by
    rintro k hk ⟨-, i, hi, hm⟩
    have hmem := hdecode k hk
    rw [hi, Option.map_some] at hmem
    rcases hm with hm | hm <;> simp [hm] at hmem
  have hoptions : (new (some 1) true default : Processor Float × Entropy).1.advancing =
      (new (some 2) true default : Processor Float × Entropy).1.advancing := rfl
  obtain ⟨hagrees, -, hiff⟩ := runs_agree hoptions hp hq (fun k hk _ => ht k hk)
    (fun k hk _ => ht' k hk) hconsults
  refine ⟨p, q, hp, hq, hrandom, hvalue, hvalue', hagrees, hiff.mp ?_⟩
  obtain ⟨hfinished, hmoved⟩ : (p.after (fun _ => 0) 3).finished = false ∧
      Instruction.decode (p.after (fun _ => 0) 3).fetch = some ⟨.moved, [2]⟩ := by decide +kernel
  exact ⟨hfinished, _, hmoved, .inl rfl⟩

end Chip8.Processor
