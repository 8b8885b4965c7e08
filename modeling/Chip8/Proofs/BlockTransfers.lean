import Chip8.Proofs.DecodedOperands
import Chip8.Proofs.StateRanges
import Chip8.Proofs.StepChanges

namespace Chip8.Processor

open Time

variable {τ : Type} {p q r t : Processor τ} {a : Int} {last : Fin 16}

theorem mem_firstRegisters {k : Fin 16} : k ∈ firstRegisters last ↔ k ≤ last := by
  simp only [firstRegisters, List.mem_filter, List.mem_finRange, true_and, decide_eq_true_eq]

theorem readByte_foldl_writeByte_of_mem {m : Memory} {base : Int} (values : Fin 16 → Int)
    {l : List (Fin 16)} {k : Fin 16} (h : k ∈ l) :
    (l.foldl (fun m (i : Fin 16) => m.writeByte (base + i.val) (values i)) m).readByte
      (base + k.val) = Bits.low (values k) := by
  induction l generalizing m with
  | nil => cases h
  | cons i l ih =>
    by_cases hl : k ∈ l
    · exact ih hl
    · obtain rfl : k = i := (List.mem_cons.mp h).resolve_right hl
      rw [List.foldl_cons, readByte_foldl_writeByte, Memory.readByte_writeByte, if_pos rfl]
      -- there are fewer registers than cells, so two of them never meet in one
      intro j hj hcell
      obtain rfl : j = k := by omega
      exact hl hj

theorem get_foldl_withRegister_of_mem {registers : Vector Int 16} (values : Fin 16 → Int)
    {l : List (Fin 16)} {k : Fin 16} (h : k ∈ l) :
    (l.foldl (fun r i => withRegister r i (values i)) registers).get k = values k := by
  induction l generalizing registers with
  | nil => cases h
  | cons i l ih =>
    by_cases hl : k ∈ l
    · exact ih hl
    · obtain rfl : k = i := (List.mem_cons.mp h).resolve_right hl
      rw [List.foldl_cons, get_foldl_withRegister values hl, get_withRegister, if_pos rfl]

def block (a : Int) (last : Fin 16) : List Int :=
  (firstRegisters last).map (fun (k : Fin 16) => (a + k.val) % 0x1000)

theorem mem_block {c : Int} :
    c ∈ block a last ↔ ∃ k ≤ last, (a + k.val) % 0x1000 = c := by
  simp only [block, List.mem_map, mem_firstRegisters]

structure Saves (a : Int) (last : Fin 16) (p q : Processor τ) : Prop where
  bytes : ∀ k ≤ last, (q.memory.readByte ((a + k.val) % 0x1000)).toNat = p.registers.get k
  memory : ∀ c, c % 0x1000 ∉ block a last → q.memory.readByte c = p.memory.readByte c
  registers : q.registers = p.registers

structure Restores (a : Int) (last : Fin 16) (p q : Processor τ) : Prop where
  bytes : ∀ k ≤ last, q.registers.get k = (p.memory.readByte ((a + k.val) % 0x1000)).toNat
  registers : ∀ k, last < k → q.registers.get k = p.registers.get k
  memory : q.memory = p.memory

theorem saves_storeRegisters (h : ∀ k ≤ last, 0 ≤ p.registers.get k ∧ p.registers.get k ≤ 255) :
    Saves p.index last p (p.storeRegisters last) where
  bytes k hk := by
    obtain ⟨hlow, hhigh⟩ := h k hk
    rw [Memory.readByte_emod, storeRegisters,
      readByte_foldl_writeByte_of_mem _ (mem_firstRegisters.mpr hk), Memory.toNat_low]
    omega
  memory c hc := by
    apply readByte_foldl_writeByte
    intro k hk hcell
    exact hc (mem_block.mpr ⟨k, mem_firstRegisters.mp hk, hcell⟩)
  registers := rfl

theorem restores_readRegisters (p : Processor τ) (last : Fin 16) :
    Restores p.index last p (p.readRegisters last) where
  bytes k hk := by
    rw [Memory.readByte_emod]
    exact get_foldl_withRegister_of_mem _ (mem_firstRegisters.mpr hk)
  registers k hk :=
    get_foldl_withRegister _ fun hmem => Fin.not_le.mpr hk (mem_firstRegisters.mp hmem)
  memory := rfl

theorem Saves.regained (h : Saves a last p q) (hr : Restores a last r t)
    (hkept : ∀ c ∈ block a last, r.memory.readByte c = q.memory.readByte c) :
    ∀ k ≤ last, t.registers.get k = p.registers.get k := by
  intro k hk
  rw [hr.bytes k hk, hkept _ (mem_block.mpr ⟨k, hk, rfl⟩), h.bytes k hk]

theorem Restores.rewritten (h : Restores a last p q) (hr : Saves a last r t)
    (hmemory : r.memory = q.memory)
    (hregisters : ∀ k ≤ last, r.registers.get k = q.registers.get k) : t.memory = p.memory := by
  apply Memory.ext_readByte
  intro c
  by_cases hc : c % 0x1000 ∈ block a last
  · obtain ⟨k, hk, hcell⟩ := mem_block.mp hc
    have hbyte : ((t.memory.readByte ((a + k.val) % 0x1000)).toNat : Int) =
        (p.memory.readByte ((a + k.val) % 0x1000)).toNat :=
      (hr.bytes k hk).trans ((hregisters k hk).trans (h.bytes k hk))
    rwa [hcell, Memory.readByte_emod, Memory.readByte_emod, Int.natCast_inj, UInt8.toNat_inj]
      at hbyte
  · rw [hr.memory c hc, hmemory, h.memory]

variable [Measure τ] {elapsed : τ}

theorem step_readByte {c : Int} (h : ∀ i, Instruction.decode p.fetch = some i →
      ∀ b ∈ p.touched p.fetch i.mnemonic, b % 0x1000 ≠ c % 0x1000) :
    (p.step elapsed).1.memory.readByte c = p.memory.readByte c := by
  have hexecute {i : Instruction} (hreaches : p.Reaches elapsed i) :
      ((p.woken elapsed).execute p.fetch i.mnemonic).1.memory.readByte c = p.memory.readByte c :=
    execute_readByte_of_touched (p := p.woken elapsed) (h i hreaches.decoded)
  have hsteps := p.steps_step elapsed
  generalize (p.step elapsed).1 = q at hsteps ⊢
  generalize (p.step elapsed).2 = fault at hsteps
  cases hsteps with
  | halted | uncounted | unknown => rfl
  | failed hreaches he | done hreaches he =>
    have hkept := hexecute hreaches
    rwa [he] at hkept

inductive Preserves (cells : List Int) : Processor τ → Processor τ → Prop
  | refl (p : Processor τ) : Preserves cells p p
  | step {p q : Processor τ} {elapsed : τ} (preserved : Preserves cells p q)
    (apart : ∀ i, Instruction.decode q.fetch = some i →
      ∀ b ∈ q.touched q.fetch i.mnemonic, b % 0x1000 ∉ cells) :
    Preserves cells p (q.step elapsed).1
  | change {p q r : Processor τ} (preserved : Preserves cells p q)
    (kept : ∀ c ∈ cells, r.memory.readByte c = q.memory.readByte c) : Preserves cells p r

theorem Preserves.readByte {cells : List Int} (h : Preserves cells p q)
    (hcells : ∀ c ∈ cells, c % 0x1000 = c) :
    ∀ c ∈ cells, q.memory.readByte c = p.memory.readByte c := by
  intro c hc
  induction h with
  | refl => rfl
  | step _ apart ih =>
    rw [step_readByte, ih]
    intro i hi b hb heq
    rw [hcells c hc] at heq
    exact apart i hi b hb (heq ▸ hc)
  | change _ kept ih => rw [kept c hc, ih]

theorem Preserves.next {cells : List Int} {i : Instruction} (h : Preserves cells p q)
    (hdecode : Instruction.decode q.fetch = some i) (hquiet : q.touched q.fetch i.mnemonic = []) :
    Preserves cells p (q.step elapsed).1 := by
  refine h.step fun j hj b hb => ?_
  obtain rfl : i = j := Option.some.inj (hdecode.symm.trans hj)
  rw [hquiet] at hb
  cases hb

theorem step_stor (h : ∀ k ≤ last, 0 ≤ p.registers.get k ∧ p.registers.get k ≤ 255)
    (hreaches : p.Reaches elapsed ⟨.stor, [last]⟩) :
    (p.step elapsed).2 = none ∧ Saves p.index last p (p.step elapsed).1 ∧
      (p.step elapsed).1.index = p.indexAfter last := by
  obtain rfl := eq_x_of_decode rfl hreaches.decoded
  have hsaves : Saves p.index (Opcode.x p.fetch) p _ := saves_storeRegisters h
  rw [step_of_executed hreaches rfl]
  exact ⟨rfl, { hsaves with }, rfl⟩

theorem step_read (hreaches : p.Reaches elapsed ⟨.read, [last]⟩) :
    (p.step elapsed).2 = none ∧ Restores p.index last p (p.step elapsed).1 ∧
      (p.step elapsed).1.index = p.indexAfter last := by
  obtain rfl := eq_x_of_decode rfl hreaches.decoded
  have hrestores : Restores p.index (Opcode.x p.fetch) p _ := restores_readRegisters p _
  rw [step_of_executed hreaches rfl]
  exact ⟨rfl, { hrestores with }, rfl⟩

def atIndex (p : Processor τ) (a : Int) : Processor τ := { p with index := a }

def past (advancing : Bool) (a : Int) (last : Fin 16) : Int :=
  if advancing then (a + last.val + 1) % 0x10000 else a

theorem transfers_inverse {seed : Option Int} {advancing : Bool}
    (h : p.Reachable DelayTimer.Forward seed advancing) (a : Int) (last : Fin 16) :
    ((p.atIndex a).Reaches elapsed ⟨.stor, [last]⟩ →
      ∃ q, (p.atIndex a).step elapsed = (q, none) ∧ Saves a last p q ∧
        q.index = past advancing a last ∧
        ∀ r later, Preserves (block a last) q r → r.index = a → r.Reaches later ⟨.read, [last]⟩ →
          ∃ t, r.step later = (t, none) ∧ ∀ k ≤ last, t.registers.get k = p.registers.get k) ∧
    ((p.atIndex a).Reaches elapsed ⟨.read, [last]⟩ →
      ∃ q, (p.atIndex a).step elapsed = (q, none) ∧ Restores a last p q ∧
        q.index = past advancing a last ∧
        ∀ (r : Processor τ) later, r.memory = q.memory → (∀ k ≤ last, r.registers.get k = q.registers.get k) →
          r.index = a → r.Reaches later ⟨.stor, [last]⟩ →
          ∃ t, r.step later = (t, none) ∧ t.memory = p.memory) := by
  have hp : p.InRange := h.holds (InRange.stable seed advancing)
  have hindex : (p.atIndex a).indexAfter last = past advancing a last := by
    rw [← (h.holds stable_options).2]
    rfl
  constructor
  · intro hreaches
    have hbytes : ∀ k ≤ last,
        0 ≤ (p.atIndex a).registers.get k ∧ (p.atIndex a).registers.get k ≤ 255 :=
      fun k _ => hp.registers k
    obtain ⟨hdone, hsaved, hafter⟩ := step_stor hbytes hreaches
    have hsaves : Saves a last p ((p.atIndex a).step elapsed).1 := { hsaved with }
    refine ⟨_, Prod.ext rfl hdone, hsaves, hafter.trans hindex, ?_⟩
    rintro r later hpreserves rfl hread
    obtain ⟨hdone', hrestores, -⟩ := step_read hread
    refine ⟨_, Prod.ext rfl hdone', hsaves.regained hrestores (hpreserves.readByte ?_)⟩
    intro c hc
    obtain ⟨k, -, rfl⟩ := mem_block.mp hc
    exact Int.emod_emod _ _
  · intro hreaches
    obtain ⟨hdone, hrestored, hafter⟩ := step_read hreaches
    have hrestores : Restores a last p ((p.atIndex a).step elapsed).1 := { hrestored with }
    refine ⟨_, Prod.ext rfl hdone, hrestores, hafter.trans hindex, ?_⟩
    rintro r later hmemory hregisters rfl hstor
    have hbytes : ∀ k ≤ last, 0 ≤ r.registers.get k ∧ r.registers.get k ≤ 255 := by
      intro k hk
      rw [hregisters k hk, hrestores.bytes k hk]
      have hlt := (p.memory.readByte ((r.index + k.val) % 0x1000)).toNat_lt
      exact ⟨Int.natCast_nonneg _, by omega⟩
    obtain ⟨hdone', hsaves, -⟩ := step_stor hbytes hstor
    exact ⟨_, Prod.ext rfl hdone', hrestores.rewritten hsaves hmemory hregisters⟩

def savingImage : List UInt8 :=
  [0x60, 0x05, 0x61, 0x07, 0xAF, 0xFF, 0xF1, 0x55, 0x60, 0x09, 0xAF, 0xFF, 0xF1, 0x65, 0xAF, 0xFF,
   0xF1, 0x55]

def saving (n : Nat) : Processor Float :=
  Nat.repeat (fun p => (p.step 0).1) n (powerOn savingImage (some 7) true 7)

theorem transfers_inverse_around :
    Reachable DelayTimer.Forward (some 7) true (saving 3) ∧ Reachable DelayTimer.Forward (some 7) true (saving 6) ∧
    (saving 3).registers.get 0 = 5 ∧ (saving 6).registers.get 0 = 9 ∧
    (saving 4).index = 0x1001 ∧ (saving 7).registers.get 0 = 5 ∧
    (saving 9).memory = (saving 6).memory := by
  obtain ⟨hidle, hfinished, hindices, hbefore, hbetween, hstor, hload, hloadi, hread, hloadi',
      hstor'⟩ :
      (∀ n < 9, (saving n).timer.value = 0) ∧ (∀ n < 9, (saving n).finished = false) ∧
      (∀ n ∈ [3, 6, 8], (saving n).index = 0xFFF) ∧
      (saving 3).registers.get 0 = 5 ∧ (saving 6).registers.get 0 = 9 ∧
      Instruction.decode (saving 3).fetch = some ⟨.stor, [1]⟩ ∧
      Instruction.decode (saving 4).fetch = some ⟨.load, [0, 9]⟩ ∧
      Instruction.decode (saving 5).fetch = some ⟨.loadi, [0xFFF]⟩ ∧
      Instruction.decode (saving 6).fetch = some ⟨.read, [1]⟩ ∧
      Instruction.decode (saving 7).fetch = some ⟨.loadi, [0xFFF]⟩ ∧
      Instruction.decode (saving 8).fetch = some ⟨.stor, [1]⟩ := by decide +kernel
  have hreachable (n : Nat) (hn : n < 9) : Reachable DelayTimer.Forward (some 7) true (saving n) := by
    induction n with
    | zero => exact .powerOn (by decide) 7
    | succ n ih =>
      exact (ih (by omega)).step fun hrunning => absurd (hidle n (by omega)) hrunning
  have hreaches {n : Nat} {i : Instruction} (hn : n < 9)
      (hi : Instruction.decode (saving n).fetch = some i) : (saving n).Reaches 0 i := by
    refine ⟨hfinished n hn, ?_, hi⟩
    rw [DelayTimer.update, if_pos (hidle n hn)]
  have hat {n : Nat} (hn : n ∈ [3, 6, 8]) : (saving n).atIndex 0xFFF = saving n := by
    rw [← hindices n hn]
    rfl
  have hp := hreachable 3 (by decide)
  have hq := hreachable 6 (by decide)
  have hstored : ((saving 3).atIndex 0xFFF).Reaches 0 ⟨.stor, [(1 : Fin 16)]⟩ := by
    rw [hat (by decide)]
    exact hreaches (by decide) hstor
  have hrestored : ((saving 6).atIndex 0xFFF).Reaches 0 ⟨.read, [(1 : Fin 16)]⟩ := by
    rw [hat (by decide)]
    exact hreaches (by decide) hread
  obtain ⟨q, hq', -, hpast, hregained⟩ := (transfers_inverse hp 0xFFF 1).1 hstored
  obtain ⟨r, hr, -, -, hrewritten⟩ := (transfers_inverse hq 0xFFF 1).2 hrestored
  rw [hat (by decide)] at hq' hr
  obtain rfl : saving 4 = q := congrArg Prod.fst hq'
  obtain rfl : saving 7 = r := congrArg Prod.fst hr
  have hpreserves : Preserves (block 0xFFF 1) (saving 4) (saving 6) :=
    .next (.next (.refl _) hload rfl) hloadi rfl
  obtain ⟨t, ht, hregisters⟩ :=
    hregained _ 0 hpreserves (hindices 6 (by decide)) (hreaches (by decide) hread)
  have hkept (n : Nat) {operands : List Int} (h : (saving n).Reaches 0 ⟨.loadi, operands⟩) :
      (saving (n + 1)).memory = (saving n).memory ∧
        (saving (n + 1)).registers = (saving n).registers := by
    show ((saving n).step 0).1.memory = _ ∧ ((saving n).step 0).1.registers = _
    rw [step_of_executed h rfl]
    exact ⟨rfl, rfl⟩
  obtain ⟨hmemory, hunchanged⟩ := hkept 7 (hreaches (by decide) hloadi')
  obtain ⟨u, hu, hrewrote⟩ := hrewritten (saving 8) 0 hmemory
    (fun k _ => by rw [← hunchanged]) (hindices 8 (by decide)) (hreaches (by decide) hstor')
  obtain rfl : saving 7 = t := congrArg Prod.fst ht
  obtain rfl : saving 9 = u := congrArg Prod.fst hu
  exact ⟨hp, hq, hbefore, hbetween, hpast, (hregisters 0 (by decide)).trans hbefore, hrewrote⟩

end Chip8.Processor
