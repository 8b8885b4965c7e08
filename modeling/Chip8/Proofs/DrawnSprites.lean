import Chip8.Proofs.DecodedOperands
import Chip8.Proofs.RegisterRange
import Chip8.Proofs.SpriteDrawing

namespace Chip8

structure Bitmap.Stamped {width height : Nat} (sprite : List Int) (x y : Int)
    (b after : Bitmap width height) (hit : Bool) : Prop where
  pixels : ∀ (px : Fin width) (py : Fin height),
    after.get px py = (b.get px py ^^ ink sprite x y px py)
  collision : hit = true ↔ ∃ (px : Fin width) (py : Fin height),
    b.get px py = true ∧ ink sprite x y px py = true

theorem Bitmap.drawAbove_stamped {width height : Nat} {bottom : Int}
    (hbottom : bottom.toNat = height) (b : Bitmap width height) {x y : Int} (sprite : List Int)
    (hx : 0 ≤ x) (hy : 0 ≤ y) : ∃ after hit,
      b.drawAbove bottom x y false sprite = (after, some hit) ∧ Stamped sprite x y b after hit := by
  obtain ⟨after, hit, hdraw, hpixels, hcollision⟩ := b.drawAbove_inverts hbottom false sprite hx hy
  refine ⟨after, hit, hdraw, hpixels, ?_⟩
  rw [hcollision]
  simp only [Bool.false_eq_true, false_or]

namespace Processor

open Time

variable {τ : Type}

theorem draw_operands {p : Processor τ} {x y : Fin 16} {n : Nat}
    (h : Instruction.decode p.fetch = some ⟨.draw, [x, y, n]⟩) :
    Opcode.x p.fetch = x ∧ Opcode.y p.fetch = y ∧ Opcode.nibble p.fetch = n := by
  have hi := eq_ofWord h
  rw [Instruction.ofWord_sprite rfl, Instruction.mk.injEq] at hi
  simp only [List.cons.injEq, Int.natCast_inj, Fin.val_inj, and_true, true_and] at hi
  obtain ⟨hx, hy, hn⟩ := hi
  exact ⟨hx.symm, hy.symm, hn.symm⟩

def spriteRows (p : Processor τ) (n : Nat) : List Int :=
  (List.range n).map (fun (k : Nat) => ((p.memory.readByte ((p.index + k) % 0x1000)).toNat : Int))

theorem drawSprite_stamped {p : Processor τ} {x y : Fin 16} {n : Nat} (hx : 0 ≤ p.registers.get x)
    (hy : 0 ≤ p.registers.get y) : ∃ hit, (p.drawSprite x y n).2 = none ∧
      Bitmap.Stamped (p.spriteRows n) (p.registers.get x) (p.registers.get y) p.screen
        (p.drawSprite x y n).1.screen hit ∧
      (p.drawSprite x y n).1.registers = withRegister p.registers flagRegister (if hit then 1 else 0) := by
  have hrows : (p.memory.readBlock p.index n).map (fun b => (b.toNat : Int)) = p.spriteRows n := by
    simp only [Memory.readBlock, List.map_map, spriteRows, Memory.readByte_emod, Function.comp_def]
  obtain ⟨after, hit, hdraw, hstamped⟩ :=
    p.screen.drawAbove_stamped (Int.toNat_natCast 32) (p.spriteRows n) hx hy
  rw [← Bitmap.draw] at hdraw
  refine ⟨hit, ?_⟩
  simp only [drawSprite, hrows, hdraw]
  exact ⟨trivial, hstamped, rfl⟩

variable [Measure τ]

theorem sprite_stamped :
    (∀ {width height : Nat} {bottom : Int} (b : Bitmap width height) {x y : Int}
      (sprite : List Int), bottom.toNat = height → 0 ≤ x → 0 ≤ y → ∃ after hit,
        b.drawAbove bottom x y false sprite = (after, some hit) ∧
          Bitmap.Stamped sprite x y b after hit) ∧
    ∀ {p : Processor τ} {elapsed : τ} {x y : Fin 16} {n : Nat},
      p.Reaches elapsed ⟨.draw, [x, y, n]⟩ → 0 ≤ p.registers.get x → 0 ≤ p.registers.get y →
      (p.step elapsed).2 = none ∧ (p.step elapsed).1.index = p.index ∧ ∃ hit : Bool,
        Bitmap.Stamped (p.spriteRows n) (p.registers.get x) (p.registers.get y) p.screen
          (p.step elapsed).1.screen hit ∧
        (p.step elapsed).1.registers.get flagRegister = if hit then 1 else 0 := by
  constructor
  · intro width height bottom b x y sprite hbottom hx hy
    exact b.drawAbove_stamped hbottom sprite hx hy
  · intro p elapsed x y n hreaches hx hy
    obtain ⟨hopx, hopy, hopn⟩ := draw_operands hreaches.decoded
    have hexecute : (p.woken elapsed).execute p.fetch .draw = (p.woken elapsed).drawSprite x y n := by
      rw [← hopx, ← hopy, ← hopn]
      rfl
    obtain ⟨hit, hnone, hstamped, hregisters⟩ :=
      drawSprite_stamped (p := p.woken elapsed) (n := n) hx hy
    have hindex : ((p.woken elapsed).drawSprite x y n).1.index = p.index := by
      rw [drawSprite_eq]
      rfl
    rw [step_of_reaches hreaches, hexecute]
    generalize (p.woken elapsed).drawSprite x y n = drawn at hnone hstamped hregisters hindex
    obtain ⟨q, _⟩ := drawn
    subst hnone
    refine ⟨rfl, hindex, hit, hstamped, ?_⟩
    show q.registers.get flagRegister = _
    rw [show q.registers = _ from hregisters, get_withRegister, if_pos rfl]

def cornered : Processor Float :=
  { powerOn [0xDF, 0x02] (some 7) true 7 with
    memory := (Memory.fresh.store Memory.programStart [0xDF, 0x02]).store 0xFFF [0x80, 0x41]
    index := 0xFFF
    registers := withRegister (Vector.replicate 16 30) flagRegister 62
    screen := Bitmap.blank.put (Fin.last 63) (Fin.last 31) true }

theorem sprite_stamped_cornered :
    (cornered.step 0).2 = none ∧ (cornered.step 0).1.screen.get 62 30 = true ∧
    (cornered.step 0).1.screen.get 63 31 = false ∧ (cornered.step 0).1.screen.get 0 0 = false ∧
    (cornered.step 0).1.registers.get flagRegister = 1 ∧
    ((Bitmap.blank : Bitmap 3 0).drawAbove (-2) 1 0 false [0xFF]).2 = some false := by
  obtain ⟨hfinished, hcounted, hdecode, hx, hy⟩ : cornered.finished = false ∧
      (cornered.timer.update 0).2 = none ∧
      Instruction.decode cornered.fetch = some ⟨.draw, [(15 : Fin 16), (0 : Fin 16), (2 : Nat)]⟩ ∧
      0 ≤ cornered.registers.get 15 ∧ 0 ≤ cornered.registers.get 0 := by decide +kernel
  have hreaches : cornered.Reaches 0 ⟨.draw, [(15 : Fin 16), (0 : Fin 16), (2 : Nat)]⟩ :=
    ⟨hfinished, hcounted, hdecode⟩
  obtain ⟨hnone, -, hit, ⟨hpixels, hcollision⟩, hflag⟩ := sprite_stamped.2 hreaches hx hy
  obtain ⟨hlit, hmet, hink, hapart⟩ :
      (cornered.screen.get 62 30 ^^ Bitmap.ink (cornered.spriteRows 2) (cornered.registers.get 15)
        (cornered.registers.get 0) 62 30) = true ∧
      cornered.screen.get 63 31 = true ∧ Bitmap.ink (cornered.spriteRows 2)
        (cornered.registers.get 15) (cornered.registers.get 0) 63 31 = true ∧
      (cornered.screen.get 0 0 ^^ Bitmap.ink (cornered.spriteRows 2) (cornered.registers.get 15)
        (cornered.registers.get 0) 0 0) = false := by decide +kernel
  have hbottom : (-2 : Int).toNat = 0 := rfl
  obtain ⟨after, met, hdraw, -, hempty⟩ := (sprite_stamped (τ := Float)).1
    (Bitmap.blank : Bitmap 3 0) [0xFF] hbottom (Int.zero_le_ofNat 1) (Int.zero_le_ofNat 0)
  have hhit : hit = true := hcollision.mpr ⟨63, 31, hmet, hink⟩
  have hmiss : met = false := by
    rw [Bool.eq_false_iff, ne_eq, hempty]
    rintro ⟨px, py, -⟩
    exact py.elim0
  rw [hhit] at hflag
  rw [hmiss] at hdraw
  refine ⟨hnone, (hpixels 62 30).trans hlit, ?_, (hpixels 0 0).trans hapart, hflag,
    congrArg Prod.snd hdraw⟩
  have hout := hpixels 63 31
  rw [hmet] at hout
  exact hout.trans (congrArg (true ^^ ·) hink)

end Processor

end Chip8
