import Chip8.Proofs.StepEffects
import Mathlib.Data.Nat.Bitwise

namespace Chip8

structure BitRange (P : Int → Prop) : Prop where
  byte {n : Int} : 0 ≤ n → n ≤ 255 → P n
  half {n : Int} : P n → P (n / 2)
  or {m n : Int} : P m → P n → P (Bits.or m n)
  and {m n : Int} : P m → P n → P (Bits.and m n)
  xor {m n : Int} : P m → P n → P (Bits.xor m n)

namespace BitRange

theorem bytes : BitRange (fun n => 0 ≤ n ∧ n ≤ 255) where
  byte h h' := ⟨h, h'⟩
  half h := by omega
  or {m n} hm hn := by
    lift m to Nat using hm.1
    lift n to Nat using hn.1
    have h : m ||| n < 2 ^ 8 := Nat.or_lt_two_pow (by omega) (by omega)
    show 0 ≤ ((m ||| n : Nat) : Int) ∧ ((m ||| n : Nat) : Int) ≤ 255
    omega
  and {m n} hm hn := by
    lift m to Nat using hm.1
    lift n to Nat using hn.1
    have h : m &&& n < 2 ^ 8 := Nat.and_lt_two_pow m (by omega)
    show 0 ≤ ((m &&& n : Nat) : Int) ∧ ((m &&& n : Nat) : Int) ≤ 255
    omega
  xor {m n} hm hn := by
    lift m to Nat using hm.1
    lift n to Nat using hn.1
    have h : m ^^^ n < 2 ^ 8 := Nat.xor_lt_two_pow (by omega) (by omega)
    show 0 ≤ ((m ^^^ n : Nat) : Int) ∧ ((m ^^^ n : Nat) : Int) ≤ 255
    omega

theorem naturals : BitRange (0 ≤ ·) where
  byte h _ := h
  half h := by omega
  or {m n} hm hn := by
    lift m to Nat using hm
    lift n to Nat using hn
    exact Int.natCast_nonneg (m ||| n)
  and {m n} hm hn := by
    lift m to Nat using hm
    lift n to Nat using hn
    exact Int.natCast_nonneg (m &&& n)
  xor {m n} hm hn := by
    lift m to Nat using hm
    lift n to Nat using hn
    exact Int.natCast_nonneg (m ^^^ n)

end BitRange

namespace Processor

variable {τ : Type} {P : Int → Prop}

theorem get_withRegister (registers : Vector Int 16) (x y : Fin 16) (value : Int) :
    (withRegister registers x value).get y = if x = y then value else registers.get y := by
  show (registers.set x value)[y.val] = if x = y then value else registers[y.val]
  simp only [Vector.getElem_set, Fin.val_inj]

theorem get_foldl_withRegister {registers : Vector Int 16} (values : Fin 16 → Int) {x : Fin 16}
    {l : List (Fin 16)} (h : x ∉ l) :
    (l.foldl (fun r i => withRegister r i (values i)) registers).get x = registers.get x := by
  induction l generalizing registers with
  | nil => rfl
  | cons i l ih =>
    obtain ⟨hne, hl⟩ := not_or.mp (mt List.mem_cons.mpr h)
    rw [List.foldl_cons, ih hl, get_withRegister, if_neg (Ne.symm hne)]

theorem get_setRegister_of_ne {p : Processor τ} {x y : Fin 16} (h : y ≠ x) (value : Int) :
    (p.setRegister x value).registers.get y = p.registers.get y := by
  rw [setRegister, get_withRegister, if_neg h.symm]

def Holds (P : Int → Prop) (registers : Vector Int 16) : Prop := ∀ x, P (registers.get x)

namespace Holds

theorem set {registers : Vector Int 16} {value : Int} (h : Holds P registers) (hv : P value)
    (x : Fin 16) : Holds P (withRegister registers x value) := by
  intro y
  rw [get_withRegister]
  split_ifs
  · exact hv
  · exact h y

theorem foldl {registers : Vector Int 16} {values : Fin 16 → Int} (h : Holds P registers)
    (hv : ∀ i, P (values i)) (l : List (Fin 16)) :
    Holds P (l.foldl (fun r i => withRegister r i (values i)) registers) := by
  induction l generalizing registers with
  | nil => exact h
  | cons i l ih => exact ih (h.set (hv i) i)

theorem flag {p : Processor τ} (h : Holds P p.registers) (hP : BitRange P) (on : Bool) :
    Holds P (p.setFlag on).registers := by
  apply h.set
  split_ifs
  · exact hP.byte (by decide) (by decide)
  · exact hP.byte (by decide) (by decide)

end Holds

theorem drawSprite_holds {p : Processor τ} (hP : BitRange P) (h : Holds P p.registers)
    (x y : Fin 16) (height : Nat) : Holds P (p.drawSprite x y height).1.registers := by
  simp only [drawSprite]
  split
  · exact h
  · exact Holds.flag h hP _

theorem execute_holds {p : Processor τ} (hP : BitRange P) (h : Holds P p.registers)
    (ht : P p.timer.value) (word : Nat) (m : Mnemonic) :
    Holds P (p.execute word m).1.registers := by
  have hbyte : P (Opcode.byte word : Int) := hP.byte (by omega) (by simp only [Opcode.byte]; omega)
  have hmod (n : Int) : P (n % 256) := hP.byte (by omega) (by omega)
  cases m with
  | rts =>
    simp only [execute, ret]
    split_ifs <;> exact h
  | call =>
    simp only [execute, call]
    split_ifs <;> exact h
  | ske | skne | skre | skrne =>
    simp only [execute]
    rw [skipIf_eq]
    exact h
  | load => exact h.set hbyte _
  | add => exact h.set (hmod _) _
  | copy => exact h.set (h _) _
  | or => exact h.set (hP.or (h _) (h _)) _
  | and => exact h.set (hP.and (h _) (h _)) _
  | xor => exact h.set (hP.xor (h _) (h _)) _
  | addr | sub | subn | shl => exact Holds.flag (h.set (hmod _) _) hP _
  | shr => exact Holds.flag (h.set (hP.half (h _)) _) hP _
  | rand => exact h.set (hP.and (hmod _) hbyte) _
  | draw => exact drawSprite_holds hP h _ _ _
  | moved => exact h.set ht _
  | read =>
    apply h.foldl
    intro i
    have hlt := (p.memory.readByte (p.index + i.val)).toNat_lt
    exact hP.byte (by omega) (by omega)
  | _ => exact h

end Processor

end Chip8
