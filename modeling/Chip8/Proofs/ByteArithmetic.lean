import Chip8.Proofs.DecodedOperands
import Chip8.Proofs.StateRanges

namespace Chip8

open Time

def Mnemonic.result (x y : BitVec 8) : Mnemonic → Option (BitVec 8 × Option Bool)
  | or => some (x ||| y, none)
  | and => some (x &&& y, none)
  | xor => some (x ^^^ y, none)
  | addr => some (x + y, some (255 < x.toNat + y.toNat))
  | sub => some (x - y, some (y ≤ x))
  | subn => some (y - x, some (x ≤ y))
  | shr => some (y >>> 1, some (y.getLsbD 0))
  | shl => some (y <<< 1, some (y.getLsbD 7))
  | _ => none

theorem Mnemonic.fields_of_result {m : Mnemonic} {x y : BitVec 8}
    {result : BitVec 8 × Option Bool} (h : m.result x y = some result) :
    m.fields = [.first, .second] := by
  cases m with
  | or | and | xor | addr | sub | subn | shr | shl => rfl
  | _ => cases h

namespace Processor

variable {τ : Type} {p : Processor τ} {x : Fin 16} {result : BitVec 8} {flag : Option Bool}

structure Receives (before : Vector Int 16) (x : Fin 16) (result : BitVec 8) (flag : Option Bool)
    (after : Vector Int 16) : Prop where
  flagged : ∀ on, flag = some on → after.get flagRegister = if on then 1 else 0
  received : x ≠ flagRegister ∨ flag = none → after.get x = result.toNat
  kept : ∀ y, y ≠ x → y ≠ flagRegister ∨ flag = none → after.get y = before.get y

theorem receives_value {before : Vector Int 16} {value : Int} (hvalue : value = result.toNat) :
    Receives before x result none (withRegister before x value) where
  flagged _ h := by cases h
  received _ := by rw [get_withRegister, if_pos rfl, hvalue]
  kept _ hy _ := by rw [get_withRegister, if_neg hy.symm]

theorem receives_flag {before : Vector Int 16} {value : Int} {on test : Bool}
    (hvalue : value = result.toNat) (htest : test = on) :
    Receives before x result (some on)
      (withRegister (withRegister before x value) flagRegister (if test then 1 else 0)) where
  flagged _ h := by
    cases h
    rw [get_withRegister, if_pos rfl, htest]
  received h := by
    have hx : x ≠ flagRegister := h.resolve_right (Option.some_ne_none on)
    rw [get_withRegister, if_neg hx.symm, get_withRegister, if_pos rfl, hvalue]
  kept y hy h := by
    have hflag : y ≠ flagRegister := h.resolve_right (Option.some_ne_none on)
    rw [get_withRegister, if_neg hflag.symm, get_withRegister, if_neg hy.symm]

def byte (p : Processor τ) (x : Fin 16) : BitVec 8 := BitVec.ofInt 8 (p.registers.get x)

def Bytewise (p : Processor τ) : Prop := Holds (fun n => 0 ≤ n ∧ n ≤ 255) p.registers

theorem Bytewise.get_eq_byte (h : p.Bytewise) (x : Fin 16) :
    p.registers.get x = (p.byte x).toNat := by
  obtain ⟨hlow, hhigh⟩ := h x
  rw [byte, BitVec.toNat_ofInt]
  omega

theorem execute_result (h : p.Bytewise) {word : Nat} {m : Mnemonic}
    (hm : m.result (p.byte (Opcode.x word)) (p.byte (Opcode.y word)) = some (result, flag)) :
    (p.execute word m).2 = none ∧
      Receives p.registers (Opcode.x word) result flag (p.execute word m).1.registers := by
  have hx := h.get_eq_byte (Opcode.x word)
  have hy := h.get_eq_byte (Opcode.y word)
  have hxlt := (p.byte (Opcode.x word)).isLt
  have hylt := (p.byte (Opcode.y word)).isLt
  simp only [execute, hx, hy]
  generalize p.byte (Opcode.x word) = a at hm hxlt
  generalize p.byte (Opcode.y word) = b at hm hylt
  cases m with
  | or | and | xor =>
    obtain ⟨rfl, rfl⟩ := Prod.mk.inj (Option.some.inj hm)
    exact ⟨rfl, receives_value rfl⟩
  | addr =>
    obtain ⟨rfl, rfl⟩ := Prod.mk.inj (Option.some.inj hm)
    refine ⟨rfl, receives_flag ?_ (decide_eq_decide.mpr ?_)⟩
    · rw [BitVec.toNat_add]
      omega
    · omega
  | sub | subn =>
    obtain ⟨rfl, rfl⟩ := Prod.mk.inj (Option.some.inj hm)
    refine ⟨rfl, receives_flag ?_ (decide_eq_decide.mpr ?_)⟩
    · rw [BitVec.toNat_sub]
      omega
    · rw [BitVec.le_def]
      omega
  | shr =>
    obtain ⟨rfl, rfl⟩ := Prod.mk.inj (Option.some.inj hm)
    refine ⟨rfl, receives_flag ?_ ?_⟩
    · rw [BitVec.toNat_ushiftRight, Nat.shiftRight_eq_div_pow]
      omega
    · rw [BitVec.getLsbD, Nat.testBit_zero, decide_eq_decide]
      omega
  | shl =>
    obtain ⟨rfl, rfl⟩ := Prod.mk.inj (Option.some.inj hm)
    refine ⟨rfl, receives_flag ?_ ?_⟩
    · rw [BitVec.toNat_shiftLeft, Nat.shiftLeft_eq]
      omega
    · rw [BitVec.getLsbD, Nat.testBit_eq_decide_div_mod_eq, decide_eq_decide]
      omega
  | _ => cases hm

theorem execute_add (h : p.Bytewise) (word : Nat) {n : BitVec 8} (hn : Opcode.byte word = n.toNat) :
    Receives p.registers (Opcode.x word) (p.byte (Opcode.x word) + n) none
      (p.execute word .add).1.registers := by
  refine receives_value ?_
  rw [h.get_eq_byte, hn, BitVec.toNat_add]
  omega

variable [Measure τ] {elapsed : τ}

theorem step_result {seed : Option Int} {advancing : Bool}
    (h : p.Reachable DelayTimer.Forward seed advancing) :
    (∀ y, p.registers.get y = (p.byte y).toNat) ∧
    (∀ m x y result flag, p.Reaches elapsed ⟨m, [(x : Fin 16), (y : Fin 16)]⟩ →
      m.result (p.byte x) (p.byte y) = some (result, flag) →
      (p.step elapsed).2 = none ∧
        Receives p.registers x result flag (p.step elapsed).1.registers) ∧
    ∀ x (n : BitVec 8), p.Reaches elapsed ⟨.add, [(x : Fin 16), n.toNat]⟩ →
      (p.step elapsed).2 = none ∧
        Receives p.registers x (p.byte x + n) none (p.step elapsed).1.registers := by
  have hp : p.InRange := h.holds (InRange.stable seed advancing)
  have hbytes : p.Bytewise := hp.registers
  have hwoken : (p.woken elapsed).Bytewise := hp.registers
  refine ⟨hbytes.get_eq_byte, ?_, ?_⟩
  · intro m x y result flag hreaches hm
    obtain ⟨rfl, rfl⟩ := eq_x_y_of_decode (Mnemonic.fields_of_result hm) hreaches.decoded
    obtain ⟨hdone, hreceives⟩ := execute_result hwoken hm
    rw [step_of_executed hreaches hdone]
    exact ⟨rfl, hreceives⟩
  · intro x n hreaches
    obtain ⟨rfl, hn⟩ := eq_x_byte_of_decode rfl hreaches.decoded
    rw [step_of_executed hreaches rfl]
    exact ⟨rfl, execute_add hwoken _ hn.symm⟩

def flagImage : List UInt8 := [0x6F, 0xC8, 0x8F, 0xF4]

theorem step_result_carried : ∃ p : Processor Float, p.Reachable DelayTimer.Forward (some 7) true ∧
    p.Reaches 0 ⟨.addr, [flagRegister, flagRegister]⟩ ∧ p.registers.get flagRegister = 200 ∧
      (p.step 0).2 = none ∧ (p.step 0).1.registers.get flagRegister = 1 := by
  let p : Processor Float := ((powerOn flagImage (some 7) true 7).step 0).1
  have hp : p.Reachable DelayTimer.Forward (some 7) true :=
    (Reachable.powerOn (by decide) 7).step fun hrunning => absurd rfl hrunning
  have hreaches : p.Reaches 0 ⟨.addr, [flagRegister, flagRegister]⟩ := by
    constructor <;> decide +kernel
  obtain ⟨hflag, hresult⟩ : p.registers.get flagRegister = 200 ∧
      Mnemonic.result (p.byte flagRegister) (p.byte flagRegister) .addr =
        some (144, some true) := by decide +kernel
  obtain ⟨hdone, hreceives⟩ := (step_result hp).2.1 _ _ _ _ _ hreaches hresult
  exact ⟨p, hp, hreaches, hflag, hdone, hreceives.flagged true rfl⟩

end Processor

end Chip8
