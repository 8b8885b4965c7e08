import Chip8.Processor.Step
import Chip8.Proofs.MemoryCells
import Chip8.Proofs.OpcodeFields

namespace Chip8

open OperandField

namespace Instruction

/-! What an instruction is read as, by the fields that it has. -/

variable {m : Mnemonic}

theorem ofWord_address (h : m.fields = [address]) (word : Nat) :
    ofWord m word = ⟨m, [(Opcode.address word : Nat)]⟩ := by
  simp only [ofWord, h, List.map_cons, List.map_nil, extract_eq, address, OperandKind.width,
    Opcode.address, Nat.pow_zero, Nat.div_one, Nat.reducePow]

theorem ofWord_register (h : m.fields = [first]) (word : Nat) :
    ofWord m word = ⟨m, [Opcode.x word]⟩ := by
  simp only [ofWord, h, List.map_cons, List.map_nil, extract_eq, first, OperandKind.width,
    Opcode.x, Nat.reducePow]

theorem ofWord_registers (h : m.fields = [first, second]) (word : Nat) :
    ofWord m word = ⟨m, [Opcode.x word, Opcode.y word]⟩ := by
  simp only [ofWord, h, List.map_cons, List.map_nil, extract_eq, first, second, OperandKind.width,
    Opcode.x, Opcode.y, Nat.reducePow]

theorem ofWord_byte (h : m.fields = [first, byte]) (word : Nat) :
    ofWord m word = ⟨m, [Opcode.x word, (Opcode.byte word : Nat)]⟩ := by
  simp only [ofWord, h, List.map_cons, List.map_nil, extract_eq, first, byte, OperandKind.width,
    Opcode.x, Opcode.byte, Nat.pow_zero, Nat.div_one, Nat.reducePow]

theorem ofWord_sprite (h : m.fields = [first, second, nibble]) (word : Nat) :
    ofWord m word = ⟨m, [Opcode.x word, Opcode.y word, (Opcode.nibble word : Nat)]⟩ := by
  simp only [ofWord, h, List.map_cons, List.map_nil, extract_eq, first, second, nibble,
    OperandKind.width, Opcode.x, Opcode.y, Opcode.nibble, Nat.pow_zero, Nat.div_one, Nat.reducePow]

end Instruction

namespace Processor

variable {τ : Type} {p : Processor τ} {m : Mnemonic} {x y : Fin 16}

theorem eq_ofWord {i : Instruction} (h : Instruction.decode p.fetch = some i) :
    i = .ofWord i.mnemonic p.fetch := by
  have hlt : p.fetch < 0x10000 := p.memory.readWord_lt p.pc
  rw [Instruction.decode_natCast hlt, Option.map_eq_some_iff] at h
  obtain ⟨m, -, rfl⟩ := h
  rfl

theorem eq_x_of_decode (hm : m.fields = [first])
    (h : Instruction.decode p.fetch = some ⟨m, [x]⟩) : x = Opcode.x p.fetch := by
  have hi := eq_ofWord h
  rw [Instruction.ofWord_register hm, Instruction.mk.injEq] at hi
  simpa only [List.cons.injEq, Int.natCast_inj, Fin.val_inj, and_true, true_and] using hi

theorem eq_x_y_of_decode (hm : m.fields = [first, second])
    (h : Instruction.decode p.fetch = some ⟨m, [x, y]⟩) :
    x = Opcode.x p.fetch ∧ y = Opcode.y p.fetch := by
  have hi := eq_ofWord h
  rw [Instruction.ofWord_registers hm, Instruction.mk.injEq] at hi
  simpa only [List.cons.injEq, Int.natCast_inj, Fin.val_inj, and_true, true_and] using hi

theorem eq_x_byte_of_decode {n : Nat} (hm : m.fields = [first, byte])
    (h : Instruction.decode p.fetch = some ⟨m, [x, n]⟩) :
    x = Opcode.x p.fetch ∧ n = Opcode.byte p.fetch := by
  have hi := eq_ofWord h
  rw [Instruction.ofWord_byte hm, Instruction.mk.injEq] at hi
  simpa only [List.cons.injEq, Int.natCast_inj, Fin.val_inj, and_true, true_and] using hi

end Processor

end Chip8
