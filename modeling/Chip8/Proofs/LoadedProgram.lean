import Chip8.Machine.Load
import Chip8.Proofs.ImageLayout
import Chip8.Proofs.MemoryCells
import Chip8.Proofs.OpcodeFields

namespace Chip8

open Assembly Time

namespace Memory

theorem readBlock_two (m : Memory) (a : Int) :
    m.readBlock a 2 = [m.readByte a, m.readByte (a + 1)] := by
  simp [readBlock, List.range_succ]

theorem readWord_of_readBlock {m : Memory} {a : Int} {word : Nat} (hw : word < 0x10000)
    (h : m.readBlock a 2 = wordBytes word) : m.readWord a = word := by
  rw [readBlock_two, wordBytes, List.cons.injEq, List.cons.injEq] at h
  obtain ⟨hhigh, hlow, -⟩ := h
  rw [readWord, hhigh, hlow, UInt8.toNat_ofNat', UInt8.toNat_ofNat']
  omega

theorem readByte_fresh_of_apart {a : Nat} (h : a < 0x50 ∨ 0xA0 ≤ a) (ha : a < 0x1000) :
    fresh.readByte a = 0 := by
  have hlength : font.length = 0x50 := rfl
  have hi : font.length ≤ (((a : Int) - fontStart) % 0x1000).toNat := by
    rw [hlength, fontStart]
    omega
  rw [readByte_fresh, List.getElem?_eq_none hi]
  rfl

theorem readByte_program {rom : List UInt8} (h : rom.length ≤ maxRom) {a : Nat} (ha : a < 0x1000)
    (hfont : a < 0x50 ∨ 0xA0 ≤ a) (hrom : a < programStart ∨ programStart + rom.length ≤ a) :
    (fresh.store programStart rom).readByte a = 0 := by
  have hmax : maxRom = 0xCA0 := rfl
  have hi : rom.length ≤ (((a : Int) - programStart) % 0x1000).toNat := by
    simp only [programStart] at hrom ⊢
    omega
  rw [readByte_store _ _ _ _ (by omega), List.getElem?_eq_none hi, Option.getD_none,
    readByte_fresh_of_apart hfont ha]

end Memory

namespace Assembly

/-- What memory holds at the place of a statement. -/
inductive Carries (labels : Labels) (memory : Memory) (s : Statement) : Prop
  | instruction {m : Mnemonic} {texts : List Text} {values : List Int}
    (item : s.item = .instruction m) (split : splitOperands s.operands = .ok texts)
    (length : texts.length = m.fields.length) (spelled : Spelled labels m texts values)
    (decoded : Instruction.decode (memory.readWord s.address) =
      some (Instruction.readBack ⟨m, values⟩))
  | data {t : Text} {bytes : List UInt8} (split : splitOperands s.operands = .ok [t])
    (spells : SpellsData s.item t bytes)
    (bytes : memory.readBlock s.address bytes.length = bytes)

theorem carries_of_readBlock {labels : Labels} {memory : Memory} {s : Statement}
    {bytes : List UInt8} (hb : s.bytes labels = .ok bytes)
    (hm : memory.readBlock s.address bytes.length = bytes) : Carries labels memory s := by
  obtain ⟨texts, hsplit, hlength, he⟩ := Statement.bytes_eq_ok.mp hb
  generalize hi : s.item = item at he hlength
  cases he with
  | instruction hs hw =>
    have hword := Memory.readWord_of_readBlock (Instruction.encode_lt hw) hm
    exact .instruction hi hsplit hlength hs (hword ▸ Instruction.decode_encode hw)
  | data hs => exact .data hsplit (hi ▸ hs) hm

end Assembly

theorem Processor.loadRom_eq_ok {τ : Type} {p q : Processor τ} {rom : List UInt8} :
    p.loadRom rom = .ok q ↔ rom.length ≤ Memory.maxRom ∧
      q = { p with memory := p.memory.store Memory.programStart rom, rom } := by
  rw [loadRom, Except.map_eq_ok, Memory.loadRom]
  split_ifs with h
  · simp only [false_and, exists_false, Nat.not_le.mpr h]
  · simp only [Except.ok.injEq, exists_eq_left', Nat.not_lt.mp h, true_and, @eq_comm _ q]

namespace Machine

variable {κ τ : Type} [Measure τ]

theorem loadRom_eq_ok (m : Machine κ τ) {rom : List UInt8} (h : rom.length ≤ Memory.maxRom) :
    (m.loadRom rom).2 = .ok () ∧
      (m.loadRom rom).1.processor.memory = Memory.fresh.store Memory.programStart rom := by
  have hload := (Processor.loadRom_eq_ok (p := m.processor)).mpr ⟨h, rfl⟩
  rw [loadRom, hload]
  exact ⟨rfl, rfl⟩

theorem loadSource_of_rom (m : Machine κ τ) {source : Text} {rom : List UInt8}
    (h : (assemble Memory.programStart source).rom = .ok rom) :
    m.loadSource source =
      (m.logAll (assemble Memory.programStart source).logEntries).loadRom rom := by
  simp only [loadSource, h]

theorem loadSource_carries (m : Machine κ τ) {source : Text} {rom : List UInt8}
    (h : (assemble Memory.programStart source).rom = .ok rom) (hsize : rom.length ≤ 3232) :
    (m.loadSource source).2 = .ok () ∧
    (assemble Memory.programStart source).statements.map
      (fun s => (s.number, s.raw, s.item, s.operands)) = itemsFrom 1 (Text.lines source) ∧
    (∀ s ∈ (assemble Memory.programStart source).statements,
      Carries (assemble Memory.programStart source).labels
        (m.loadSource source).1.processor.memory s) ∧
    ∀ a < 0x1000, (a < 0x050 ∨ 0x0A0 ≤ a) → (a < 0x200 ∨ 0x200 + rom.length ≤ a) →
      (m.loadSource source).1.processor.memory.readByte (a : Nat) = 0 := by
  obtain ⟨-, hs, he⟩ := assemble_eq_ok h
  have hload := loadRom_eq_ok
    (m.logAll (assemble Memory.programStart source).logEntries) hsize
  rw [loadSource_of_rom m h]
  refine ⟨hload.1, by rw [hs, items_statementsFrom], ?_, ?_⟩
  · intro s hmem
    obtain ⟨i, hi, rfl⟩ := List.getElem_of_mem hmem
    obtain ⟨bytes, hb, himage⟩ := emit_getElem he hi
    have haddress := address_statementsFrom Memory.programStart 1 (Text.lines source) i
      (by simpa only [hs] using hi)
    simp only [← hs] at haddress
    have hwidth := Statement.width_pos (assemble Memory.programStart source).statements[i]
    have hlength := Statement.bytes_length hb
    have hfits := congrArg List.length himage
    rw [List.length_take, List.length_drop, hlength] at hfits
    apply carries_of_readBlock hb
    rw [hload.2, haddress, hlength, Memory.readBlock_store _ _ _ _ _ (by omega) (by omega), himage]
  · intro a ha hfont hrom
    rw [hload.2]
    exact Memory.readByte_program hsize ha hfont hrom

theorem loadSource_carries_mixed :
    (assemble 0x200 "SYS $0E0\nL: LOAD VA, 16\nJUMP L\nDB $1..1.11.".toList).rom =
        .ok [0x00, 0xE0, 0x6A, 0x10, 0x12, 0x02, 0x96] ∧
      ∃ m : Machine (VirtualClock Float) Float,
        new { windowed := false } (.start 0 0) default = .ok m ∧
        ∀ s ∈ (assemble 0x200 "SYS $0E0\nL: LOAD VA, 16\nJUMP L\nDB $1..1.11.".toList).statements,
          Carries [(['L'], 0x202)] (m.loadSource
            "SYS $0E0\nL: LOAD VA, 16\nJUMP L\nDB $1..1.11.".toList).1.processor.memory s :=
  ⟨by rfl, _, rfl, (loadSource_carries _ (by rfl) (by decide)).2.2.1⟩

end Machine

end Chip8
