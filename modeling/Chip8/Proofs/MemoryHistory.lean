import Chip8.Proofs.MemoryCells
import Mathlib.Data.List.Induction
import Mathlib.Tactic.SplitIfs

namespace Chip8.Memory

inductive Operation where
  | clear
  | installFont
  | loadRom (rom : List UInt8)
  | writeByte (address value : Int)
  | writeWord (address value : Int)

def splice (bytes : List UInt8) (start : Nat) (block : List UInt8) : List UInt8 :=
  bytes.take start ++ block ++ bytes.drop (start + block.length)

def placed (start : Int) : List UInt8 → List (Int × UInt8)
  | [] => []
  | b :: bs => (start, b) :: placed (start + 1) bs

namespace Operation

def puts : Operation → List (Int × UInt8)
  | clear => placed 0 (List.replicate 0x1000 0) ++ placed fontStart font
  | installFont => placed fontStart font
  | loadRom rom => if maxRom < rom.length then [] else placed programStart rom
  | writeByte address value => [(address, Bits.low value)]
  | writeWord address value => [(address, Bits.low (value / 256)), (address + 1, Bits.low value)]

def edit (bytes : List UInt8) : Operation → List UInt8
  | clear => splice (List.replicate 0x1000 0) fontStart font
  | installFont => splice bytes fontStart font
  | loadRom rom => if maxRom < rom.length then bytes else splice bytes programStart rom
  | writeByte address value => bytes.set (slot address) (Bits.low value)
  | writeWord address value =>
    (bytes.set (slot address) (Bits.low (value / 256))).set (slot (address + 1)) (Bits.low value)

end Operation

def operate (m : Memory) : Operation → Memory
  | .clear => fresh
  | .installFont => m.installFont
  | .loadRom rom => (m.loadRom rom).toOption.getD m
  | .writeByte address value => m.writeByte address value
  | .writeWord address value => m.writeWord address value

def operated (operations : List Operation) : Memory := operations.foldl operate fresh

def edited (operations : List Operation) : List UInt8 :=
  operations.foldl Operation.edit (Operation.clear.edit [])

/-- The byte put last at any of the addresses of a cell. -/
def Latest (puts : List (Int × UInt8)) (a : Int) (byte : UInt8) : Prop :=
  ∃ earlier b later, puts = earlier ++ (b, byte) :: later ∧ b % 0x1000 = a % 0x1000 ∧
    ∀ p ∈ later, p.1 % 0x1000 ≠ a % 0x1000

def putAll (m : Memory) (puts : List (Int × UInt8)) : Memory :=
  puts.foldl (fun m p => m.put p.1 p.2) m

section Puts

theorem putAll_append (m : Memory) (ps qs : List (Int × UInt8)) :
    m.putAll (ps ++ qs) = (m.putAll ps).putAll qs := List.foldl_append

theorem store_eq_putAll (m : Memory) (a : Int) (bytes : List UInt8) :
    m.store a bytes = m.putAll (placed a bytes) := by
  induction bytes generalizing m a with
  | nil => rfl
  | cons b bs ih => rw [store, ih]; rfl

theorem store_zeros (m : Memory) :
    m.store 0 (List.replicate 0x1000 0) = ⟨Vector.replicate 0x1000 0⟩ := by
  apply ext_readByte
  intro c
  have hc : ((c - 0) % 0x1000).toNat < 0x1000 := by omega
  rw [readByte_store _ _ _ _ (Nat.le_of_eq List.length_replicate),
    List.getElem?_replicate_of_lt hc, Option.getD_some]
  simp only [readByte, Fin.getElem_fin, Vector.getElem_replicate]

theorem operate_loadRom (m : Memory) (rom : List UInt8) :
    m.operate (.loadRom rom) = if maxRom < rom.length then m else m.store programStart rom := by
  rw [operate, loadRom]
  split_ifs <;> rfl

theorem operate_eq_putAll (m : Memory) (op : Operation) : m.operate op = m.putAll op.puts := by
  cases op with
  | clear =>
    rw [Operation.puts, putAll_append, ← store_eq_putAll, ← store_eq_putAll, store_zeros]
    rfl
  | installFont => exact store_eq_putAll m fontStart font
  | loadRom rom =>
    rw [operate_loadRom, Operation.puts]
    split_ifs
    · rfl
    · exact store_eq_putAll m programStart rom
  | writeByte address value => rfl
  | writeWord address value => rfl

theorem foldl_operate_eq_putAll (operations : List Operation) (m : Memory) :
    operations.foldl operate m = m.putAll (operations.flatMap Operation.puts) := by
  induction operations generalizing m with
  | nil => rfl
  | cons op rest ih =>
    rw [List.foldl_cons, ih, operate_eq_putAll, List.flatMap_cons, putAll_append]

theorem latest_putAll (m : Memory) {puts : List (Int × UInt8)} {a : Int}
    (h : ∃ p ∈ puts, p.1 % 0x1000 = a % 0x1000) : Latest puts a ((m.putAll puts).readByte a) := by
  induction puts using List.reverseRecOn with
  | nil =>
    obtain ⟨p, hp, -⟩ := h
    cases hp
  | append_singleton puts p ih =>
    have hread : (m.putAll (puts ++ [p])).readByte a =
        if a % 0x1000 = p.1 % 0x1000 then p.2 else (m.putAll puts).readByte a := by
      rw [putAll_append]
      exact readByte_put _ _ _ _
    rw [hread]
    by_cases hlast : a % 0x1000 = p.1 % 0x1000
    · rw [if_pos hlast]
      exact ⟨puts, p.1, [], rfl, hlast.symm, by simp⟩
    · rw [if_neg hlast]
      obtain ⟨q, hq, hcell⟩ := h
      have hbefore : q ∈ puts := by
        rcases List.mem_append.mp hq with hq | hq
        · exact hq
        · rw [List.mem_singleton.mp hq] at hcell
          exact absurd hcell.symm hlast
      obtain ⟨earlier, b, later, hsplit, hb, hlater⟩ := ih ⟨q, hbefore, hcell⟩
      have hsplit' : puts ++ [p] =
          earlier ++ (b, (m.putAll puts).readByte a) :: (later ++ [p]) := by
        rw [← List.cons_append, ← List.append_assoc, ← hsplit]
      refine ⟨earlier, b, later ++ [p], hsplit', hb, ?_⟩
      intro r hr
      rcases List.mem_append.mp hr with hr | hr
      · exact hlater r hr
      · rw [List.mem_singleton.mp hr]
        exact Ne.symm hlast

theorem exists_mem_placed {start a : Int} {bytes : List UInt8}
    (h : ((a - start) % 0x1000).toNat < bytes.length) :
    ∃ p ∈ placed start bytes, p.1 % 0x1000 = a % 0x1000 := by
  induction bytes generalizing start with
  | nil => exact absurd h (Nat.not_lt_zero _)
  | cons b bs ih =>
    by_cases hstart : start % 0x1000 = a % 0x1000
    · exact ⟨(start, b), List.mem_cons_self, hstart⟩
    · rw [List.length_cons] at h
      obtain ⟨p, hp, hcell⟩ := @ih (start + 1) (by omega)
      exact ⟨p, List.mem_cons_of_mem _ hp, hcell⟩

theorem exists_mem_puts_clear (a : Int) :
    ∃ p ∈ Operation.clear.puts, p.1 % 0x1000 = a % 0x1000 := by
  obtain ⟨p, hp, hcell⟩ := @exists_mem_placed 0 a (List.replicate 0x1000 0)
    (by rw [List.length_replicate]; omega)
  exact ⟨p, List.mem_append_left _ hp, hcell⟩

end Puts

section Buffer

theorem splice_set {bytes : List UInt8} {start : Nat} (b : UInt8) (block : List UInt8)
    (h : start < bytes.length) :
    splice (bytes.set start b) (start + 1) block = splice bytes start (b :: block) := by
  have htake : (bytes.set start b).take (start + 1) = bytes.take start ++ [b] := by
    rw [List.take_add_one, List.take_set_of_le (Nat.le_refl start), List.getElem?_set_self h]
    rfl
  have hdrop : (bytes.set start b).drop (start + 1 + block.length) =
      bytes.drop (start + (b :: block).length) := by
    rw [List.drop_set_of_lt (by omega), List.length_cons, Nat.add_assoc, Nat.add_comm 1]
  rw [splice, splice, htake, hdrop, List.append_assoc _ [b], List.singleton_append]

theorem toList_put (m : Memory) (a : Int) (byte : UInt8) :
    (m.put a byte).cells.toList = m.cells.toList.set (slot a) byte :=
  Vector.toList_set (slot a).isLt

theorem toList_store (m : Memory) {start : Nat} (block : List UInt8)
    (h : start + block.length ≤ 0x1000) :
    (m.store start block).cells.toList = splice m.cells.toList start block := by
  induction block generalizing m start with
  | nil => simp [store, splice]
  | cons b bs ih =>
    rw [List.length_cons] at h
    have hstart : start < m.cells.toList.length := by
      rw [Vector.length_toList]
      omega
    have hslot : (slot start).val = start := by
      simp only [slot]
      omega
    have hnext : ((start : Int) + 1) = (start + 1 : Nat) := rfl
    rw [store, hnext, ih _ (by omega), toList_put, hslot, splice_set b bs hstart]

theorem toList_installFont (m : Memory) :
    m.installFont.cells.toList = splice m.cells.toList fontStart font :=
  toList_store m font (by decide)

theorem toList_fresh : fresh.cells.toList = Operation.clear.edit [] := by
  rw [fresh, toList_installFont, Vector.toList_replicate, Operation.edit]

theorem toList_operate (m : Memory) (op : Operation) :
    (m.operate op).cells.toList = op.edit m.cells.toList := by
  cases op with
  | clear => exact toList_fresh
  | installFont => exact toList_installFont m
  | loadRom rom =>
    rw [operate_loadRom, Operation.edit]
    split_ifs with h
    · rfl
    · have hmax : programStart + maxRom ≤ 0x1000 := by decide
      exact toList_store m rom (by omega)
  | writeByte address value => exact toList_put _ _ _
  | writeWord address value =>
    rw [operate, writeWord, writeByte, writeByte, toList_put, toList_put, Operation.edit]

theorem toList_operated (operations : List Operation) :
    (operated operations).cells.toList = edited operations := by
  induction operations using List.reverseRecOn with
  | nil => exact toList_fresh
  | append_singleton operations op ih =>
    rw [operated, edited, List.foldl_append, List.foldl_append, ← operated, ← edited, ← ih]
    exact toList_operate _ _

theorem length_edited (operations : List Operation) : (edited operations).length = 0x1000 := by
  rw [← toList_operated, Vector.length_toList]

end Buffer

section Images

variable (operations : List Operation) {rom : List UInt8}

theorem operated_concat (op : Operation) :
    operated (operations ++ [op]) = (operated operations).operate op := List.foldl_append

theorem refused_loadRom (h : maxRom < rom.length) :
    (operated operations).loadRom rom = .error ⟨rom.length, maxRom⟩ ∧
      operated (operations ++ [.loadRom rom]) = operated operations := by
  rw [operated_concat, operate_loadRom, if_pos h]
  exact ⟨if_pos h, rfl⟩

theorem accepted_loadRom (h : rom.length ≤ maxRom) :
    (operated operations).loadRom rom = .ok (operated (operations ++ [.loadRom rom])) := by
  rw [operated_concat, operate_loadRom, if_neg (Nat.not_lt.mpr h)]
  exact if_neg (Nat.not_lt.mpr h)

end Images

theorem history_latest (operations : List Operation) :
    (operated operations).cells.toList = edited operations ∧
    (edited operations).length = 0x1000 ∧
    (∀ a, Latest ((Operation.clear :: operations).flatMap Operation.puts) a
      ((operated operations).readByte a)) ∧
    (∀ a, (operated operations).readWord a =
      256 * ((operated operations).readByte a).toNat +
        ((operated operations).readByte (a + 1)).toNat) ∧
    (∀ a value, ((operated (operations ++ [.writeWord a value])).readWord a : Int) =
      value % 0x10000) ∧
    ∀ rom : List UInt8,
      (3232 < rom.length → (operated operations).loadRom rom = .error ⟨rom.length, 3232⟩ ∧
        operated (operations ++ [.loadRom rom]) = operated operations) ∧
      (rom.length ≤ 3232 →
        (operated operations).loadRom rom = .ok (operated (operations ++ [.loadRom rom]))) := by
  have hcleared : operated operations = fresh.putAll
      ((Operation.clear :: operations).flatMap Operation.puts) :=
    foldl_operate_eq_putAll (.clear :: operations) fresh
  refine ⟨toList_operated operations, length_edited operations, fun a => ?_, fun a => ?_,
    fun a value => ?_, fun rom => ⟨refused_loadRom operations, accepted_loadRom operations⟩⟩
  · obtain ⟨p, hp, hcell⟩ := exists_mem_puts_clear a
    rw [hcleared]
    exact latest_putAll fresh ⟨p, List.mem_append_left _ hp, hcell⟩
  · rw [readWord, Nat.mul_comm]
  · rw [operated_concat, operate, readWord_writeWord]
    omega

theorem history_latest_refused :
    3232 < (List.replicate 3233 (7 : UInt8)).length ∧
      operated ([.writeByte 0x1200 (-1)] ++ [.loadRom (List.replicate 3233 7)]) =
        operated [.writeByte 0x1200 (-1)] ∧
      (operated [.writeByte 0x1200 (-1)]).readByte (-0xE00) = 0xFF := by
  have hlength : 3232 < (List.replicate 3233 (7 : UInt8)).length := by
    rw [List.length_replicate]
    decide
  obtain ⟨-, -, -, -, -, hloads⟩ := history_latest [.writeByte 0x1200 (-1)]
  obtain ⟨-, hkept⟩ := (hloads (List.replicate 3233 7)).1 hlength
  exact ⟨hlength, hkept, readByte_writeByte fresh 0x1200 (-0xE00) (-1)⟩

end Chip8.Memory
