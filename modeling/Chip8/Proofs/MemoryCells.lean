import Chip8.Memory

namespace Chip8.Memory

theorem readByte_put (m : Memory) (a c : Int) (byte : UInt8) :
    (m.put a byte).readByte c = if c % 0x1000 = a % 0x1000 then byte else m.readByte c := by
  have h : (slot a).val = (slot c).val ↔ c % 0x1000 = a % 0x1000 := by
    simp only [slot]
    omega
  simp only [readByte, put, Fin.getElem_fin, Vector.getElem_set, h]

theorem ext_readByte {m n : Memory} (h : ∀ c, m.readByte c = n.readByte c) : m = n := by
  obtain ⟨cells⟩ := m
  obtain ⟨cells'⟩ := n
  congr 1
  ext i hi
  have hslot : slot (i : Int) = ⟨i, hi⟩ := Fin.ext (by simp only [slot]; omega)
  have hcell := h i
  simp only [readByte, hslot, Fin.getElem_fin] at hcell
  rw [hcell]

theorem readByte_emod (m : Memory) (a : Int) : m.readByte (a % 0x1000) = m.readByte a := by
  have hslot : slot (a % 0x1000) = slot a := Fin.ext (by simp only [slot]; omega)
  simp only [readByte, hslot]

theorem readWord_lt (m : Memory) (a : Int) : m.readWord a < 0x10000 := by
  have hhigh := (m.readByte a).toNat_lt
  have hlow := (m.readByte (a + 1)).toNat_lt
  rw [readWord]
  omega

theorem readByte_writeByte (m : Memory) (a c value : Int) :
    (m.writeByte a value).readByte c =
      if c % 0x1000 = a % 0x1000 then Bits.low value else m.readByte c :=
  readByte_put m a c _

theorem readByte_writeWord (m : Memory) (a c value : Int) :
    (m.writeWord a value).readByte c =
      if c % 0x1000 = (a + 1) % 0x1000 then Bits.low value
      else if c % 0x1000 = a % 0x1000 then Bits.low (value / 256) else m.readByte c := by
  simp only [writeWord, readByte_writeByte]

theorem readByte_writeWord_of_ne {m : Memory} {a c : Int} (value : Int)
    (h : ∀ b ∈ [a, a + 1], b % 0x1000 ≠ c % 0x1000) :
    (m.writeWord a value).readByte c = m.readByte c := by
  have hlow := h a List.mem_cons_self
  have hhigh := h (a + 1) (List.mem_cons_of_mem _ List.mem_cons_self)
  rw [readByte_writeWord, if_neg hhigh.symm, if_neg hlow.symm]

theorem toNat_low (n : Int) : (Bits.low n).toNat = (n % 256).toNat := by
  simp only [Bits.low, UInt8.toNat_ofNat']
  omega

theorem readWord_writeWord (m : Memory) (a value : Int) :
    (m.writeWord a value).readWord a = (value % 0x10000).toNat := by
  have ha : a % 0x1000 ≠ (a + 1) % 0x1000 := by omega
  simp only [readWord, readByte_writeWord, ha, if_false, if_true, toNat_low]
  omega

theorem readWord_writeWord_of_apart (m : Memory) (a c value : Int)
    (h : 2 ≤ (c - a) % 0x1000 ∧ (c - a) % 0x1000 ≤ 0xFFE) :
    (m.writeWord a value).readWord c = m.readWord c := by
  have h00 : c % 0x1000 ≠ a % 0x1000 := by omega
  have h01 : c % 0x1000 ≠ (a + 1) % 0x1000 := by omega
  have h10 : (c + 1) % 0x1000 ≠ a % 0x1000 := by omega
  have h11 : (c + 1) % 0x1000 ≠ (a + 1) % 0x1000 := by omega
  simp only [readWord, readByte_writeWord, h00, h01, h10, h11, if_false]

theorem readByte_store (m : Memory) (a c : Int) (bytes : List UInt8) (h : bytes.length ≤ 0x1000) :
    (m.store a bytes).readByte c =
      (bytes[((c - a) % 0x1000).toNat]?).getD (m.readByte c) := by
  induction bytes generalizing m a with
  | nil => rfl
  | cons b bs ih =>
    simp only [List.length_cons] at h
    rw [store, ih (m.put a b) (a + 1) (by omega), readByte_put]
    by_cases hc : c % 0x1000 = a % 0x1000
    · have h0 : ((c - a) % 0x1000).toNat = 0 := by omega
      have hlast : bs[((c - (a + 1)) % 0x1000).toNat]? = none :=
        List.getElem?_eq_none (by omega)
      simp only [h0, hlast, hc, if_true, List.getElem?_cons_zero, Option.getD_none, Option.getD_some]
    · have hi : ((c - a) % 0x1000).toNat = ((c - (a + 1)) % 0x1000).toNat + 1 := by omega
      simp only [hi, hc, if_false, List.getElem?_cons_succ]

theorem readBlock_store (m : Memory) (a : Int) (bytes : List UInt8) (i n : Nat)
    (h : bytes.length ≤ 0x1000) (hn : i + n ≤ bytes.length) :
    (m.store a bytes).readBlock (a + i) n = (bytes.drop i).take n := by
  apply List.ext_getElem
  · simp only [readBlock, List.length_map, List.length_range, List.length_take, List.length_drop]
    omega
  · intro j hj hj'
    simp only [readBlock, List.length_map, List.length_range] at hj
    have hk : ((a + (i : Int) + (j : Int) - a) % 0x1000).toNat = i + j := by omega
    simp only [readBlock, List.getElem_map, List.getElem_range, readByte_store _ _ _ _ h, hk,
      List.getElem_take, List.getElem_drop, List.getElem?_eq_getElem (show i + j < bytes.length by omega),
      Option.getD_some]

theorem readByte_fresh (c : Int) :
    fresh.readByte c = (font[((c - fontStart) % 0x1000).toNat]?).getD 0 := by
  rw [fresh, installFont, readByte_store _ _ _ _ (by decide)]
  simp only [readByte, Fin.getElem_fin, Vector.getElem_replicate]

end Chip8.Memory
