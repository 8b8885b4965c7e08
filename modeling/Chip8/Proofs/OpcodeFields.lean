import Chip8.Instruction.Opcode
import Chip8.Proofs.Outcomes
import Mathlib.Algebra.Order.Ring.Nat

namespace Chip8

namespace Text

/-- A number with no more decimal digits than are ever written. -/
def Writable (n : Int) : Prop := n.natAbs < 10 ^ maxDigits

theorem length_digits_le_iff (n : Int) : (digits 10 n.natAbs).length ≤ maxDigits ↔ Writable n := by
  rw [digits, List.length_map]
  exact Nat.length_toDigits_le_iff (by decide) (by decide)

end Text

namespace OperandField

def packed (fields : List OperandField) (values : List Int) : Nat :=
  (fields.zipWith (fun f v => v.toNat * 2 ^ f.shift) values).sum

theorem packed_nil (values : List Int) : packed [] values = 0 := rfl

theorem packed_cons (f : OperandField) (fields : List OperandField) (v : Int) (values : List Int) :
    packed (f :: fields) (v :: values) = v.toNat * 2 ^ f.shift + packed fields values := by
  rw [packed, List.zipWith_cons_cons, List.sum_cons, packed]

def Fits (f : OperandField) (value : Int) : Prop := 0 ≤ value ∧ value < f.capacity

theorem capacity_eq (f : OperandField) : f.capacity = 2 ^ f.kind.width := by
  rw [capacity, Nat.one_shiftLeft]

theorem extract_eq (f : OperandField) (word : Nat) :
    f.extract word = word / 2 ^ f.shift % 2 ^ f.kind.width := by
  rw [extract, Nat.shiftRight_eq_div_pow, capacity_eq]

theorem place_eq_ok {f : OperandField} {value : Int} {bits : Nat} :
    f.place value = .ok bits ↔ f.Fits value ∧ bits = value.toNat * 2 ^ f.shift := by
  simp only [place, Fits, Nat.shiftLeft_eq]
  split_ifs with h
  · simp only [h, true_and, Except.ok.injEq, eq_comm, and_true]
  · simp [h]

theorem refusal_of_writable (f : OperandField) {value : Int} (h : Text.Writable value) :
    f.refusal value = .error (.outOfRange f.kind value) :=
  if_neg (Nat.not_lt.mpr ((Text.length_digits_le_iff value).mpr h))

theorem refusal_of_not_writable (f : OperandField) {value : Int} (h : ¬Text.Writable value) :
    f.refusal value = .endlessNumeral (Text.digits 10 value.natAbs).length := by
  rw [← Text.length_digits_le_iff, Nat.not_le] at h
  exact if_pos h

theorem place_eq_error {f : OperandField} {value : Int} {i : Interruption EncodingError} :
    f.place value = .error i ↔ ¬f.Fits value ∧ i = f.refusal value := by
  simp only [place, Fits]
  split_ifs with h
  · simp [h]
  · simp only [Except.error.injEq, h, not_false_eq_true, true_and]
    exact eq_comm

theorem extract_fits (f : OperandField) (word : Nat) : f.Fits (f.extract word) := by
  have hpos : 0 < f.capacity := f.capacity_eq ▸ Nat.two_pow_pos _
  have hlt : f.extract word < f.capacity := Nat.mod_lt _ hpos
  exact ⟨by omega, by omega⟩

theorem mapM_place_eq_ok {fields : List OperandField} {values : List Int} {parts : List Nat}
    (h : values.length = fields.length) :
    (fields.zip values).mapM (fun (f, v) => f.place v) = .ok parts ↔
      List.Forall₂ Fits fields values ∧
        parts = fields.zipWith (fun f v => v.toNat * 2 ^ f.shift) values := by
  rw [List.mapM_eq_ok]
  induction fields generalizing values parts with
  | nil =>
    obtain rfl := List.length_eq_zero_iff.mp h
    simp
  | cons f fields ih =>
    obtain ⟨v, values, rfl⟩ := List.exists_cons_of_length_eq_add_one h
    have ih := fun parts => @ih values parts (by simpa using h)
    simp only [List.zip_cons_cons, List.zipWith_cons_cons, List.forall₂_cons]
    simp only [List.forall₂_cons_left_iff, ih]
    simp only [place_eq_ok]
    constructor
    · rintro ⟨_, _, ⟨hv, rfl⟩, ⟨hvs, rfl⟩, rfl⟩
      exact ⟨⟨hv, hvs⟩, rfl⟩
    · rintro ⟨⟨hv, hvs⟩, rfl⟩
      exact ⟨_, _, ⟨hv, rfl⟩, ⟨hvs, rfl⟩, rfl⟩

end OperandField

open OperandField

namespace Mnemonic

theorem mem_all (m : Mnemonic) : m ∈ all := by
  cases m <;> decide

theorem fields_cases (m : Mnemonic) :
    m.fields = [] ∨ m.fields = [address] ∨ m.fields = [first] ∨ m.fields = [first, second] ∨
      m.fields = [first, byte] ∨ m.fields = [first, second, nibble] := by
  cases m <;> decide

theorem base_lt (m : Mnemonic) : m.base < 0x10000 := by
  cases m <;> decide

theorem extract_base (m : Mnemonic) : ∀ f ∈ m.fields, f.extract m.base = 0 := by
  cases m <;> decide

end Mnemonic

theorem land_ends {word k : Nat} (h : word < 0x10000) (hk : k ≤ 12) :
    word &&& (2 ^ 12 * 15 + (2 ^ k - 1)) = 2 ^ 12 * (word / 2 ^ 12) + word % 2 ^ k := by
  have hpos := Nat.two_pow_pos k
  have hle : 2 ^ k ≤ 2 ^ 12 := Nat.pow_le_pow_right (by decide) hk
  rw [← Nat.div_add_mod (word &&& (2 ^ 12 * 15 + (2 ^ k - 1))) (2 ^ 12), Nat.and_div_two_pow,
    Nat.and_mod_two_pow, Nat.mul_add_div (by decide), Nat.mul_add_mod,
    Nat.div_eq_of_lt (show 2 ^ k - 1 < 2 ^ 12 by omega),
    Nat.mod_eq_of_lt (show 2 ^ k - 1 < 2 ^ 12 by omega), Nat.and_two_pow_sub_one_eq_mod,
    Nat.mod_mod_of_dvd word (Nat.pow_dvd_pow 2 hk), Nat.add_zero,
    show 15 = 2 ^ 4 - 1 from rfl, Nat.and_two_pow_sub_one_eq_mod]
  omega

namespace Mnemonic

theorem land_mask_add_packed (m : Mnemonic) {word : Nat} (h : word < 0x10000) :
    (word &&& m.mask) + packed m.fields (m.fields.map (fun f => (f.extract word : Int))) = word := by
  rcases m.fields_cases with hf | hf | hf | hf | hf | hf
  · have hm : m.mask = 2 ^ 16 - 1 := by rw [mask, hf]; rfl
    rw [hm, Nat.and_two_pow_sub_one_eq_mod, hf]
    simp only [List.map_nil, packed_nil]
    omega
  · have hm : m.mask = 2 ^ 12 * 15 + (2 ^ 0 - 1) := by rw [mask, hf]; rfl
    rw [hm, land_ends h (by decide), hf]
    simp only [List.map_cons, List.map_nil, packed_cons, packed_nil, Int.toNat_natCast, extract_eq,
      address, OperandKind.width]
    omega
  · have hm : m.mask = 2 ^ 12 * 15 + (2 ^ 8 - 1) := by rw [mask, hf]; rfl
    rw [hm, land_ends h (by decide), hf]
    simp only [List.map_cons, List.map_nil, packed_cons, packed_nil, Int.toNat_natCast, extract_eq,
      first, OperandKind.width]
    omega
  · have hm : m.mask = 2 ^ 12 * 15 + (2 ^ 4 - 1) := by rw [mask, hf]; rfl
    rw [hm, land_ends h (by decide), hf]
    simp only [List.map_cons, List.map_nil, packed_cons, packed_nil, Int.toNat_natCast, extract_eq,
      first, second, OperandKind.width]
    omega
  · have hm : m.mask = 2 ^ 12 * 15 + (2 ^ 0 - 1) := by rw [mask, hf]; rfl
    rw [hm, land_ends h (by decide), hf]
    simp only [List.map_cons, List.map_nil, packed_cons, packed_nil, Int.toNat_natCast, extract_eq,
      first, byte, OperandKind.width]
    omega
  · have hm : m.mask = 2 ^ 12 * 15 + (2 ^ 0 - 1) := by rw [mask, hf]; rfl
    rw [hm, land_ends h (by decide), hf]
    simp only [List.map_cons, List.map_nil, packed_cons, packed_nil, Int.toNat_natCast, extract_eq,
      first, second, nibble, OperandKind.width]
    omega

theorem base_add_packed (m : Mnemonic) {values : List Int} (h : List.Forall₂ Fits m.fields values) :
    m.base + packed m.fields values < 0x10000 ∧
      m.fields.map (fun f => (f.extract (m.base + packed m.fields values) : Int)) = values := by
  have hbase := m.extract_base
  have hlt := m.base_lt
  rcases m.fields_cases with hf | hf | hf | hf | hf | hf
  all_goals
    rw [hf] at h hbase ⊢
    simp only [List.forall₂_cons_left_iff, List.forall₂_nil_left_iff] at h
  · obtain rfl := h
    exact ⟨hlt, rfl⟩
  · obtain ⟨a, _, ha, rfl, rfl⟩ := h
    simp [packed, Fits, extract_eq, capacity_eq, address, OperandKind.width] at ha hbase ⊢
    omega
  · obtain ⟨x, _, hx, rfl, rfl⟩ := h
    simp [packed, Fits, extract_eq, capacity_eq, first, OperandKind.width] at hx hbase ⊢
    omega
  · obtain ⟨x, _, hx, ⟨y, _, hy, rfl, rfl⟩, rfl⟩ := h
    simp [packed, Fits, extract_eq, capacity_eq, first, second, OperandKind.width] at hx hy hbase ⊢
    omega
  · obtain ⟨x, _, hx, ⟨b, _, hb, rfl, rfl⟩, rfl⟩ := h
    simp [packed, Fits, extract_eq, capacity_eq, first, byte, OperandKind.width] at hx hb hbase ⊢
    omega
  · obtain ⟨x, _, hx, ⟨y, _, hy, ⟨n, _, hn, rfl, rfl⟩, rfl⟩, rfl⟩ := h
    simp [packed, Fits, extract_eq, capacity_eq, first, second, nibble, OperandKind.width]
      at hx hy hn hbase ⊢
    omega

theorem accepts_iff (m : Mnemonic) {word : Nat} (h : word < 0x10000) :
    m.accepts word = true ↔
      word = m.base + packed m.fields (m.fields.map (fun f => (f.extract word : Int))) := by
  have hw := m.land_mask_add_packed h
  simp only [accepts, beq_iff_eq]
  omega

theorem accepts_base_add_packed (m : Mnemonic) {values : List Int}
    (h : List.Forall₂ Fits m.fields values) :
    m.accepts (m.base + packed m.fields values) = true := by
  obtain ⟨hlt, hv⟩ := m.base_add_packed h
  rw [m.accepts_iff hlt, hv]

theorem disjoint_rows : ∀ m ∈ all, ∀ n ∈ all, m.base &&& n.mask = n.base &&& m.mask →
    m = n ∨ (m = sys ∧ (n = clr ∨ n = rts)) ∨ (n = sys ∧ (m = clr ∨ m = rts)) := by
  decide +kernel

theorem eq_or_of_accepts {m n : Mnemonic} {word : Nat}
    (hm : m.accepts word = true) (hn : n.accepts word = true) :
    m = n ∨ (m = sys ∧ (n = clr ∨ n = rts)) ∨ (n = sys ∧ (m = clr ∨ m = rts)) := by
  simp only [accepts, beq_iff_eq] at hm hn
  apply disjoint_rows m m.mem_all n n.mem_all
  rw [← hm, ← hn, Nat.and_assoc, Nat.and_assoc, Nat.and_comm m.mask]

end Mnemonic

namespace Instruction

theorem foldl_add (base : Nat) (parts : List Nat) :
    parts.foldl (· + ·) base = base + parts.sum := by
  have hassoc : parts.foldl (· + ·) (base + 0) = base + parts.foldl (· + ·) 0 := List.foldl_assoc
  rw [List.sum_eq_foldl, ← hassoc, Nat.add_zero]

theorem encode_eq_ok {i : Instruction} {word : Nat} :
    i.encode = .ok word ↔ List.Forall₂ Fits i.mnemonic.fields i.operands ∧
      word = i.mnemonic.base + packed i.mnemonic.fields i.operands := by
  simp only [encode]
  split_ifs with h
  · constructor
    · intro he
      cases he
    · rintro ⟨hf, -⟩
      exact absurd hf.length_eq.symm h
  · simp only [Except.bind_eq_ok, mapM_place_eq_ok (not_not.mp h), pure, Except.pure,
      Except.ok.injEq, foldl_add, packed]
    constructor
    · rintro ⟨parts, ⟨hf, rfl⟩, rfl⟩
      exact ⟨hf, rfl⟩
    · rintro ⟨hf, rfl⟩
      exact ⟨_, ⟨hf, rfl⟩, rfl⟩

theorem encode_eq_refusal {m : Mnemonic} {values : List Int} {i : Interruption EncodingError}
    (h : values.length = m.fields.length) : (⟨m, values⟩ : Instruction).encode = .error i ↔
      ∃ front f v back, m.fields.zip values = front ++ (f, v) :: back ∧
        (∀ p ∈ front, p.1.Fits p.2) ∧ ¬f.Fits v ∧ i = f.refusal v := by
  have hplace (p : OperandField × Int) : (∃ bits, p.1.place p.2 = .ok bits) ↔ p.1.Fits p.2 := by
    simp only [place_eq_ok, exists_and_left, exists_eq, and_true]
  rw [encode, if_neg (not_not.mpr h), Except.bind_eq_error, List.mapM_eq_error]
  simp only [hplace, place_eq_error, Prod.exists]
  constructor
  · rintro (hfront | ⟨_, _, ⟨⟩⟩)
    exact hfront
  · exact .inl

theorem encode_lt {i : Instruction} {word : Nat} (h : i.encode = .ok word) : word < 0x10000 := by
  obtain ⟨hf, rfl⟩ := encode_eq_ok.mp h
  exact (i.mnemonic.base_add_packed hf).1

theorem decode_natCast {word : Nat} (h : word < 0x10000) :
    decode word = (decodeOrder.find? (·.accepts word)).map (ofWord · word) := by
  have hw : ((word : Int) % 0x10000).toNat = word := by omega
  simp only [decode, hw]

theorem mem_decodeOrder (m : Mnemonic) : m ∈ decodeOrder := by
  cases m <;> decide

theorem decode_of_accepts {m : Mnemonic} {word : Nat} (h : word < 0x10000)
    (hm : m.accepts word = true) (hsys : m = .sys → word ≠ 0x0E0 ∧ word ≠ 0x0EE) :
    decode word = some (ofWord m word) := by
  have hclr : Mnemonic.clr.accepts word = true → word = 0x0E0 := by
    rw [Mnemonic.accepts_iff _ h]
    exact id
  have hrts : Mnemonic.rts.accepts word = true → word = 0x0EE := by
    rw [Mnemonic.accepts_iff _ h]
    exact id
  obtain ⟨n, hn⟩ : ∃ n, decodeOrder.find? (·.accepts word) = some n := by
    rw [← Option.isSome_iff_exists, List.find?_isSome]
    exact ⟨m, mem_decodeOrder m, hm⟩
  have hacc : n.accepts word = true := by simpa only using List.find?_some hn
  rw [decode_natCast h]
  rcases Mnemonic.eq_or_of_accepts hm hacc with rfl | ⟨rfl, rfl | rfl⟩ | ⟨rfl, rfl | rfl⟩
  · rw [hn, Option.map_some]
  · exact absurd (hclr hacc) (hsys rfl).1
  · exact absurd (hrts hacc) (hsys rfl).2
  · rw [hclr hm]
    rfl
  · rw [hrts hm]
    rfl

def readBack (i : Instruction) : Instruction :=
  if i = ⟨.sys, [0x0E0]⟩ then ⟨.clr, []⟩ else if i = ⟨.sys, [0x0EE]⟩ then ⟨.rts, []⟩ else i

theorem encode_sys {i : Instruction} {word : Nat} (h : i.encode = .ok word)
    (hm : i.mnemonic = .sys) : i = ⟨.sys, [(word : Int)]⟩ := by
  obtain ⟨m, values⟩ := i
  obtain rfl : m = .sys := hm
  obtain ⟨hf, rfl⟩ := encode_eq_ok.mp h
  simp only [Mnemonic.fields, Mnemonic.shape, List.forall₂_cons_left_iff,
    List.forall₂_nil_left_iff] at hf
  obtain ⟨a, _, ha, rfl, rfl⟩ := hf
  have hpos := ha.1
  simp [packed, Mnemonic.base, Mnemonic.fields, Mnemonic.shape, address]
  omega

theorem decode_encode {i : Instruction} {word : Nat} (h : i.encode = .ok word) :
    decode word = some i.readBack := by
  obtain ⟨hf, hw⟩ := encode_eq_ok.mp h
  obtain ⟨hlt, hv⟩ := i.mnemonic.base_add_packed hf
  have hacc := i.mnemonic.accepts_base_add_packed hf
  rw [← hw] at hlt hv hacc
  have hof : ofWord i.mnemonic word = i := by rw [ofWord, hv]
  simp only [readBack]
  split_ifs with hclr hrts
  · have he : (⟨.sys, [0x0E0]⟩ : Instruction).encode = .ok 0x0E0 := rfl
    rw [hclr, he, Except.ok.injEq] at h
    rw [← h]
    rfl
  · have he : (⟨.sys, [0x0EE]⟩ : Instruction).encode = .ok 0x0EE := rfl
    rw [hrts, he, Except.ok.injEq] at h
    rw [← h]
    rfl
  · rw [decode_of_accepts hlt hacc, hof]
    intro hm
    have hi := encode_sys h hm
    constructor
    · rintro rfl
      exact hclr hi
    · rintro rfl
      exact hrts hi

theorem encode_decode {i : Instruction} {word : Nat} (h : word < 0x10000)
    (hd : decode word = some i) : i.encode = .ok word := by
  rw [decode_natCast h, Option.map_eq_some_iff] at hd
  obtain ⟨m, hm, rfl⟩ := hd
  have hacc : m.accepts word = true := by simpa only using List.find?_some hm
  refine encode_eq_ok.mpr ⟨?_, (m.accepts_iff h).mp hacc⟩
  simp only [ofWord, List.forall₂_map_right_iff, List.forall₂_same]
  exact fun f _ => f.extract_fits word

end Instruction

end Chip8
