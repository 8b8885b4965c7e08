import Chip8.Proofs.OpcodeFields

namespace Chip8

open OperandField

namespace OperandField

theorem fits_iff (f : OperandField) (value : Int) :
    f.Fits value ↔ 0 ≤ value ∧ value ≤ 2 ^ f.kind.width - 1 := by
  have hcapacity : (f.capacity : Int) = 2 ^ f.kind.width := by
    rw [capacity_eq]
    push_cast
    rfl
  rw [Fits, hcapacity]
  omega

theorem add_eq_lor {f : OperandField} {word : Nat} {value : Int} (hword : f.extract word = 0)
    (hvalue : f.Fits value) :
    word + value.toNat * 2 ^ f.shift = word ||| value.toNat <<< f.shift := by
  have hfits : value.toNat < 2 ^ f.kind.width := by
    rw [← capacity_eq]
    exact (Int.toNat_lt hvalue.1).mpr hvalue.2
  -- the word is what lies above the field and what lies below it
  obtain ⟨high, hhigh⟩ : ∃ high, word / 2 ^ f.shift = high * 2 ^ f.kind.width := by
    rw [extract_eq] at hword
    exact (Nat.dvd_of_mod_eq_zero hword).imp fun _ h => h.trans (Nat.mul_comm _ _)
  have hlow : word % 2 ^ f.shift < 2 ^ f.shift := Nat.mod_lt _ (Nat.two_pow_pos _)
  have hsplit : word = high <<< f.kind.width <<< f.shift + word % 2 ^ f.shift := by
    rw [Nat.shiftLeft_eq, Nat.shiftLeft_eq, ← hhigh, Nat.div_add_mod']
  calc word + value.toNat * 2 ^ f.shift
      = (high <<< f.kind.width + value.toNat) <<< f.shift + word % 2 ^ f.shift := by
        rw [Nat.shiftLeft_eq _ f.shift, Nat.add_mul, ← Nat.shiftLeft_eq _ f.shift]
        omega
    _ = (high <<< f.kind.width ||| value.toNat) <<< f.shift ||| word % 2 ^ f.shift := by
        rw [Nat.shiftLeft_add_eq_or_of_lt hlow, Nat.shiftLeft_add_eq_or_of_lt hfits]
    _ = (high <<< f.kind.width <<< f.shift ||| word % 2 ^ f.shift) |||
          value.toNat <<< f.shift := by
        rw [Nat.shiftLeft_or_distrib, Nat.or_assoc, Nat.or_assoc,
          Nat.or_comm (value.toNat <<< f.shift)]
    _ = word ||| value.toNat <<< f.shift := by
        rw [← Nat.shiftLeft_add_eq_or_of_lt hlow, ← hsplit]

def Below (f g : OperandField) : Prop := g.shift + g.kind.width ≤ f.shift

instance (f g : OperandField) : Decidable (Below f g) := inferInstanceAs (Decidable (_ ≤ _))

theorem Below.extract_add {f g : OperandField} (h : Below f g) (word n : Nat) :
    g.extract (word + n * 2 ^ f.shift) = g.extract word := by
  obtain ⟨k, hk⟩ := Nat.exists_eq_add_of_le h
  have hshift : n * 2 ^ f.shift = 2 ^ g.shift * (2 ^ g.kind.width * (2 ^ k * n)) := by
    rw [hk, Nat.pow_add, Nat.pow_add]
    ac_rfl
  rw [extract_eq, extract_eq, hshift, Nat.add_mul_div_left _ _ (Nat.two_pow_pos _),
    Nat.add_mul_mod_self_left]

theorem add_packed_eq_lor {fields : List OperandField} {values : List Int}
    (hfits : List.Forall₂ Fits fields values) (hbelow : fields.Pairwise Below) {base : Nat}
    (hbase : ∀ f ∈ fields, f.extract base = 0) :
    base + packed fields values =
      (fields.zip values).foldl (fun bits p => bits ||| p.2.toNat <<< p.1.shift) base := by
  induction hfits generalizing base with
  | nil => rfl
  | @cons f v fields values hv _ ih =>
    obtain ⟨hf, hfields⟩ := List.pairwise_cons.mp hbelow
    have hnext : ∀ g ∈ fields, g.extract (base + v.toNat * 2 ^ f.shift) = 0 := by
      intro g hg
      rw [(hf g hg).extract_add]
      exact hbase g (List.mem_cons_of_mem _ hg)
    rw [packed_cons, ← Nat.add_assoc, ih hfields hnext, List.zip_cons_cons, List.foldl_cons,
      add_eq_lor (hbase f List.mem_cons_self) hv]

end OperandField

theorem Mnemonic.pairwise_below (m : Mnemonic) : m.fields.Pairwise Below := by
  cases m <;> decide

namespace Instruction

def Encodable (i : Instruction) : Prop :=
  i.operands.length = i.mnemonic.fields.length ∧
    ∀ p ∈ i.mnemonic.fields.zip i.operands, 0 ≤ p.2 ∧ p.2 ≤ 2 ^ p.1.kind.width - 1

theorem encodable_iff (i : Instruction) :
    i.Encodable ↔ List.Forall₂ Fits i.mnemonic.fields i.operands := by
  rw [List.forall₂_iff_zip, Encodable]
  constructor
  · rintro ⟨hlength, hfits⟩
    exact ⟨hlength.symm, fun {f v} hp => (f.fits_iff v).mpr (hfits (f, v) hp)⟩
  · rintro ⟨hlength, hfits⟩
    exact ⟨hlength.symm, fun p hp => (p.1.fits_iff p.2).mp (hfits hp)⟩

theorem encode_of_encodable {i : Instruction} (h : i.Encodable) :
    i.encode = .ok (i.mnemonic.base + packed i.mnemonic.fields i.operands) :=
  encode_eq_ok.mpr ⟨i.encodable_iff.mp h, rfl⟩

theorem encode_eq_ok_iff (i : Instruction) : (∃ word, i.encode = .ok word) ↔ i.Encodable := by
  rw [encodable_iff]
  constructor
  · rintro ⟨word, h⟩
    exact (encode_eq_ok.mp h).1
  · exact fun h => ⟨_, encode_eq_ok.mpr ⟨h, rfl⟩⟩

theorem encode_eq_error {i : Instruction}
    (h : i.operands.length = i.mnemonic.fields.length → ∀ v ∈ i.operands, Text.Writable v)
    {e : Interruption EncodingError} (he : i.encode = .error e) : ∃ error, e = .error error := by
  by_cases hcount : i.operands.length = i.mnemonic.fields.length
  · obtain ⟨front, f, v, back, hplace, -, -, rfl⟩ := (encode_eq_refusal hcount).mp he
    have hmem : (f, v) ∈ i.mnemonic.fields.zip i.operands := by simp [hplace]
    have hv := (List.of_mem_zip hmem).2
    exact ⟨_, f.refusal_of_writable (h hcount v hv)⟩
  · rw [encode, if_pos hcount] at he
    cases he
    exact ⟨_, rfl⟩

theorem encode_eq_lor {i : Instruction} {word : Nat} (h : i.encode = .ok word) :
    word = (i.mnemonic.fields.zip i.operands).foldl
      (fun bits p => bits ||| p.2.toNat <<< p.1.shift) i.mnemonic.base := by
  obtain ⟨hfits, rfl⟩ := encode_eq_ok.mp h
  exact add_packed_eq_lor hfits i.mnemonic.pairwise_below i.mnemonic.extract_base

/-- Encoding refuses exactly a wrong number of operands and operands out of range, with an error that
is written with the operand. Decoding gives back what was encoded but for two addresses of `SYS`,
which have the opcodes of `CLR` and `RTS`. -/
theorem encode_readBack (i : Instruction) :
    ((∃ word, i.encode = .ok word) ↔ i.Encodable) ∧
    ((i.operands.length = i.mnemonic.fields.length → ∀ v ∈ i.operands, Text.Writable v) →
      ((∃ e, i.encode = .error (.error e)) ↔ ¬i.Encodable)) ∧
    (i.Encodable → ∃ word : Nat, i.encode = .ok word ∧ word ≤ 0xFFFF ∧
      (i = ⟨.sys, [0x0E0]⟩ → decode word = some ⟨.clr, []⟩) ∧
      (i = ⟨.sys, [0x0EE]⟩ → decode word = some ⟨.rts, []⟩) ∧
      (i ≠ ⟨.sys, [0x0E0]⟩ → i ≠ ⟨.sys, [0x0EE]⟩ → decode word = some i)) := by
  refine ⟨i.encode_eq_ok_iff, fun h => ?_, fun h => ?_⟩
  · rw [← encode_eq_ok_iff]
    constructor
    · rintro ⟨e, he⟩ ⟨word, hword⟩
      cases he.symm.trans hword
    · intro hfails
      cases hencode : i.encode with
      | ok word => exact absurd ⟨word, hencode⟩ hfails
      | error e =>
        obtain ⟨error, rfl⟩ := encode_eq_error h hencode
        exact ⟨error, rfl⟩
  · have he := encode_of_encodable h
    have hlt := encode_lt he
    have hd := decode_encode he
    rw [readBack] at hd
    refine ⟨_, he, by omega, ?_, ?_, ?_⟩
    · intro hclr
      rwa [if_pos hclr] at hd
    · intro hrts
      rwa [if_neg (by rw [hrts]; decide), if_pos hrts] at hd
    · intro hclr hrts
      rwa [if_neg hclr, if_neg hrts] at hd

theorem decode_encode_sys : (⟨.sys, [0x0E0]⟩ : Instruction).Encodable ∧
    (⟨.sys, [0x0E0]⟩ : Instruction).encode = .ok 0x0E0 ∧
    decode (0x0E0 : Nat) ≠ some ⟨.sys, [0x0E0]⟩ := by
  refine ⟨⟨rfl, ?_⟩, rfl, ?_⟩
  · decide
  · decide

theorem decode_eq_none_iff (opcode : Int) : decode opcode = none ↔
    ∀ m ∈ Mnemonic.all, (opcode % 0x10000).toNat &&& m.mask ≠ m.base := by
  rw [decode, Option.map_eq_none_iff, List.find?_eq_none]
  constructor
  · intro h m _
    simpa [Mnemonic.accepts] using h m (mem_decodeOrder m)
  · intro h m _
    simpa [Mnemonic.accepts] using h m m.mem_all

theorem accepts_of_decode {word : Nat} {i : Instruction} (h : word < 0x10000)
    (hi : decode word = some i) : i.mnemonic.accepts word = true := by
  rw [decode_natCast h] at hi
  obtain ⟨m, hm, rfl⟩ := Option.map_eq_some_iff.mp hi
  have hacc : m.accepts word = true := by simpa only using List.find?_some hm
  exact hacc

theorem accepts_clr_iff {word : Nat} (h : word < 0x10000) :
    Mnemonic.clr.accepts word = true ↔ word = 0x0E0 :=
  Mnemonic.clr.accepts_iff h

theorem accepts_rts_iff {word : Nat} (h : word < 0x10000) :
    Mnemonic.rts.accepts word = true ↔ word = 0x0EE :=
  Mnemonic.rts.accepts_iff h

theorem accepts_iff_of_decode {word : Nat} {i : Instruction} (h : word < 0x10000)
    (hi : decode word = some i) (m : Mnemonic) : m.accepts word = true ↔
      m = i.mnemonic ∨ m = .sys ∧ (i.mnemonic = .clr ∨ i.mnemonic = .rts) := by
  have hacc := accepts_of_decode h hi
  constructor
  · intro hm
    rcases Mnemonic.eq_or_of_accepts hm hacc with rfl | hsys | ⟨hsys, rfl | rfl⟩
    · exact .inl rfl
    · exact .inr hsys
    · obtain rfl := (accepts_clr_iff h).mp hm
      have hclr : decode (0x0E0 : Nat) = some ⟨.clr, []⟩ := rfl
      rw [hclr, Option.some.injEq] at hi
      exact .inl (congrArg mnemonic hi)
    · obtain rfl := (accepts_rts_iff h).mp hm
      have hrts : decode (0x0EE : Nat) = some ⟨.rts, []⟩ := rfl
      rw [hrts, Option.some.injEq] at hi
      exact .inl (congrArg mnemonic hi)
  · rintro (rfl | ⟨rfl, hclr | hrts⟩)
    · exact hacc
    · obtain rfl := (accepts_clr_iff h).mp (hclr ▸ hacc)
      rfl
    · obtain rfl := (accepts_rts_iff h).mp (hrts ▸ hacc)
      rfl

/-- Decoding fails only where no row of the table fits, and otherwise names the one row that fits,
or one of two beside which `SYS` fits too, with the operands that encode to the opcode again. -/
theorem decode_names_row (opcode : Int) :
    (decode opcode = none ↔
      ∀ m ∈ Mnemonic.all, (opcode % 0x10000).toNat &&& m.mask ≠ m.base) ∧
    ∀ i, decode opcode = some i →
      List.Forall₂ (fun f v => 0 ≤ v ∧ v ≤ 2 ^ f.kind.width - 1) i.mnemonic.fields i.operands ∧
      i.encode = .ok (opcode % 0x10000).toNat ∧
      ∀ m ∈ Mnemonic.all, (opcode % 0x10000).toNat &&& m.mask = m.base ↔
        m = i.mnemonic ∨ m = .sys ∧ (i.mnemonic = .clr ∨ i.mnemonic = .rts) := by
  refine ⟨decode_eq_none_iff opcode, fun i hi => ?_⟩
  have hlt : (opcode % 0x10000).toNat < 0x10000 := by omega
  have hword : decode (opcode % 0x10000).toNat = some i := by
    rw [← hi, decode_natCast hlt, decode]
  have he := encode_decode hlt hword
  obtain ⟨hfits, -⟩ := encode_eq_ok.mp he
  refine ⟨hfits.imp fun f v => (f.fits_iff v).mp, he, fun m _ => ?_⟩
  rw [← accepts_iff_of_decode hlt hword, Mnemonic.accepts, beq_iff_eq]

end Instruction

end Chip8
