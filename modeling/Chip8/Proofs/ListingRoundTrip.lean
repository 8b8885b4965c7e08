import Chip8.Instruction.Listing
import Chip8.Proofs.NumeralDigits
import Chip8.Proofs.OpcodeFields
import Chip8.Proofs.WrittenLines

namespace Chip8

open Assembly Text

inductive Listed : Text → List UInt8 → Prop
  | intro {item : Item} {texts : List Text} {bytes : List UInt8} (plain : ∀ t ∈ texts, Plain t)
    (count : texts.length = item.operandCount) (emits : Emits [] item texts bytes) :
    Listed (written item texts) bytes

namespace Listed

variable {raw : Text} {bytes : List UInt8}

theorem writes (h : Listed raw bytes) : Writes raw bytes := by
  cases h with
  | intro hplain hcount he => exact writes_written hplain hcount he

theorem ne_nil (h : Listed raw bytes) : raw ≠ [] := by
  cases h with
  | intro => exact written_ne_nil

theorem not_isBreak (h : Listed raw bytes) : ∀ c ∈ raw, isBreak c = false := by
  cases h with
  | intro hplain =>
    intro c hc
    exact not_isBreak_of_isLineChar (isLineChar_of_mem_written hplain c hc)

end Listed

def OperandKind.mark : OperandKind → Char
  | address => '$'
  | register => 'V'
  | byte | nibble => '#'

theorem plain_marked {mark : Char} (hmark : isPlain mark = true) {base : Nat} (hpos : 0 < base)
    (hle : base ≤ 16) (k n : Nat) : Plain (mark :: lastDigits base k n) where
  nonempty := by simp
  plain := by
    have hdigit : ∀ d < 16, isPlain (digitOf d) = true := by decide
    intro c hc
    rcases List.mem_cons.mp hc with rfl | hc
    · exact hmark
    · obtain ⟨d, hd, rfl⟩ := mem_lastDigits hpos hc
      exact hdigit d (by omega)

namespace OperandKind

theorem render_eq (kind : OperandKind) {n : Nat} (h : n < 2 ^ kind.width) :
    (kind.render n).toList = kind.mark :: lastDigits 16 (kind.width / 4) n := by
  cases kind with
  | address => rw [render, String.toList_append, hex_eq (by decide) h]; rfl
  | register => rw [render, String.toList_append, hex_eq (by decide) h]; rfl
  | byte => rw [render, String.toList_append, hex_eq (by decide) h]; rfl
  | nibble => rw [render, String.toList_append, hex_eq (by decide) h]; rfl

theorem plain_render (kind : OperandKind) {n : Nat} (h : n < 2 ^ kind.width) :
    Plain (kind.render n).toList := by
  rw [kind.render_eq h]
  apply plain_marked _ (by decide) (by decide)
  cases kind <;> decide

theorem spells_render (labels : Labels) (kind : OperandKind) {n : Nat} (h : n < 2 ^ kind.width) :
    Spells labels kind (kind.render n).toList n := by
  have hlength (k : Nat) : (lastDigits 16 k n).length = k := length_lastDigits 16 k n
  rw [kind.render_eq h]
  cases kind with
  | address => exact .address (hlength 3) (numberOf_lastDigits (by decide) hexValue_digitOf h)
  | register =>
    have hn : n < 16 := h
    have hdigits : lastDigits 16 1 n = [digitOf n] := by
      rw [lastDigits, lastDigits, Nat.mod_eq_of_lt hn]
      rfl
    exact hdigits ▸ .register (.inl rfl) (hexValue_digitOf n hn)
  | byte =>
    exact .hexadecimal (.inl rfl) (hlength 2) (numberOf_lastDigits (by decide) hexValue_digitOf h)
  | nibble =>
    exact .hexadecimal (.inr rfl) (hlength 1) (numberOf_lastDigits (by decide) hexValue_digitOf h)

end OperandKind

def operandTexts (fields : List OperandField) (values : List Int) : List Text :=
  fields.zipWith (fun f v => (f.kind.render v).toList) values

section Operands

variable {fields : List OperandField} {values : List Int}

theorem plain_operandTexts (h : List.Forall₂ OperandField.Fits fields values) :
    ∀ t ∈ operandTexts fields values, Plain t := by
  induction h with
  | nil => simp [operandTexts]
  | @cons f v fields values hf _ ih =>
    obtain ⟨n, rfl⟩ := Int.eq_ofNat_of_zero_le hf.1
    have hn : n < 2 ^ f.kind.width := f.capacity_eq ▸ Int.ofNat_lt.mp hf.2
    simp only [operandTexts, List.zipWith_cons_cons, List.forall_mem_cons]
    exact ⟨f.kind.plain_render hn, ih⟩

theorem spells_operandTexts (labels : Labels) (h : List.Forall₂ OperandField.Fits fields values) :
    List.Forall₂ (fun (f, t) v => Spells labels f.kind t v)
      (fields.zip (operandTexts fields values)) values := by
  induction h with
  | nil => exact .nil
  | @cons f v fields values hf _ ih =>
    obtain ⟨n, rfl⟩ := Int.eq_ofNat_of_zero_le hf.1
    have hn : n < 2 ^ f.kind.width := f.capacity_eq ▸ Int.ofNat_lt.mp hf.2
    exact .cons (f.kind.spells_render labels hn) ih

theorem length_operandTexts (h : List.Forall₂ OperandField.Fits fields values) :
    (operandTexts fields values).length = fields.length := by
  rw [operandTexts, List.length_zipWith, h.length_eq, Nat.min_self]

end Operands

theorem Instruction.render_eq {i : Instruction}
    (h : List.Forall₂ OperandField.Fits i.mnemonic.fields i.operands) :
    i.render.toList =
      written (.instruction i.mnemonic) (operandTexts i.mnemonic.fields i.operands) := by
  have hlength := length_operandTexts h
  have hempty : operandTexts i.mnemonic.fields i.operands = [] ↔ i.mnemonic.fields = [] := by
    rw [← List.length_eq_zero_iff, hlength, List.length_eq_zero_iff]
  simp only [render, written, hempty, List.isEmpty_iff]
  split_ifs
  · rfl
  · rw [String.toList_append, String.toList_append, String.toList_intercalate, List.append_assoc,
      List.map_zipWith]
    rfl

theorem listed_renderOpcode {word : Nat} (h : word < 0x10000) :
    Listed (renderOpcode word).toList (wordBytes word) := by
  unfold renderOpcode
  cases hd : Instruction.decode word with
  | some i =>
    have he := Instruction.encode_decode h hd
    obtain ⟨hf, -⟩ := Instruction.encode_eq_ok.mp he
    simp only [Instruction.render_eq hf]
    exact .intro (plain_operandTexts hf) (length_operandTexts hf)
      (.instruction (spells_operandTexts [] hf) he)
  | none =>
    have hmod : (word : Int) % 0x10000 = word := by omega
    have htext : ("DW #" ++ hex 4 word).toList = written .word ['#' :: lastDigits 16 4 word] := by
      rw [String.toList_append, hex_eq (by decide) h]
      rfl
    simp only [hmod, htext]
    refine .intro ?_ rfl (.data (.word (length_lastDigits 16 4 word) ?_))
    · simp only [List.forall_mem_singleton]
      exact plain_marked (by decide) (by decide) (by decide) 4 word
    · exact numberOf_lastDigits (by decide) hexValue_digitOf h

theorem listed_bits (b : UInt8) : Listed ("DB $" ++ binary 8 b.toNat).toList [b] := by
  have hb : b.toNat < 2 ^ 8 := b.toNat_lt
  have htext : ("DB $" ++ binary 8 b.toNat).toList =
      written .bits ['$' :: lastDigits 2 8 b.toNat] := by
    rw [String.toList_append, binary_eq (by decide) hb]
    rfl
  have hvalue := numberOf_lastDigits (by decide) bitValue_digitOf hb
  have hspells := SpellsData.bits (length_lastDigits 2 8 b.toNat) hvalue
  rw [UInt8.ofNat_toNat] at hspells
  rw [htext]
  refine .intro ?_ rfl (.data hspells)
  simp only [List.forall_mem_singleton]
  exact plain_marked (by decide) (by decide) (by decide) 8 b.toNat

theorem wordBytes_bigEndian (high low : UInt8) : wordBytes (bigEndian high low) = [high, low] := by
  have hhigh := high.toNat_lt
  have hlow := low.toNat_lt
  have hdiv : bigEndian high low / 256 = high.toNat := by
    rw [bigEndian]
    omega
  have hmod : UInt8.ofNat (bigEndian high low) = low := by
    apply UInt8.toNat_inj.mp
    rw [UInt8.toNat_ofNat', bigEndian]
    omega
  rw [wordBytes, hdiv, UInt8.ofNat_toNat, hmod]

theorem listed_disassemble (origin : Int) (rom : List UInt8) :
    ∃ chunks, List.Forall₂ Listed ((disassemble origin rom).map (·.text.toList)) chunks ∧
      chunks.flatten = rom := by
  induction origin, rom using disassemble.induct with
  | case1 => exact ⟨[], .nil, rfl⟩
  | case2 origin b => exact ⟨[[b]], .cons (listed_bits b) .nil, rfl⟩
  | case3 origin high low rest ih =>
    obtain ⟨chunks, hlisted, hflat⟩ := ih
    have hword : bigEndian high low < 0x10000 := by
      have hhigh := high.toNat_lt
      have hlow := low.toNat_lt
      rw [bigEndian]
      omega
    have hline := wordBytes_bigEndian high low ▸ listed_renderOpcode hword
    exact ⟨[high, low] :: chunks, .cons hline hlisted, by rw [List.flatten_cons, hflat]; rfl⟩

theorem assemble_disassemble (origin target : Int) (rom : List UInt8) :
    (assemble target
      ("\n".intercalate ((disassemble origin rom).map ListingLine.text)).toList).rom = .ok rom := by
  obtain ⟨chunks, hlisted, hflat⟩ := listed_disassemble origin rom
  have hline : ∀ raw ∈ (disassemble origin rom).map (·.text.toList),
      ∃ bytes, Listed raw bytes := by
    intro raw hraw
    obtain ⟨i, hi, rfl⟩ := List.getElem_of_mem hraw
    exact ⟨_, hlisted.get hi (hlisted.length_eq ▸ hi)⟩
  have hlines : lines ("\n".intercalate ((disassemble origin rom).map ListingLine.text)).toList =
      (disassemble origin rom).map (·.text.toList) := by
    rw [String.toList_intercalate, List.map_map]
    apply lines_intercalate
    · intro raw hraw
      obtain ⟨bytes, h⟩ := hline raw hraw
      exact h.ne_nil
    · intro raw hraw
      obtain ⟨bytes, h⟩ := hline raw hraw
      exact h.not_isBreak
  rw [← hflat]
  apply assemble_of_writes
  rw [hflat, hlines]
  exact hlisted.imp fun _ _ h => h.writes

end Chip8
