import Chip8.Proofs.OpcodeRoundTrip
import Chip8.Proofs.StatementBytes

namespace Chip8.Assembly

open Text

def isHexDigit (c : Char) : Bool :=
  c.isDigit || ('A' ≤ c && c ≤ 'F') || ('a' ≤ c && c ≤ 'f')

def isBit (c : Char) : Bool := c == '0' || c == '1' || c == '.'

inductive InGrammar : OperandKind → Text → Prop
  | address {ds : Text} (length : ds.length = 3) (digits : ∀ c ∈ ds, isHexDigit c = true) :
    InGrammar .address ('$' :: ds)
  | label {t : Text} (name : isName t = true) : InGrammar .address t
  | register {v d : Char} (mark : v = 'V' ∨ v = 'v') (digit : isHexDigit d = true) :
    InGrammar .register [v, d]
  | hexadecimal {kind : OperandKind} {ds : Text} (literal : kind = .byte ∨ kind = .nibble)
    (length : ds.length = kind.width / 4) (digits : ∀ c ∈ ds, isHexDigit c = true) :
    InGrammar kind ('#' :: ds)
  | decimal {kind : OperandKind} {ds : Text} (literal : kind = .byte ∨ kind = .nibble)
    (nonempty : ds ≠ []) (digits : ds.all Char.isDigit = true)
    (fits : decimalNumber ds < 2 ^ kind.width) : InGrammar kind ds

inductive Item.Admits : Item → List Text → Prop
  | instruction {m : Mnemonic} {operands : List Text}
    (grammar : List.Forall₂ (fun f t => InGrammar f.kind t) m.fields operands) :
    Item.Admits (.instruction m) operands
  | word {ds : Text} (length : ds.length = 4) (digits : ∀ c ∈ ds, isHexDigit c = true) :
    Item.Admits .word ['#' :: ds]
  | bits {ds : Text} (length : ds.length = 8) (digits : ∀ c ∈ ds, isBit c = true) :
    Item.Admits .bits ['$' :: ds]

def Uses (item : Item) (operands : List Text) (name : Text) : Prop :=
  ∃ m f, item = .instruction m ∧ (f, name) ∈ m.fields.zip operands ∧ f.kind = .address ∧
    isName name = true

def Reaches (labels : Labels) (name : Text) : Prop :=
  ∃ a, labels.lookup name = some a ∧ a ≤ 0xFFF

section Numbers

variable {base : Nat} {value : Char → Option Nat} {ds : Text} {n : Nat}

theorem isSome_hexValue (c : Char) : (hexValue c).isSome = isHexDigit c := by
  have hval : c.toNat = c.val.toNat := rfl
  rw [Bool.eq_iff_iff]
  simp only [hexValue, digitValue, alnumValue, isHexDigit, Char.isDigit, Char.le_def,
    UInt32.le_iff_toNat_le, Char.reduceVal, UInt32.reduceToNat, Option.isSome_filter, ge_iff_le,
    Bool.or_eq_true, Bool.and_eq_true, decide_eq_true_eq, hval]
  split_ifs <;> simp <;> omega

theorem isSome_bitValue (c : Char) : (bitValue c).isSome = isBit c := by
  rw [bitValue, isBit]
  split_ifs with hone hzero
  · simp [hone]
  · rcases hzero with rfl | rfl <;> rfl
  · simp_all

theorem numberOf_eq_some : numberOf base value ds = some n ↔
    ∃ vs, List.Forall₂ (fun c v => value c = some v) ds vs ∧ n = valueOf base vs := by
  rw [numberOf, Option.map_eq_some_iff]
  simp only [List.mapM_eq_some, @eq_comm _ n]

theorem exists_numberOf_iff : (∃ n, numberOf base value ds = some n) ↔
    ∀ c ∈ ds, (value c).isSome = true := by
  have hvalues : (∃ vs, List.Forall₂ (fun c v => value c = some v) ds vs) ↔
      ∀ c ∈ ds, (value c).isSome = true := by
    simp only [List.exists_forall₂_iff, Option.isSome_iff_exists]
  rw [← hvalues]
  constructor
  · rintro ⟨n, hn⟩
    obtain ⟨vs, hvs, -⟩ := numberOf_eq_some.mp hn
    exact ⟨vs, hvs⟩
  · rintro ⟨vs, hvs⟩
    exact ⟨_, numberOf_eq_some.mpr ⟨vs, hvs, rfl⟩⟩

theorem foldl_lt {vs : List Nat} (h : ∀ v ∈ vs, v < base) (start : Nat) :
    vs.foldl (fun n d => n * base + d) start < (start + 1) * base ^ vs.length := by
  induction vs generalizing start with
  | nil => simp
  | cons v vs ih =>
    have hv := h v (by simp)
    have hstep : start * base + v + 1 ≤ (start + 1) * base := by
      rw [Nat.add_mul, Nat.one_mul]
      omega
    calc (v :: vs).foldl (fun n d => n * base + d) start
        < (start * base + v + 1) * base ^ vs.length := ih (fun w hw => h w (by simp [hw])) _
      _ ≤ (start + 1) * base * base ^ vs.length := Nat.mul_le_mul_right _ hstep
      _ = (start + 1) * base ^ (v :: vs).length := by
        rw [List.length_cons, Nat.pow_succ', Nat.mul_assoc]

theorem numberOf_lt (h : numberOf base value ds = some n)
    (hvalue : ∀ c v, value c = some v → v < base) : n < base ^ ds.length := by
  obtain ⟨vs, hvs, rfl⟩ := numberOf_eq_some.mp h
  have hlt : ∀ v ∈ vs, v < base := by
    intro v hv
    obtain ⟨i, hi, rfl⟩ := List.getElem_of_mem hv
    exact hvalue _ _ (hvs.get (hvs.length_eq ▸ hi) hi)
  have hfold := foldl_lt hlt 0
  rw [hvs.length_eq]
  simpa [valueOf] using hfold

theorem hexValue_lt (c : Char) (v : Nat) (h : hexValue c = some v) : v < 16 := by
  rw [hexValue, digitValue, Option.filter_eq_some_iff] at h
  simpa using h.2

end Numbers

section Operands

variable {labels : Labels} {kind : OperandKind} {t : Text} {v : Int}

theorem Spells.fits_or (h : Spells labels kind t v) : (0 ≤ v ∧ v < (2 ^ kind.width : Nat)) ∨
    v < 0 ∧ kind = .address ∧ isName t = true ∧ labels.lookup t = some v := by
  have hpower (hk : kind = .byte ∨ kind = .nibble) : 16 ^ (kind.width / 4) = 2 ^ kind.width := by
    rcases hk with rfl | rfl <;> rfl
  cases h with
  | address length value =>
    have hlt := numberOf_lt value hexValue_lt
    rw [length] at hlt
    exact .inl ⟨Int.natCast_nonneg _, Int.ofNat_lt.mpr hlt⟩
  | label name defined near =>
    by_cases hneg : v < 0
    · exact .inr ⟨hneg, rfl, name, defined⟩
    · exact .inl ⟨Int.not_lt.mp hneg, Int.lt_add_one_of_le near⟩
  | register mark value =>
    exact .inl ⟨Int.natCast_nonneg _, Int.ofNat_lt.mpr (hexValue_lt _ _ value)⟩
  | hexadecimal literal length value =>
    have hlt := numberOf_lt value hexValue_lt
    rw [length, hpower literal] at hlt
    exact .inl ⟨Int.natCast_nonneg _, Int.ofNat_lt.mpr hlt⟩
  | decimal literal nonempty digits length fits =>
    exact .inl ⟨Int.natCast_nonneg _, Int.ofNat_lt.mpr fits⟩

theorem Spells.fits (h : Spells labels kind t v)
    (hlabels : ∀ name a, labels.lookup name = some a → 0 ≤ a) :
    0 ≤ v ∧ v < (2 ^ kind.width : Nat) := by
  rcases h.fits_or with hfits | ⟨hneg, -, -, defined⟩
  · exact hfits
  · exact absurd (hlabels _ _ defined) (Int.not_le.mpr hneg)

theorem exists_hexadecimal_iff {ds : Text} :
    (∃ n, numberOf 16 hexValue ds = some n) ↔ ∀ c ∈ ds, isHexDigit c = true := by
  simp only [exists_numberOf_iff, isSome_hexValue]

theorem exists_spells_iff (hlength : t.all Char.isDigit = true → t.length ≤ maxDigits) :
    (∃ v, Spells labels kind t v) ↔
      InGrammar kind t ∧ (kind = .address → isName t = true → Reaches labels t) := by
  constructor
  · rintro ⟨v, h⟩
    cases h with
    | address length value =>
      refine ⟨.address length (exists_hexadecimal_iff.mp ⟨_, value⟩), fun _ hname => ?_⟩
      simp [isName, isNameStart] at hname
    | label name defined near => exact ⟨.label name, fun _ _ => ⟨_, defined, near⟩⟩
    | register mark value =>
      refine ⟨.register mark ?_, fun hk => by cases hk⟩
      rw [← isSome_hexValue, value]
      rfl
    | hexadecimal literal length value =>
      refine ⟨.hexadecimal literal length (exists_hexadecimal_iff.mp ⟨_, value⟩), ?_⟩
      rintro rfl
      simp at literal
    | decimal literal nonempty digits length fits =>
      refine ⟨.decimal literal nonempty digits fits, ?_⟩
      rintro rfl
      simp at literal
  · rintro ⟨h, hdefined⟩
    cases h with
    | address length digits =>
      obtain ⟨n, hn⟩ := exists_hexadecimal_iff.mpr digits
      exact ⟨n, .address length hn⟩
    | label name =>
      obtain ⟨a, hlookup, hnear⟩ := hdefined rfl name
      exact ⟨a, .label name hlookup hnear⟩
    | register mark digit =>
      rw [← isSome_hexValue] at digit
      obtain ⟨n, hn⟩ := Option.isSome_iff_exists.mp digit
      exact ⟨n, .register mark hn⟩
    | hexadecimal literal length digits =>
      obtain ⟨n, hn⟩ := exists_hexadecimal_iff.mpr digits
      exact ⟨n, .hexadecimal literal length hn⟩
    | decimal literal nonempty digits fits =>
      exact ⟨_, .decimal literal nonempty digits (hlength digits) fits⟩

end Operands

section Items

variable {labels : Labels} {item : Item} {m : Mnemonic} {operands : List Text}

theorem Spelled.fits {values : List Int} (h : Spelled labels m operands values)
    (hcount : operands.length = m.fields.length)
    (hlabels : ∀ name a, labels.lookup name = some a → 0 ≤ a) :
    List.Forall₂ OperandField.Fits m.fields values := by
  have hfields : m.fields = (m.fields.zip operands).map Prod.fst :=
    (List.map_fst_zip (Nat.le_of_eq hcount.symm)).symm
  rw [hfields, List.forall₂_map_left_iff]
  refine h.imp fun p v hv => ?_
  rw [OperandField.Fits, OperandField.capacity_eq]
  exact hv.fits hlabels

theorem exists_emits_instruction_iff (hcount : operands.length = m.fields.length)
    (hlabels : ∀ name a, labels.lookup name = some a → 0 ≤ a) :
    (∃ bytes, Emits labels (.instruction m) operands bytes) ↔
      ∀ p ∈ m.fields.zip operands, ∃ v, Spells labels p.1.kind p.2 v := by
  rw [← List.exists_forall₂_iff]
  constructor
  · rintro ⟨_, ⟨hspelled, -⟩ | ⟨hdata⟩⟩
    · exact ⟨_, hspelled⟩
    · cases hdata
  · rintro ⟨values, hspelled⟩
    have hfits := Spelled.fits hspelled hcount hlabels
    exact ⟨_, .instruction hspelled (Instruction.encode_eq_ok.mpr ⟨hfits, rfl⟩)⟩

theorem exists_spellsData_iff {t : Text} (hdata : item.isData = true) :
    (∃ bytes, SpellsData item t bytes) ↔ item.Admits [t] := by
  constructor
  · rintro ⟨_, ⟨length, value⟩ | ⟨length, value⟩⟩
    · exact .word length (exists_hexadecimal_iff.mp ⟨_, value⟩)
    · refine .bits length fun c hc => ?_
      rw [← isSome_bitValue]
      exact exists_numberOf_iff.mp ⟨_, value⟩ c hc
  · rintro (_ | ⟨length, digits⟩ | ⟨length, digits⟩)
    · cases hdata
    · obtain ⟨n, hn⟩ := exists_hexadecimal_iff.mpr digits
      exact ⟨_, .word length hn⟩
    · simp only [← isSome_bitValue] at digits
      obtain ⟨n, hn⟩ := exists_numberOf_iff.mpr digits
      exact ⟨_, .bits length hn⟩

theorem admits_instruction_iff : (Item.instruction m).Admits operands ↔
    operands.length = m.fields.length ∧ ∀ p ∈ m.fields.zip operands, InGrammar p.1.kind p.2 := by
  constructor
  · rintro ⟨grammar⟩
    obtain ⟨hcount, hzip⟩ := List.forall₂_iff_zip.mp grammar
    exact ⟨hcount.symm, fun p hp => hzip hp⟩
  · rintro ⟨hcount, hzip⟩
    exact .instruction (List.forall₂_iff_zip.mpr ⟨hcount.symm, fun hp => hzip _ hp⟩)

theorem exists_emits_data_iff (hdata : item.isData = true) :
    (operands.length = 1 ∧ ∃ bytes, Emits labels item operands bytes) ↔ item.Admits operands := by
  constructor
  · rintro ⟨-, _, _ | ⟨spells⟩⟩
    · cases hdata
    · exact (exists_spellsData_iff hdata).mp ⟨_, spells⟩
  · intro h
    have hsingle : ∃ t, operands = [t] := by
      cases h with
      | instruction => cases hdata
      | word => exact ⟨_, rfl⟩
      | bits => exact ⟨_, rfl⟩
    obtain ⟨t, rfl⟩ := hsingle
    obtain ⟨bytes, hbytes⟩ := (exists_spellsData_iff hdata).mpr h
    exact ⟨rfl, bytes, .data hbytes⟩

theorem exists_emits_iff (hlabels : ∀ name a, labels.lookup name = some a → 0 ≤ a)
    (hlength : ∀ t ∈ operands, t.all Char.isDigit = true → t.length ≤ maxDigits) :
    (operands.length = item.operandCount ∧ ∃ bytes, Emits labels item operands bytes) ↔
      item.Admits operands ∧ ∀ name, Uses item operands name → Reaches labels name := by
  have hunused (hdata : item.isData = true) : ∀ name, ¬Uses item operands name := by
    rintro name ⟨m, f, rfl, -⟩
    cases hdata
  cases item with
  | instruction m =>
    rw [admits_instruction_iff, and_assoc]
    refine and_congr_right fun hcount => ?_
    have hspells : ∀ p ∈ m.fields.zip operands, (∃ v, Spells labels p.1.kind p.2 v) ↔
        InGrammar p.1.kind p.2 ∧ (p.1.kind = .address → isName p.2 = true → Reaches labels p.2) :=
      fun p hp => exists_spells_iff (hlength p.2 (List.of_mem_zip hp).2)
    rw [exists_emits_instruction_iff hcount hlabels]
    constructor
    · intro h
      refine ⟨fun p hp => ((hspells p hp).mp (h p hp)).1, ?_⟩
      rintro name ⟨_, f, ⟨⟩, hmem, hkind, hname⟩
      exact ((hspells _ hmem).mp (h _ hmem)).2 hkind hname
    · rintro ⟨hgrammar, huses⟩ p hp
      exact (hspells p hp).mpr ⟨hgrammar p hp,
        fun hkind hname => huses p.2 ⟨m, p.1, rfl, hp, hkind, hname⟩⟩
  | word =>
    rw [and_iff_left fun name h => absurd h (hunused rfl name)]
    exact exists_emits_data_iff rfl
  | bits =>
    rw [and_iff_left fun name h => absurd h (hunused rfl name)]
    exact exists_emits_data_iff rfl

end Items

end Chip8.Assembly
