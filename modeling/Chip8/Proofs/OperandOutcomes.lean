import Chip8.Proofs.FirstFault
import Mathlib.Data.Nat.Digits.Lemmas

namespace Chip8.Assembly

open Text

def DigitOf (rows : List String) (c : Char) (d : Nat) : Prop := ∃ row ∈ rows, row.toList[d]? = some c

def HexDigit : Char → Nat → Prop := DigitOf ["0123456789ABCDEF", "0123456789abcdef"]

def DecimalDigit : Char → Nat → Prop := DigitOf ["0123456789"]

def BitDigit : Char → Nat → Prop := DigitOf ["01", "."]

inductive Numeral (base : Nat) (digit : Char → Nat → Prop) : Text → Nat → Prop
  | intro {ds : Text} {vs : List Nat} (nonempty : ds ≠ []) (digits : List.Forall₂ digit ds vs) :
    Numeral base digit ds (Nat.ofDigits base vs.reverse)

inductive Marked (mark : Char) (count base : Nat) (digit : Char → Nat → Prop) : Text → Nat → Prop
  | intro {ds : Text} {n : Nat} (length : ds.length = count) (numeral : Numeral base digit ds n) :
    Marked mark count base digit (mark :: ds) n

def RegisterNumber (t : Text) (v : Int) : Prop :=
  ∃ mark c d, t = [mark, c] ∧ (mark = 'V' ∨ mark = 'v') ∧ HexDigit c d ∧ v = d

def LiteralValue (count largest : Nat) (t : Text) (v : Int) : Prop :=
  ∃ n : Nat, v = n ∧
    (Marked '#' count 16 HexDigit t n ∨ Numeral 10 DecimalDigit t n ∧ n ≤ largest)

def AddressValue (labels : Labels) (t : Text) (v : Int) : Prop :=
  (∃ n : Nat, v = n ∧ Marked '$' 3 16 HexDigit t n) ∨
    isName t = true ∧ labels.lookup t = some v ∧ v ≤ 0xFFF

/-- How reading a text ends: with a value of the text, with an error for a reason that the text
gives, or with an error of format when the text gives neither. -/
structure Decides {α : Type} (outcome : Except (Interruption Fault) α) (value : α → Prop)
    (reason : ErrorKind → Prop) : Prop where
  returns : ∀ v, outcome = .ok v ↔ value v
  raises : ∀ kind ≠ .operandFormat,
    (outcome.mapError (·.map Fault.kind) = .error (.error kind) ↔ reason kind)
  otherwise : outcome.mapError (·.map Fault.kind) = .error (.error .operandFormat) ↔
    (∀ v, ¬value v) ∧ ∀ kind, ¬reason kind

section Digits

variable {c : Char} {d : Nat}

theorem DigitOf.satisfies {rows : List String} (h : DigitOf rows c d) {p : Char → Nat → Bool}
    (hrows : rows.all (fun row => row.toList.zipIdx.all fun q => p q.1 q.2) = true) :
    p c d = true := by
  obtain ⟨row, hrow, hd⟩ := h
  exact List.all_eq_true.mp (List.all_eq_true.mp hrows row hrow) (c, d)
    (List.mk_mem_zipIdx_iff_getElem?.mpr hd)

theorem lt_of_isHexDigit (h : isHexDigit c = true) : c.toNat < 0x80 := by
  have hval : c.toNat = c.val.toNat := rfl
  simp [isHexDigit, Char.isDigit, Char.le_def, UInt32.le_iff_toNat_le] at h
  omega

theorem hexValue_eq_some : hexValue c = some d ↔ HexDigit c d := by
  refine ⟨fun h => ?_, fun h => beq_iff_eq.mp (h.satisfies (p := (hexValue · == some ·)) rfl)⟩
  have hrows : ∀ n < 0x80, (hexValue (Char.ofNat n)).all (fun d =>
      "0123456789ABCDEF".toList[d]? == some (Char.ofNat n) ||
        "0123456789abcdef".toList[d]? == some (Char.ofNat n)) = true := by
    decide
  have hdigit : isHexDigit c = true := by
    rw [← isSome_hexValue, h]
    rfl
  have hrow := hrows c.toNat (lt_of_isHexDigit hdigit)
  rw [Char.ofNat_toNat, h, Option.all_some, Bool.or_eq_true, beq_iff_eq, beq_iff_eq] at hrow
  rcases hrow with hupper | hlower
  · exact ⟨_, by simp, hupper⟩
  · exact ⟨_, by simp, hlower⟩

theorem bitValue_lt (c : Char) (d : Nat) (h : bitValue c = some d) : d < 2 := by
  rw [bitValue] at h
  split_ifs at h <;> cases h <;> decide

theorem decimalDigit_iff : DecimalDigit c d ↔ c.isDigit = true ∧ d = c.toNat - 48 := by
  have hrow : ∀ n < 0x80, (Char.ofNat n).isDigit = true →
      "0123456789".toList[n - 48]? = some (Char.ofNat n) := by
    decide
  constructor
  · intro h
    have hboth := h.satisfies (p := fun c d => c.isDigit && d == c.toNat - 48) rfl
    simpa using hboth
  · rintro ⟨hdigit, rfl⟩
    have hc := hrow c.toNat (lt_of_isHexDigit (by simp [isHexDigit, hdigit]))
    rw [Char.ofNat_toNat] at hc
    exact ⟨_, by simp, hc hdigit⟩

theorem bitValue_eq_some : bitValue c = some d ↔ BitDigit c d := by
  refine ⟨fun h => ?_, fun h => beq_iff_eq.mp (h.satisfies (p := (bitValue · == some ·)) rfl)⟩
  rw [bitValue] at h
  split_ifs at h with hone hzero
  · cases h
    exact ⟨"01", by simp, by rw [hone]; rfl⟩
  · cases h
    rcases hzero with rfl | rfl
    · exact ⟨"01", by simp, rfl⟩
    · exact ⟨".", by simp, rfl⟩

end Digits

section Numerals

variable {base count : Nat} {value : Char → Option Nat} {digit : Char → Nat → Prop} {t : Text}
  {n : Nat}

theorem valueOf_eq_ofDigits (base : Nat) (vs : List Nat) :
    valueOf base vs = Nat.ofDigits base vs.reverse := by
  rw [Nat.ofDigits_eq_foldr, List.foldr_reverse, valueOf]
  simp only [Nat.cast_id, Nat.mul_comm base, Nat.add_comm]

theorem numeral_iff (hvalue : ∀ {c d}, value c = some d ↔ digit c d) (nonempty : t ≠ []) :
    Numeral base digit t n ↔ numberOf base value t = some n := by
  simp only [numberOf_eq_some, hvalue, valueOf_eq_ofDigits]
  constructor
  · rintro ⟨-, digits⟩
    exact ⟨_, digits, rfl⟩
  · rintro ⟨vs, digits, rfl⟩
    exact ⟨nonempty, digits⟩

theorem marked_iff {mark : Char} (hvalue : ∀ {c d}, value c = some d ↔ digit c d)
    (hcount : 0 < count) : Marked mark count base digit t n ↔
      ∃ ds, t = mark :: ds ∧ ds.length = count ∧ numberOf base value ds = some n := by
  have hne {ds : Text} (length : ds.length = count) : ds ≠ [] :=
    List.ne_nil_of_length_pos (length ▸ hcount)
  constructor
  · rintro ⟨length, numeral⟩
    exact ⟨_, rfl, length, (numeral_iff hvalue (hne length)).mp numeral⟩
  · rintro ⟨ds, rfl, length, number⟩
    exact ⟨length, (numeral_iff hvalue (hne length)).mpr number⟩

theorem marked_bytes_iff {mark : Char} {bytes : List UInt8} {written : Nat → List UInt8}
    {values : Nat → List Nat} (hvalue : ∀ {c d}, value c = some d ↔ digit c d) (hcount : 0 < count)
    (hlt : ∀ c d, value c = some d → d < base)
    (hwritten : ∀ n < base ^ count, (written n).map UInt8.toNat = values n) :
    (∃ n, Marked mark count base digit t n ∧ bytes.map UInt8.toNat = values n) ↔
      ∃ ds n, t = mark :: ds ∧ ds.length = count ∧ numberOf base value ds = some n ∧
        bytes = written n := by
  have hinjective : Function.Injective (List.map UInt8.toNat) :=
    List.map_injective_iff.mpr fun _ _ => UInt8.toNat_inj.mp
  simp only [marked_iff hvalue hcount]
  constructor
  · rintro ⟨n, ⟨ds, ht, length, number⟩, hbytes⟩
    have hn := numberOf_lt number hlt
    rw [length] at hn
    exact ⟨ds, n, ht, length, number, hinjective (hbytes.trans (hwritten n hn).symm)⟩
  · rintro ⟨ds, n, ht, length, number, rfl⟩
    have hn := numberOf_lt number hlt
    rw [length] at hn
    exact ⟨n, ⟨ds, ht, length, number⟩, hwritten n hn⟩

theorem decimalDigits_iff {vs : List Nat} : List.Forall₂ DecimalDigit t vs ↔
    t.all Char.isDigit = true ∧ vs = t.map (fun c => c.toNat - 48) := by
  induction t generalizing vs with
  | nil => simp
  | cons c t ih =>
    rw [List.forall₂_cons_left_iff]
    simp only [decimalDigit_iff, ih]
    constructor
    · rintro ⟨d, vs, ⟨hc, rfl⟩, ⟨ht, rfl⟩, rfl⟩
      exact ⟨by rw [List.all_cons, hc, ht]; rfl, rfl⟩
    · rintro ⟨h, rfl⟩
      rw [List.all_cons, Bool.and_eq_true] at h
      exact ⟨_, _, ⟨h.1, rfl⟩, ⟨h.2, rfl⟩, rfl⟩

theorem decimal_numeral_iff :
    Numeral 10 DecimalDigit t n ↔ Decimal t ∧ n = decimalNumber t := by
  rw [decimalNumber, valueOf_eq_ofDigits]
  constructor
  · rintro ⟨nonempty, digits⟩
    obtain ⟨hdigits, rfl⟩ := decimalDigits_iff.mp digits
    exact ⟨⟨nonempty, hdigits⟩, rfl⟩
  · rintro ⟨⟨nonempty, hdigits⟩, rfl⟩
    exact ⟨nonempty, decimalDigits_iff.mpr ⟨hdigits, rfl⟩⟩

end Numerals

section Outcomes

theorem decides_of {α : Type} {outcome : Except (Interruption Fault) α} {value : α → Prop}
    {reason : ErrorKind → Prop} (returns : ∀ v, outcome = .ok v ↔ value v)
    (refused : ∀ kind, reason kind → ∃ i, outcome = .error i)
    (reasoned : ∀ i, outcome = .error i → ∃ fault, i = .error fault ∧
      ∀ kind, reason kind ↔ kind = fault.kind ∧ fault.kind ≠ .operandFormat) :
    Decides outcome value reason := by
  cases outcome with
  | ok v =>
    have hreason : ∀ kind, ¬reason kind := by
      intro kind h
      obtain ⟨i, hi⟩ := refused kind h
      cases hi
    have hvalue : ¬∀ v, ¬value v := fun h => h v ((returns v).mp rfl)
    refine ⟨returns, fun kind _ => ?_, ?_⟩
    · simp [Except.mapError, hreason]
    · simp [Except.mapError, hvalue]
  | error i =>
    obtain ⟨fault, rfl, hreason⟩ := reasoned i rfl
    have hvalue : ∀ v, ¬value v := fun v hv => by simpa using (returns v).mpr hv
    refine ⟨returns, fun kind hkind => ?_, ?_⟩
    · simp only [Except.mapError, Interruption.map, Except.error.injEq, Interruption.error.injEq,
        hreason]
      constructor
      · rintro rfl
        exact ⟨rfl, hkind⟩
      · rintro ⟨rfl, -⟩
        rfl
    · simp only [Except.mapError, Interruption.map, Except.error.injEq, Interruption.error.injEq,
        hreason]
      constructor
      · intro hformat
        exact ⟨hvalue, fun kind hkind => hkind.2 hformat⟩
      · rintro ⟨-, hnone⟩
        by_contra hformat
        exact hnone _ ⟨rfl, hformat⟩

theorem decides_plainly {α : Type} {outcome : Except (Interruption Fault) α} {value : α → Prop}
    (returns : ∀ v, outcome = .ok v ↔ value v)
    (reasoned : ∀ i, outcome = .error i → ∃ fault, i = .error fault ∧ fault.kind = .operandFormat) :
    Decides outcome value (fun _ => False) := by
  refine decides_of returns (fun _ h => h.elim) fun i hi => ?_
  obtain ⟨fault, rfl, hkind⟩ := reasoned i hi
  exact ⟨fault, rfl, by simp [hkind]⟩

variable {labels : Labels} {kind : OperandKind} {t : Text}

theorem spells_register_iff {v : Int} : Spells labels .register t v ↔ RegisterNumber t v := by
  constructor
  · intro h
    cases h with
    | register mark value => exact ⟨_, _, _, rfl, mark, hexValue_eq_some.mp value, rfl⟩
    | hexadecimal literal => simp at literal
    | decimal literal => simp at literal
  · rintro ⟨v, c, d, rfl, mark, digit, rfl⟩
    exact .register mark (hexValue_eq_some.mpr digit)

theorem decides_register (ht : dropFinalFeed t = t) :
    Decides (readOperand labels .register t) (RegisterNumber t) (fun _ => False) := by
  refine decides_plainly (fun v => (readOperand_eq_ok ht).trans spells_register_iff) ?_
  intro i hi
  cases (readOperand_eq_error ht).mp hi with
  | register wrong => exact ⟨_, rfl, rfl⟩
  | overflow literal => simp at literal
  | endless literal => simp at literal
  | literal literal => simp at literal

theorem spells_address_iff {v : Int} : Spells labels .address t v ↔ AddressValue labels t v := by
  simp only [AddressValue, marked_iff hexValue_eq_some (Nat.zero_lt_succ 2)]
  constructor
  · intro h
    cases h with
    | address length value => exact .inl ⟨_, rfl, _, rfl, length, value⟩
    | label name defined near => exact .inr ⟨name, defined, near⟩
    | hexadecimal literal => simp at literal
    | decimal literal => simp at literal
  · rintro (⟨n, rfl, ds, rfl, length, value⟩ | ⟨name, defined, near⟩)
    · exact .address length value
    · exact .label name defined near

theorem decides_address (ht : dropFinalFeed t = t) :
    Decides (readOperand labels .address t) (AddressValue labels t) (fun kind =>
      kind = .unresolvedLabel ∧ isName t = true ∧ labels.lookup t = none) := by
  refine decides_of (fun v => (readOperand_eq_ok ht).trans spells_address_iff) ?_ ?_
  · rintro kind ⟨-, name, lookup⟩
    exact ⟨_, (Misspells.undefined name lookup).readOperand_eq ht⟩
  · intro i hi
    cases (readOperand_eq_error ht).mp hi with
    | undefined name lookup => exact ⟨_, rfl, by simp [Fault.kind, name, lookup]⟩
    | distant name lookup => exact ⟨_, rfl, by simp [Fault.kind, lookup]⟩
    | address wrong =>
      have hname : isName t ≠ true := fun hname => wrong (.label hname)
      exact ⟨_, rfl, by simp [Fault.kind, hname]⟩
    | overflow literal => simp at literal
    | endless literal => simp at literal
    | literal literal => simp at literal

theorem spells_literal_iff {v : Int} (hk : kind = .byte ∨ kind = .nibble)
    (short : t.length ≤ maxDigits) : Spells labels kind t v ↔
      LiteralValue (kind.width / 4) (2 ^ kind.width - 1) t v := by
  have hcount : 0 < kind.width / 4 := by rcases hk with rfl | rfl <;> decide
  have hle {n : Nat} : n ≤ 2 ^ kind.width - 1 ↔ n < 2 ^ kind.width :=
    Nat.le_sub_one_iff_lt (Nat.two_pow_pos _)
  simp only [LiteralValue, marked_iff hexValue_eq_some hcount, decimal_numeral_iff, hle]
  constructor
  · intro h
    cases h with
    | address => simp at hk
    | label => simp at hk
    | register => simp at hk
    | hexadecimal _ length value => exact ⟨_, rfl, .inl ⟨_, rfl, length, value⟩⟩
    | decimal _ nonempty digits _ fits =>
      exact ⟨_, rfl, .inr ⟨⟨⟨nonempty, digits⟩, rfl⟩, fits⟩⟩
  · rintro ⟨n, rfl, ⟨ds, rfl, length, value⟩ | ⟨⟨⟨nonempty, digits⟩, rfl⟩, fits⟩⟩
    · exact .hexadecimal hk length value
    · exact .decimal hk nonempty digits short fits

theorem decides_literal (hk : kind = .byte ∨ kind = .nibble) (ht : dropFinalFeed t = t)
    (short : t.length ≤ maxDigits) : Decides (readOperand labels kind t)
      (LiteralValue (kind.width / 4) (2 ^ kind.width - 1) t) (fun error =>
        error = .literalOverflow ∧ ∃ n > 2 ^ kind.width - 1, Numeral 10 DecimalDigit t n) := by
  have hlarge {n : Nat} : n > 2 ^ kind.width - 1 ↔ 2 ^ kind.width ≤ n := by
    have hpos := Nat.two_pow_pos kind.width
    omega
  refine decides_of (fun v => (readOperand_eq_ok ht).trans (spells_literal_iff hk short)) ?_ ?_
  · rintro error ⟨-, n, large, numeral⟩
    obtain ⟨decimal, rfl⟩ := decimal_numeral_iff.mp numeral
    exact ⟨_, (Misspells.overflow hk decimal short (hlarge.mp large)).readOperand_eq ht⟩
  · intro i hi
    simp only [decimal_numeral_iff, hlarge]
    cases (readOperand_eq_error ht).mp hi with
    | undefined => simp at hk
    | distant => simp at hk
    | address => simp at hk
    | register => simp at hk
    | overflow _ decimal _ large => exact ⟨_, rfl, by simp [Fault.kind, decimal, large]⟩
    | endless _ _ long => exact absurd short (Nat.not_le.mpr long)
    | literal _ _ undecimal => exact ⟨_, rfl, by simp [Fault.kind, undecimal]⟩

theorem decides_word (ht : dropFinalFeed t = t) : Decides ((readWord t).mapError .error)
    (fun bytes => ∃ n, Marked '#' 4 16 HexDigit t n ∧ bytes.map UInt8.toNat = [n / 256, n % 256])
    (fun _ => False) := by
  have hwritten : ∀ n < 16 ^ 4, (wordBytes n).map UInt8.toNat = [n / 256, n % 256] := by
    intro n hn
    simp [wordBytes]
    omega
  refine decides_plainly (fun bytes => ?_) fun i hi => ?_
  · rw [Except.mapError_eq_ok, readWord_eq_ok ht,
      marked_bytes_iff hexValue_eq_some (Nat.zero_lt_succ 3) hexValue_lt hwritten]
    constructor
    · rintro ⟨length, value⟩
      exact ⟨_, _, rfl, length, value, rfl⟩
    · rintro ⟨ds, n, rfl, length, value, rfl⟩
      exact .word length value
  · obtain ⟨fault, hfault, rfl⟩ := Except.mapError_eq_error.mp hi
    obtain ⟨-, rfl⟩ := (readWord_eq_error ht).mp hfault
    exact ⟨_, rfl, rfl⟩

theorem decides_bits (ht : dropFinalFeed t = t) : Decides ((readBits t).mapError .error)
    (fun bytes => ∃ n, Marked '$' 8 2 BitDigit t n ∧ bytes.map UInt8.toNat = [n])
    (fun _ => False) := by
  have hwritten : ∀ n < 2 ^ 8, [UInt8.ofNat n].map UInt8.toNat = [n] := by
    intro n hn
    simp
    omega
  refine decides_plainly (fun bytes => ?_) fun i hi => ?_
  · rw [Except.mapError_eq_ok, readBits_eq_ok ht,
      marked_bytes_iff bitValue_eq_some (Nat.zero_lt_succ 7) bitValue_lt hwritten]
    constructor
    · rintro (_ | ⟨length, value⟩)
      exact ⟨_, _, rfl, length, value, rfl⟩
    · rintro ⟨ds, n, rfl, length, value, rfl⟩
      exact .bits length value
  · obtain ⟨fault, hfault, rfl⟩ := Except.mapError_eq_error.mp hi
    obtain ⟨-, rfl⟩ := (readBits_eq_error ht).mp hfault
    exact ⟨_, rfl, rfl⟩

end Outcomes

/-- Every operand parser returns the values of its grammar and refuses all other texts, each with
the one error that its text deserves. -/
theorem operands_decided {t : Text} (trimmed : Trimmed t) (short : t.length ≤ 4300)
    (labels : Labels) :
    Decides ((readRegister t).mapError .error) (RegisterNumber t) (fun _ => False) ∧
    Decides (readLiteral .byte t) (LiteralValue 2 255 t)
      (fun kind => kind = .literalOverflow ∧ ∃ n > 255, Numeral 10 DecimalDigit t n) ∧
    Decides (readLiteral .nibble t) (LiteralValue 1 15 t)
      (fun kind => kind = .literalOverflow ∧ ∃ n > 15, Numeral 10 DecimalDigit t n) ∧
    Decides ((readAddress labels t).mapError .error) (AddressValue labels t)
      (fun kind => kind = .unresolvedLabel ∧ isName t = true ∧ labels.lookup t = none) ∧
    Decides ((readWord t).mapError .error) (fun bytes =>
      ∃ n, Marked '#' 4 16 HexDigit t n ∧ bytes.map UInt8.toNat = [n / 256, n % 256])
      (fun _ => False) ∧
    Decides ((readBits t).mapError .error)
      (fun bytes => ∃ n, Marked '$' 8 2 BitDigit t n ∧ bytes.map UInt8.toNat = [n])
      (fun _ => False) := by
  have ht : dropFinalFeed t = t := by
    rw [← trimmed.trim_eq]
    exact dropFinalFeed_trim t
  exact ⟨@decides_register labels t ht, @decides_literal labels .byte t (.inl rfl) ht short,
    @decides_literal labels .nibble t (.inr rfl) ht short, decides_address ht, decides_word ht,
    decides_bits ht⟩

theorem operands_decided_overflowing : Trimmed "000256".toList ∧ "000256".toList.length ≤ 4300 ∧
    Numeral 10 DecimalDigit "000256".toList 256 ∧
    (readLiteral .byte "000256".toList).mapError (·.map Fault.kind) =
      .error (.error .literalOverflow) := by
  have trimmed : Trimmed "000256".toList := by
    constructor
    · rintro c ⟨⟩
      rfl
    · rintro c ⟨⟩
      rfl
  have numeral : Numeral 10 DecimalDigit "000256".toList 256 :=
    decimal_numeral_iff.mpr ⟨⟨by decide, rfl⟩, rfl⟩
  obtain ⟨-, hbyte, -⟩ := operands_decided trimmed (by decide) []
  have hraised := (hbyte.raises .literalOverflow (by decide)).mpr ⟨rfl, 256, by decide, numeral⟩
  exact ⟨trimmed, by decide, numeral, hraised⟩

end Chip8.Assembly
