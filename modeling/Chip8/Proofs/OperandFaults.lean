import Chip8.Proofs.LabelReferences

namespace Chip8.Assembly

open Text

structure Decimal (t : Text) : Prop where
  nonempty : t ≠ []
  digits : t.all Char.isDigit = true

inductive Misspells (labels : Labels) : OperandKind → Text → Interruption Fault → Prop
  | undefined {t : Text} (name : isName t = true) (lookup : labels.lookup t = none) :
    Misspells labels .address t (.error (.undefinedLabel t))
  | distant {t : Text} {a : Int} (name : isName t = true) (lookup : labels.lookup t = some a)
    (far : 0xFFF < a) : Misspells labels .address t (.error (.distantLabel t a))
  | address {t : Text} (wrong : ¬InGrammar .address t) :
    Misspells labels .address t (.error (.badAddress t))
  | register {t : Text} (wrong : ¬InGrammar .register t) :
    Misspells labels .register t (.error (.badRegister t))
  | overflow {kind : OperandKind} {t : Text} (literal : kind = .byte ∨ kind = .nibble)
    (decimal : Decimal t) (length : t.length ≤ maxDigits) (large : 2 ^ kind.width ≤ decimalNumber t) :
    Misspells labels kind t (.error (.literalOverflow kind (decimalNumber t)))
  | endless {kind : OperandKind} {t : Text} (literal : kind = .byte ∨ kind = .nibble)
    (decimal : Decimal t) (long : maxDigits < t.length) :
    Misspells labels kind t (.endlessNumeral t.length)
  | literal {kind : OperandKind} {t : Text} (literal : kind = .byte ∨ kind = .nibble)
    (wrong : ¬InGrammar kind t) (undecimal : ¬Decimal t) :
    Misspells labels kind t (.error (.badLiteral kind t))

theorem Misspells.of_endless {labels : Labels} {kind : OperandKind} {t : Text} {digits : Nat}
    (h : Misspells labels kind t (.endlessNumeral digits)) :
    (kind = .byte ∨ kind = .nibble) ∧ Decimal t ∧ t.length = digits ∧ maxDigits < digits := by
  cases h with
  | endless literal decimal long => exact ⟨literal, decimal, rfl, long⟩

section Grammar

variable {t : Text} {n : Nat}

theorem exists_marked_iff {mark : Char} {base count : Nat} {value : Char → Option Nat} :
    (∃ n, marked mark base count value t = some n) ↔
      ∃ ds, t = mark :: ds ∧ ds.length = count ∧ ∀ c ∈ ds, (value c).isSome = true := by
  simp only [marked_eq_some]
  constructor
  · rintro ⟨n, ds, ht, hlength, hn⟩
    exact ⟨ds, ht, hlength, exists_numberOf_iff.mp ⟨n, hn⟩⟩
  · rintro ⟨ds, ht, hlength, hvalues⟩
    obtain ⟨n, hn⟩ := exists_numberOf_iff.mpr hvalues
    exact ⟨n, ds, ht, hlength, hn⟩

theorem inGrammar_address_iff : InGrammar .address t ↔
    (∃ n, marked '$' 16 3 hexValue t = some n) ∨ isName t = true := by
  simp only [exists_marked_iff, isSome_hexValue]
  constructor
  · intro h
    cases h with
    | address length digits => exact .inl ⟨_, rfl, length, digits⟩
    | label name => exact .inr name
    | hexadecimal literal => simp at literal
    | decimal literal => simp at literal
  · rintro (⟨ds, rfl, length, digits⟩ | name)
    · exact .address length digits
    · exact .label name

theorem inGrammar_register_iff : InGrammar .register t ↔
    ∃ v d, t = [v, d] ∧ (v = 'V' ∨ v = 'v') ∧ ∃ n, hexValue d = some n := by
  simp only [← Option.isSome_iff_exists, isSome_hexValue]
  constructor
  · intro h
    cases h with
    | register mark digit => exact ⟨_, _, rfl, mark, digit⟩
    | hexadecimal literal => simp at literal
    | decimal literal => simp at literal
  · rintro ⟨v, d, rfl, mark, digit⟩
    exact .register mark digit

theorem inGrammar_literal_iff {kind : OperandKind} (hk : kind = .byte ∨ kind = .nibble) :
    InGrammar kind t ↔ (∃ n, marked '#' 16 (kind.width / 4) hexValue t = some n) ∨
      Decimal t ∧ decimalNumber t < 2 ^ kind.width := by
  simp only [exists_marked_iff, isSome_hexValue]
  constructor
  · intro h
    cases h with
    | address => simp at hk
    | label => simp at hk
    | register => simp at hk
    | hexadecimal _ length digits => exact .inl ⟨_, rfl, length, digits⟩
    | decimal _ nonempty digits fits => exact .inr ⟨⟨nonempty, digits⟩, fits⟩
  · rintro (⟨ds, rfl, length, digits⟩ | ⟨⟨nonempty, digits⟩, fits⟩)
    · exact .hexadecimal hk length digits
    · exact .decimal hk nonempty digits fits

end Grammar

section Literals

variable {kind : OperandKind} {t : Text}

theorem Decimal.readLiteral_eq (h : Decimal t) (ht : dropFinalFeed t = t) : readLiteral kind t =
    if maxDigits < t.length then .error (.endlessNumeral t.length)
    else if decimalNumber t < 2 ^ kind.width then .ok (decimalNumber t)
    else .error (.error (.literalOverflow kind (decimalNumber t))) := by
  obtain ⟨hne, hdigits⟩ := h
  obtain ⟨c, ds, rfl⟩ := List.exists_cons_of_ne_nil hne
  have hc : c ≠ '#' := by
    rintro rfl
    simp at hdigits
  simp only [readLiteral, ht, marked_eq_none hc, Nat.one_shiftLeft]
  rw [if_pos ⟨hne, hdigits⟩]
  rfl

theorem readLiteral_of_not_decimal (h : ¬Decimal t) (ht : dropFinalFeed t = t) :
    readLiteral kind t = (marked '#' 16 (kind.width / 4) hexValue t).elim
      (.error (.error (.badLiteral kind t))) (fun n => .ok n) := by
  have hdecimal : ¬(t ≠ [] ∧ t.all Char.isDigit = true) := fun hd => h ⟨hd.1, hd.2⟩
  simp only [readLiteral, ht, if_neg hdecimal]
  cases marked '#' 16 (kind.width / 4) hexValue t <;> rfl

end Literals

section Reading

variable {labels : Labels} {kind : OperandKind} {t : Text} {i : Interruption Fault}

theorem readOperand_of_literal (labels : Labels) (hk : kind = .byte ∨ kind = .nibble) (t : Text) :
    readOperand labels kind t = readLiteral kind t := by
  rcases hk with rfl | rfl <;> rfl

theorem Misspells.readOperand_eq (h : Misspells labels kind t i) (ht : dropFinalFeed t = t) :
    readOperand labels kind t = .error i := by
  have hnone {mark : Char} {base count : Nat} {value : Char → Option Nat}
      (h : ¬∃ n, marked mark base count value t = some n) :
      marked mark base count value t = none :=
    Option.eq_none_iff_forall_ne_some.mpr (not_exists.mp h)
  cases h with
  | undefined name lookup =>
    rw [readOperand, Statement.readAddress_of_isName name ht, lookup]
    rfl
  | distant name lookup far =>
    rw [readOperand, Statement.readAddress_of_isName name ht, lookup, Option.elim_some, if_pos far]
    rfl
  | address wrong =>
    rw [inGrammar_address_iff, not_or] at wrong
    simp only [readOperand, readAddress, ht, hnone wrong.1, wrong.2, Bool.false_eq_true, if_false]
    rfl
  | register wrong =>
    rw [inGrammar_register_iff] at wrong
    simp only [readOperand, readRegister, ht]
    split
    · rename_i v d
      cases hd : hexValue d with
      | none => rfl
      | some n =>
        have hmark : ¬(v = 'V' ∨ v = 'v') := fun hmark => wrong ⟨v, d, rfl, hmark, n, hd⟩
        simp only [if_neg hmark]
        rfl
    · rfl
  | overflow literal decimal length large =>
    rw [readOperand_of_literal labels literal, decimal.readLiteral_eq ht,
      if_neg (Nat.not_lt.mpr length), if_neg (Nat.not_lt.mpr large)]
  | endless literal decimal long =>
    rw [readOperand_of_literal labels literal, decimal.readLiteral_eq ht, if_pos long]
  | literal literal wrong undecimal =>
    rw [inGrammar_literal_iff literal, not_or] at wrong
    rw [readOperand_of_literal labels literal, readLiteral_of_not_decimal undecimal ht,
      hnone wrong.1]
    rfl

theorem misspells_of_readLiteral (hk : kind = .byte ∨ kind = .nibble) (ht : dropFinalFeed t = t)
    (h : readLiteral kind t = .error i) : Misspells labels kind t i := by
  by_cases hd : Decimal t
  · rw [hd.readLiteral_eq ht] at h
    split_ifs at h with hlong hfits
    · cases h
      exact .endless hk hd hlong
    · cases h
      exact .overflow hk hd (Nat.not_lt.mp hlong) (Nat.not_lt.mp hfits)
  · rw [readLiteral_of_not_decimal hd ht] at h
    cases hm : marked '#' 16 (kind.width / 4) hexValue t with
    | some n =>
      rw [hm] at h
      cases h
    | none =>
      rw [hm] at h
      cases h
      refine .literal hk ?_ hd
      rw [inGrammar_literal_iff hk, hm]
      simp [hd]

theorem misspells_of_readOperand (ht : dropFinalFeed t = t)
    (h : readOperand labels kind t = .error i) : Misspells labels kind t i := by
  cases kind with
  | address =>
    obtain ⟨fault, hfault, rfl⟩ := Except.mapError_eq_error.mp h
    by_cases hname : isName t = true
    · rw [Statement.readAddress_of_isName hname ht] at hfault
      cases hlookup : labels.lookup t with
      | none =>
        rw [hlookup] at hfault
        cases hfault
        exact .undefined hname hlookup
      | some a =>
        rw [hlookup, Option.elim_some] at hfault
        split_ifs at hfault with hfar
        cases hfault
        exact .distant hname hlookup hfar
    · cases hm : marked '$' 16 3 hexValue t with
      | some n => simp [readAddress, ht, hm] at hfault
      | none =>
        simp only [readAddress, ht, hm, if_neg hname] at hfault
        cases hfault
        refine .address ?_
        rw [inGrammar_address_iff, hm]
        simp [hname]
  | register =>
    obtain ⟨fault, hfault, rfl⟩ := Except.mapError_eq_error.mp h
    have hwrong : ¬InGrammar .register t := by
      rw [inGrammar_register_iff]
      rintro ⟨v, d, rfl, hmark, n, hd⟩
      simp [readRegister, ht, hd, hmark] at hfault
    obtain rfl : fault = .badRegister t := by
      simp only [readRegister, ht] at hfault
      split at hfault
      · split at hfault
        · split_ifs at hfault
          cases hfault
          rfl
        · cases hfault
          rfl
      · cases hfault
        rfl
    exact .register hwrong
  | byte => exact misspells_of_readLiteral (.inl rfl) ht h
  | nibble => exact misspells_of_readLiteral (.inr rfl) ht h

theorem readOperand_eq_error (ht : dropFinalFeed t = t) :
    readOperand labels kind t = .error i ↔ Misspells labels kind t i :=
  ⟨misspells_of_readOperand ht, fun h => h.readOperand_eq ht⟩

end Reading

end Chip8.Assembly
