import Chip8.Assembly.Image
import Chip8.Proofs.Outcomes
import Mathlib.Algebra.Order.Ring.Nat

namespace Chip8.Assembly

open Text

def numberOf (base : Nat) (value : Char → Option Nat) (ds : Text) : Option Nat :=
  (ds.mapM value).map (valueOf base)

def decimalNumber (ds : Text) : Nat := valueOf 10 (ds.map (fun c => c.toNat - 48))

inductive Spells (labels : Labels) : OperandKind → Text → Int → Prop
  | address {ds : Text} {n : Nat} (length : ds.length = 3) (value : numberOf 16 hexValue ds = some n) :
    Spells labels .address ('$' :: ds) n
  | label {t : Text} {a : Int} (name : isName t = true) (defined : labels.lookup t = some a)
    (near : a ≤ 0xFFF) : Spells labels .address t a
  | register {v d : Char} {n : Nat} (mark : v = 'V' ∨ v = 'v') (value : hexValue d = some n) :
    Spells labels .register [v, d] n
  | hexadecimal {kind : OperandKind} {ds : Text} {n : Nat} (literal : kind = .byte ∨ kind = .nibble)
    (length : ds.length = kind.width / 4) (value : numberOf 16 hexValue ds = some n) :
    Spells labels kind ('#' :: ds) n
  | decimal {kind : OperandKind} {ds : Text} (literal : kind = .byte ∨ kind = .nibble)
    (nonempty : ds ≠ []) (digits : ds.all Char.isDigit = true) (length : ds.length ≤ maxDigits)
    (fits : decimalNumber ds < 2 ^ kind.width) : Spells labels kind ds (decimalNumber ds)

inductive SpellsData : Item → Text → List UInt8 → Prop
  | word {ds : Text} {n : Nat} (length : ds.length = 4) (value : numberOf 16 hexValue ds = some n) :
    SpellsData .word ('#' :: ds) [UInt8.ofNat (n / 256), UInt8.ofNat n]
  | bits {ds : Text} {n : Nat} (length : ds.length = 8) (value : numberOf 2 bitValue ds = some n) :
    SpellsData .bits ('$' :: ds) [UInt8.ofNat n]

theorem marked_eq_some {mark : Char} {base count : Nat} {value : Char → Option Nat} {t : Text}
    {n : Nat} : marked mark base count value t = some n ↔
      ∃ ds, t = mark :: ds ∧ ds.length = count ∧ numberOf base value ds = some n := by
  cases t with
  | nil => simp [marked]
  | cons c ds =>
    simp only [marked, List.cons.injEq, numberOf]
    split_ifs with h
    · exact ⟨fun hn => ⟨ds, ⟨h.1, rfl⟩, h.2, hn⟩, by rintro ⟨_, ⟨-, rfl⟩, -, hn⟩; exact hn⟩
    · simp only [false_iff, not_exists, not_and]
      rintro _ ⟨hc, rfl⟩ hl
      exact absurd ⟨hc, hl⟩ h

theorem marked_eq_none {mark c : Char} {base count : Nat} {value : Char → Option Nat} {t : Text}
    (h : c ≠ mark) : marked mark base count value (c :: t) = none := by
  rw [marked, if_neg (fun hc => h hc.1)]

theorem readAddress_eq_ok {labels : Labels} {t : Text} {v : Int} (ht : dropFinalFeed t = t) :
    readAddress labels t = .ok v ↔ Spells labels .address t v := by
  simp only [readAddress, ht]
  constructor
  · intro h
    cases hm : marked '$' 16 3 hexValue t with
    | some n =>
      obtain ⟨ds, rfl, hl, hv⟩ := marked_eq_some.mp hm
      simp only [hm, Except.ok.injEq] at h
      exact h ▸ .address hl hv
    | none =>
      simp only [hm] at h
      split_ifs at h with hn
      cases hd : labels.lookup t with
      | none => simp [hd] at h
      | some a =>
        simp only [hd] at h
        split_ifs at h with ha
        cases h
        exact .label hn hd (Int.not_lt.mp ha)
  · intro h
    cases h with
    | address hl hv => rw [marked_eq_some.mpr ⟨_, rfl, hl, hv⟩]
    | label hn hd ha =>
      cases t with
      | nil => cases hn
      | cons c t =>
        have hc : c ≠ '$' := by
          rintro rfl
          simp [isName, isNameStart] at hn
        simp [marked_eq_none hc, hn, hd, ha]
    | hexadecimal hk => simp at hk
    | decimal hk => simp at hk

theorem readRegister_eq_ok {labels : Labels} {t : Text} {v : Int} (ht : dropFinalFeed t = t) :
    readRegister t = .ok v ↔ Spells labels .register t v := by
  simp only [readRegister, ht]
  constructor
  · intro h
    split at h
    · rename_i c d
      cases hd : hexValue d with
      | none => simp [hd] at h
      | some n =>
        simp only [hd] at h
        split_ifs at h with hc
        cases h
        exact .register hc hd
    · cases h
  · intro h
    cases h with
    | register hc hd => simp only [hd, hc, if_true]
    | hexadecimal hk => simp at hk
    | decimal hk => simp at hk

theorem readLiteral_eq_ok {labels : Labels} {kind : OperandKind} {t : Text} {v : Int}
    (hk : kind = .byte ∨ kind = .nibble) (ht : dropFinalFeed t = t) :
    readLiteral kind t = .ok v ↔ Spells labels kind t v := by
  simp only [readLiteral, ht, Nat.one_shiftLeft]
  constructor
  · intro h
    cases hm : marked '#' 16 (kind.width / 4) hexValue t with
    | some n =>
      obtain ⟨ds, rfl, hl, hv⟩ := marked_eq_some.mp hm
      simp only [hm, Except.ok.injEq] at h
      exact h ▸ .hexadecimal hk hl hv
    | none =>
      simp only [hm] at h
      split_ifs at h with hd hl hv
      cases h
      exact .decimal hk hd.1 hd.2 (Nat.not_lt.mp hl) hv
  · intro h
    cases h with
    | address => simp at hk
    | label => simp at hk
    | register => simp at hk
    | hexadecimal _ hl hv => rw [marked_eq_some.mpr ⟨_, rfl, hl, hv⟩]
    | decimal _ hne hd hl hv =>
      cases t with
      | nil => exact absurd rfl hne
      | cons c t =>
        have hc : c ≠ '#' := by
          rintro rfl
          simp at hd
        rw [decimalNumber] at hv ⊢
        simp only [marked_eq_none hc, hne, hd, hv, Nat.not_lt.mpr hl, if_true, if_false, ne_eq,
          not_false_eq_true, and_self]

theorem readOperand_eq_ok {labels : Labels} {kind : OperandKind} {t : Text} {v : Int}
    (ht : dropFinalFeed t = t) : readOperand labels kind t = .ok v ↔ Spells labels kind t v := by
  cases kind with
  | address => rw [readOperand, Except.mapError_eq_ok, readAddress_eq_ok ht]
  | register => rw [readOperand, Except.mapError_eq_ok, readRegister_eq_ok ht]
  | byte => exact readLiteral_eq_ok (.inl rfl) ht
  | nibble => exact readLiteral_eq_ok (.inr rfl) ht

theorem readWord_eq_ok {t : Text} {bytes : List UInt8} (ht : dropFinalFeed t = t) :
    readWord t = .ok bytes ↔ SpellsData .word t bytes := by
  simp only [readWord, ht]
  constructor
  · intro h
    split at h
    · rename_i n hm
      obtain ⟨ds, rfl, hl, hv⟩ := marked_eq_some.mp hm
      cases h
      exact .word hl hv
    · cases h
  · rintro ⟨hl, hv⟩
    rw [marked_eq_some.mpr ⟨_, rfl, hl, hv⟩]
    rfl

theorem readBits_eq_ok {t : Text} {bytes : List UInt8} (ht : dropFinalFeed t = t) :
    readBits t = .ok bytes ↔ SpellsData .bits t bytes := by
  simp only [readBits, ht]
  constructor
  · intro h
    split at h
    · rename_i n hm
      obtain ⟨ds, rfl, hl, hv⟩ := marked_eq_some.mp hm
      cases h
      exact .bits hl hv
    · cases h
  · rintro (_ | ⟨hl, hv⟩)
    rw [marked_eq_some.mpr ⟨_, rfl, hl, hv⟩]

end Chip8.Assembly
