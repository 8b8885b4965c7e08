import Chip8.Proofs.OperandSpelling

namespace Chip8.Text

open Assembly

def digitOf (d : Nat) : Char := (Nat.digitChar d).toUpper

def lastDigits (base : Nat) : Nat → Nat → Text
  | 0, _ => []
  | k + 1, n => lastDigits base k (n / base) ++ [digitOf (n % base)]

theorem digits_eq {base : Nat} (hb : 1 < base) (n : Nat) :
    digits base n = if n < base then [digitOf n] else digits base (n / base) ++ [digitOf (n % base)] := by
  unfold digits
  rw [Nat.toDigits_eq_if hb]
  split_ifs
  · rfl
  · rw [List.map_append]
    rfl

theorem lastDigits_zero {base : Nat} (k : Nat) : lastDigits base k 0 = List.replicate k '0' := by
  induction k with
  | zero => rfl
  | succ k ih =>
    rw [lastDigits, Nat.zero_div, Nat.zero_mod, ih, List.replicate_succ']
    rfl

theorem replicate_append_digits {base : Nat} (hb : 1 < base) (k n : Nat) (h : n < base ^ (k + 1)) :
    List.replicate (k + 1 - (digits base n).length) '0' ++ digits base n =
      lastDigits base (k + 1) n := by
  induction k generalizing n with
  | zero =>
    rw [Nat.zero_add, Nat.pow_one] at h
    rw [digits_eq hb, if_pos h, lastDigits, lastDigits, Nat.mod_eq_of_lt h]
    rfl
  | succ k ih =>
    rw [lastDigits, digits_eq hb]
    split_ifs with hn
    · rw [Nat.div_eq_of_lt hn, Nat.mod_eq_of_lt hn, lastDigits_zero]
      rfl
    · have hdiv : n / base < base ^ (k + 1) := by
        apply Nat.div_lt_of_lt_mul
        rwa [← Nat.pow_succ']
      rw [← ih (n / base) hdiv, List.append_assoc, List.length_append, List.length_singleton,
        Nat.add_sub_add_right]

theorem padded_eq_lastDigits {base k n : Nat} (hb : 1 < base) (hk : 0 < k) (h : n < base ^ k) :
    padded base k n = lastDigits base k n := by
  obtain ⟨j, rfl⟩ := Nat.exists_eq_add_one_of_ne_zero (Nat.ne_of_gt hk)
  have hsign : ¬(n : Int) < 0 := Int.not_lt.mpr (Int.natCast_nonneg n)
  rw [← replicate_append_digits hb j n h]
  simp only [padded, hsign, if_false, List.length_nil, Nat.sub_zero, List.nil_append,
    Int.natAbs_natCast]

theorem hex_eq {k n : Nat} (hk : 0 < k) (h : n < 16 ^ k) : (hex k n).toList = lastDigits 16 k n := by
  rw [hex, String.toList_ofList, padded_eq_lastDigits (by decide) hk h]

theorem binary_eq {k n : Nat} (hk : 0 < k) (h : n < 2 ^ k) :
    (binary k n).toList = lastDigits 2 k n := by
  rw [binary, String.toList_ofList, padded_eq_lastDigits (by decide) hk h]

theorem length_lastDigits (base k n : Nat) : (lastDigits base k n).length = k := by
  induction k generalizing n with
  | zero => rfl
  | succ k ih => rw [lastDigits, List.length_append, ih, List.length_singleton]

theorem mem_lastDigits {base : Nat} (hb : 0 < base) {k n : Nat} {c : Char}
    (h : c ∈ lastDigits base k n) : ∃ d < base, c = digitOf d := by
  induction k generalizing n with
  | zero => cases h
  | succ k ih =>
    rcases List.mem_append.mp h with h | h
    · exact ih h
    · exact ⟨n % base, Nat.mod_lt n hb, List.mem_singleton.mp h⟩

theorem numberOf_append_singleton {base : Nat} {value : Char → Option Nat} {ds : Text} {c : Char}
    {n d : Nat} (hn : numberOf base value ds = some n) (hd : value c = some d) :
    numberOf base value (ds ++ [c]) = some (n * base + d) := by
  obtain ⟨vs, hvs, rfl⟩ := Option.map_eq_some_iff.mp hn
  simp [numberOf, hvs, hd, valueOf]

theorem numberOf_lastDigits {base : Nat} {value : Char → Option Nat} (hb : 0 < base)
    (hv : ∀ d < base, value (digitOf d) = some d) {k n : Nat} (h : n < base ^ k) :
    numberOf base value (lastDigits base k n) = some n := by
  induction k generalizing n with
  | zero =>
    rw [Nat.pow_zero, Nat.lt_one_iff] at h
    rw [h]
    rfl
  | succ k ih =>
    have hdiv : n / base < base ^ k := by
      apply Nat.div_lt_of_lt_mul
      rwa [← Nat.pow_succ']
    have hmod : n % base < base := Nat.mod_lt n hb
    rw [lastDigits, numberOf_append_singleton (ih hdiv) (hv _ hmod), Nat.mul_comm,
      Nat.div_add_mod]

theorem hexValue_digitOf : ∀ d < 16, hexValue (digitOf d) = some d := by
  decide

theorem bitValue_digitOf : ∀ d < 2, bitValue (digitOf d) = some d := by
  decide

end Chip8.Text
