import Chip8.Position

namespace Chip8

theorem position_eq_some {n : Nat} {i : Int} (h : 0 ≤ i) (hn : i < n) :
    position n i = some ⟨i.toNat, by omega⟩ := by
  rw [position, dif_pos ⟨h, hn⟩]

variable {α : Type} {xs : List α}

theorem pick_natCast {k : Nat} (hk : k < xs.length) : pick xs k = some xs[k] := by
  rw [pick, position_eq_some (Int.natCast_nonneg k) (Int.ofNat_lt.mpr hk)]
  rfl

theorem cut_natCast {n k : Nat} (hk : k ≤ n) : cut n k = k := by
  rw [cut, if_neg (Int.not_lt.mpr (Int.natCast_nonneg k)), Int.toNat_natCast, Nat.min_eq_right hk]

theorem slice_append (before middle after : List α) :
    slice (before ++ middle ++ after) before.length (before.length + middle.length : Nat) =
      middle := by
  have hlength : (before ++ middle ++ after).length =
      before.length + middle.length + after.length := by
    rw [List.length_append, List.length_append]
  rw [slice, cut_natCast (by omega), cut_natCast (by omega), ← List.length_append,
    List.take_left, List.drop_left]

end Chip8
