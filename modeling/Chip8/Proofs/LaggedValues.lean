import Chip8.LaggedGenerator
import Mathlib.Data.Int.Init
import Mathlib.Tactic.SplitIfs

namespace Chip8.LaggedGenerator

def after (g : LaggedGenerator) : Nat → LaggedGenerator
  | 0 => g
  | n + 1 => (g.after n).next.2

def output (g : LaggedGenerator) (k : Int) : Int :=
  if h : 0 < k then (g.after (k - 1).toNat).next.1 else g.table.get ⟨(k + 55).toNat, by omega⟩

def withSpare (g : LaggedGenerator) (x : Int) : LaggedGenerator :=
  { g with table := g.table.set 0 x }

theorem get_set {α : Type} (t : Vector α 56) (i j : Fin 56) (x : α) :
    (t.set i.val x i.isLt).get j = if i = j then x else t.get j := by
  show (t.set i.val x i.isLt)[j.val] = if i = j then x else t[j.val]
  simp only [Vector.getElem_set, Fin.val_inj]

theorem following_val (i : Fin 56) : (following i).val = i.val % 55 + 1 := by
  rw [following]
  split
  · simp only
    omega
  · have hi := i.isLt
    have hone : (1 : Fin 56).val = 1 := rfl
    omega

theorem following_ne_zero (i : Fin 56) : following i ≠ 0 := by
  intro h
  have hval : (following i).val = 0 := congrArg Fin.val h
  rw [following_val] at hval
  exact Nat.succ_ne_zero _ hval

variable {g : LaggedGenerator}

theorem next_fst (g : LaggedGenerator) : g.next.1 =
    reduce (g.table.get (following g.near) - g.table.get (following g.far)) := rfl

theorem next_snd (g : LaggedGenerator) : g.next.2 =
    { g with
      table := g.table.set (following g.near).val g.next.1 (following g.near).isLt
      near := following g.near
      far := following g.far } := rfl

theorem get_table_next (g : LaggedGenerator) (i : Fin 56) :
    g.next.2.table.get i = if following g.near = i then g.next.1 else g.table.get i :=
  get_set g.table (following g.near) i g.next.1

theorem output_succ (g : LaggedGenerator) (n : Nat) :
    g.output (n + 1) = (g.after n).next.1 := by
  rw [output, dif_pos (by omega), Int.add_sub_cancel, Int.toNat_natCast]

theorem output_of_nonpos (g : LaggedGenerator) {k : Int} (hk : k ≤ 0) (i : Fin 56)
    (hi : (i.val : Int) = k + 55) : g.output k = g.table.get i := by
  rw [output, dif_neg (by omega)]
  congr 1
  apply Fin.ext
  simp only
  omega

section Start

variable (near : g.near = 0) (far : g.far = 21)

include near in
theorem near_after (n : Nat) : (following (g.after n).near).val = n % 55 + 1 := by
  induction n with
  | zero => rw [after, near]; rfl
  | succ n ih =>
    have hnear : (g.after (n + 1)).near = following (g.after n).near := rfl
    rw [hnear, following_val, ih]
    omega

include far in
theorem far_after (n : Nat) : (following (g.after n).far).val = (n + 21) % 55 + 1 := by
  induction n with
  | zero => rw [after, far]; rfl
  | succ n ih =>
    have hfar : (g.after (n + 1)).far = following (g.after n).far := rfl
    rw [hfar, following_val, ih]
    omega

include near far in
theorem output_one : g.output 1 = reduce (g.table.get 1 - g.table.get 22) := by
  have h := g.output_succ 0
  rw [after, next_fst, near, far] at h
  exact h

include near in
theorem table_after (n : Nat) (i : Fin 56) (hi : i ≠ 0) :
    (g.after n).table.get i = g.output (n - (n - i.val) % 55) := by
  have hpos : 0 < i.val := Nat.pos_of_ne_zero fun h => hi (Fin.ext h)
  have hlt := i.isLt
  induction n with
  | zero => exact (g.output_of_nonpos (by omega) i (by omega)).symm
  | succ n ih =>
    have hval := near_after near n
    rw [after, get_table_next]
    split_ifs with heq
    · rw [heq] at hval
      rw [← output_succ]
      congr 1
      omega
    · have hne : i.val ≠ n % 55 + 1 := by
        rw [← hval]
        exact fun h => heq (Fin.ext h.symm)
      rw [ih]
      congr 1
      omega

include near far in
theorem output_lagged (n : Nat) :
    g.output (n + 1) = reduce (g.output (n + 1 - 55) - g.output (n + 1 - 34)) := by
  have hnear := table_after near n _ (following_ne_zero (g.after n).near)
  have hfar := table_after near n _ (following_ne_zero (g.after n).far)
  rw [near_after near] at hnear
  rw [far_after far] at hfar
  rw [output_succ, next_fst, hnear, hfar]
  congr 3 <;> omega

end Start

section Spare

variable (g : LaggedGenerator) (x : Int)

theorem get_withSpare {i : Fin 56} (hi : i ≠ 0) :
    (g.withSpare x).table.get i = g.table.get i := by
  have hget : (g.withSpare x).table.get i = if 0 = i then x else g.table.get i :=
    get_set g.table 0 i x
  rw [hget, if_neg hi.symm]

theorem next_withSpare : (g.withSpare x).next = (g.next.1, g.next.2.withSpare x) := by
  have hvalue : (g.withSpare x).next.1 = g.next.1 := by
    rw [next_fst, next_fst, ← g.get_withSpare x (following_ne_zero g.near),
      ← g.get_withSpare x (following_ne_zero g.far)]
    rfl
  have hne : 0 ≠ (following g.near).val := fun h => following_ne_zero g.near (Fin.ext h.symm)
  have hstate : (g.withSpare x).next.2 = g.next.2.withSpare x := by
    rw [next_snd, hvalue, withSpare, withSpare, next_snd]
    simp only [Vector.set_comm _ _ hne]
  exact Prod.ext hvalue hstate

theorem after_withSpare (n : Nat) : (g.withSpare x).after n = (g.after n).withSpare x := by
  induction n with
  | zero => rfl
  | succ n ih => rw [after, ih, next_withSpare, after]

end Spare

def corrected (d : Int) : Int :=
  if d = 2147483647 then d - 1 else if d < 0 then d + 2147483647 else d

theorem reduce_eq (d : Int) : reduce d = corrected d := by
  rw [reduce, wrap, corrected, modulus]
  split_ifs <;> omega

/-- A value is the difference of the values 55 and 34 before it, corrected once, where the entries of
the seeded table stand for what comes before the first. The spare entry stays as it is and nothing
depends on it. -/
theorem outputs_recur (seed : Int) :
    (∀ n : Nat, (ofSeed seed).output (n + 1) =
      corrected ((ofSeed seed).output (n + 1 - 55) - (ofSeed seed).output (n + 1 - 34))) ∧
    ∀ (x : Int) (n : Nat),
      ((ofSeed seed).withSpare x).after n = ((ofSeed seed).after n).withSpare x ∧
      ((ofSeed seed).withSpare x).output (n + 1) = (ofSeed seed).output (n + 1) := by
  refine ⟨fun n => ?_, fun x n => ⟨after_withSpare _ x n, ?_⟩⟩
  · rw [output_lagged rfl rfl, reduce_eq]
  · rw [output_succ, output_succ, after_withSpare, next_withSpare]

end Chip8.LaggedGenerator
