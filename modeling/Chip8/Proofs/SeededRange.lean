import Chip8.Proofs.LaggedValues

namespace Chip8.LaggedGenerator

section Seeding

variable {α β : Type}

def scatterWith (f : α → α → α) : List (Fin 56) → Vector α 56 → α → α → Vector α 56
  | [], table, _, _ => table
  | i :: rest, table, previous, current =>
    scatterWith f rest (table.set i.val current i.isLt) current (f previous current)

def mixWith (f : α → α → α) (table : Vector α 56) : Vector α 56 :=
  (List.range' 1 55).foldl (fun t i =>
    t.set (i % 56) (f (t.get ⟨i % 56, by omega⟩) (t.get ⟨1 + (i % 56 + 30) % 55, by omega⟩))
      (by omega)) table

def seedWith (f : α → α → α) (spare first one : α) : Vector α 56 :=
  let last := Fin.last 55
  let table := (Vector.replicate 56 spare).set last.val first last.isLt
  let table := scatterWith f scatterOrder table first one
  mixWith f (mixWith f (mixWith f (mixWith f table)))

def difference (x y : Int) : Int := wrap (x - y)

theorem scatter_eq (order : List (Fin 56)) (table : Vector Int 56) (previous current : Int) :
    scatter order table previous current = scatterWith difference order table previous current := by
  induction order generalizing table previous current with
  | nil => rfl
  | cons i rest ih => exact ih _ _ _

theorem table_ofSeed (seed : Int) :
    (ofSeed seed).table = seedWith difference 0 (origin - magnitude seed) 1 := by
  rw [seedWith, ← scatter_eq]
  rfl

variable {f : α → α → α} {g : β → β → β} {r : α → β → Prop}

def Related (r : α → β → Prop) (s : Vector α 56) (t : Vector β 56) : Prop :=
  ∀ i, r (s.get i) (t.get i)

theorem Related.set {s : Vector α 56} {t : Vector β 56} (h : Related r s t) (i : Fin 56) {a : α}
    {b : β} (hab : r a b) : Related r (s.set i.val a i.isLt) (t.set i.val b i.isLt) := by
  intro j
  rw [get_set, get_set]
  split_ifs
  · exact hab
  · exact h j

section Steps

variable (step : ∀ {a b : α} {x y : β}, r a x → r b y → r (f a b) (g x y))

include step

theorem related_scatterWith (order : List (Fin 56)) {s : Vector α 56} {t : Vector β 56} {a b : α}
    {x y : β} (h : Related r s t) (hprevious : r a x) (hcurrent : r b y) :
    Related r (scatterWith f order s a b) (scatterWith g order t x y) := by
  induction order generalizing s t a b x y with
  | nil => exact h
  | cons i rest ih => exact ih (h.set i hcurrent) hcurrent (step hprevious hcurrent)

theorem related_mixWith {s : Vector α 56} {t : Vector β 56} (h : Related r s t) :
    Related r (mixWith f s) (mixWith g t) := by
  rw [mixWith, mixWith]
  generalize List.range' 1 55 = order
  induction order generalizing s t with
  | nil => exact h
  | cons i rest ih => exact ih (h.set ⟨i % 56, by omega⟩ (step (h _) (h _)))

theorem related_seedWith {a b c : α} {x y z : β} (hspare : r a x) (hfirst : r b y) (hone : r c z) :
    Related r (seedWith f a b c) (seedWith g x y z) := by
  have hstart : Related r (Vector.replicate 56 a) (Vector.replicate 56 x) := by
    intro i
    show r (Vector.replicate 56 a)[i.val] (Vector.replicate 56 x)[i.val]
    rwa [Vector.getElem_replicate, Vector.getElem_replicate]
  have hscattered := related_scatterWith step scatterOrder (hstart.set (Fin.last 55) hfirst) hfirst hone
  exact related_mixWith step (related_mixWith step (related_mixWith step
    (related_mixWith step hscattered)))

end Steps

end Seeding

def InRange (x : Int) : Prop := 0 ≤ x ∧ x ≤ 2147483646

theorem InRange.difference {x y : Int} (hx : InRange x) (hy : InRange y) :
    InRange (difference x y) := by
  rw [InRange] at *
  rw [LaggedGenerator.difference, wrap, modulus]
  split_ifs <;> omega

theorem InRange.reduce {x y : Int} (hx : InRange x) (hy : InRange y) : InRange (reduce (x - y)) := by
  rw [InRange] at *
  rw [reduce_eq, corrected]
  split_ifs <;> omega

theorem inRange_table {seed : Int} (h : seed.natAbs ≤ 161803398) (i : Fin 56) :
    InRange ((ofSeed seed).table.get i) := by
  have hfirst : InRange (origin - magnitude seed) := by
    rw [InRange, magnitude, origin, modulus]
    split_ifs <;> omega
  rw [table_ofSeed]
  exact related_seedWith (f := fun _ _ => ()) (r := fun _ => InRange) (a := ()) (b := ()) (c := ())
    InRange.difference ⟨by decide, by decide⟩ hfirst ⟨by decide, by decide⟩ i

theorem inRange_of_window {g : LaggedGenerator} (near : g.near = 0) (far : g.far = 21) {m : Int}
    (window : ∀ k, m < k → k ≤ m + 55 → InRange (g.output k)) (hm : -55 ≤ m) (n : Nat) :
    InRange (g.output (m + 1 + n)) := by
  induction n using Nat.strongRecOn with
  | ind n ih =>
    by_cases hn : n < 55
    · exact window _ (by omega) (by omega)
    · obtain ⟨k, hk⟩ : ∃ k : Nat, m + 1 + n = k + 1 := ⟨(m + n).toNat, by omega⟩
      have hnear := ih (n - 55) (by omega)
      have hfar := ih (n - 34) (by omega)
      have heqnear : m + 1 + (n - 55 : Nat) = k + 1 - 55 := by omega
      have heqfar : m + 1 + (n - 34 : Nat) = k + 1 - 34 := by omega
      rw [heqnear] at hnear
      rw [heqfar] at hfar
      rw [hk, output_lagged near far]
      exact hnear.reduce hfar

/-! Far seeds -/

/-- A number as a multiple of an unknown one, up to an error between two bounds. -/
structure Estimate where
  slope : Int
  low : Int
  high : Int

namespace Estimate

def Covers (m : Int) (e : Estimate) (x : Int) : Prop :=
  e.slope * m + e.low ≤ x ∧ x ≤ e.slope * m + e.high

def difference (e d : Estimate) : Estimate :=
  ⟨e.slope - d.slope, e.low - d.high, e.high - d.low + modulus⟩

theorem Covers.difference {m x y : Int} {e d : Estimate} (hx : e.Covers m x) (hy : d.Covers m y) :
    (e.difference d).Covers m (LaggedGenerator.difference x y) := by
  rw [Covers] at *
  rw [Estimate.difference, LaggedGenerator.difference, wrap, modulus]
  simp only [Int.sub_mul]
  split_ifs <;> omega

def seeded : Vector Estimate 56 := seedWith difference ⟨0, 0, 0⟩ ⟨1, 0, 0⟩ ⟨0, 1, 1⟩

theorem covers_table (seed : Int) (i : Fin 56) :
    (seeded.get i).Covers (origin - magnitude seed) ((ofSeed seed).table.get i) := by
  rw [table_ofSeed]
  refine related_seedWith (r := Covers _) Covers.difference ?_ ?_ ?_ i <;> rw [Covers] <;> simp

theorem seeded_first : (seeded.get 1).slope - (seeded.get 22).slope = 127727119001 ∧
    (seeded.get 1).high - (seeded.get 22).low = 443813720666772107073 := by
  decide +kernel

end Estimate

theorem output_one_neg {seed : Int} (h : 4294967296 ≤ seed.natAbs) : (ofSeed seed).output 1 < 0 := by
  have hm : origin - magnitude seed ≤ -4133163898 := by
    rw [magnitude, origin, modulus]
    split_ifs <;> omega
  obtain ⟨-, hnear⟩ := Estimate.covers_table seed 1
  obtain ⟨hfar, -⟩ := Estimate.covers_table seed 22
  obtain ⟨hslope, hhigh⟩ := Estimate.seeded_first
  have hbound : (ofSeed seed).table.get 1 - (ofSeed seed).table.get 22 ≤
      127727119001 * (origin - magnitude seed) + 443813720666772107073 := by
    rw [← hslope, ← hhigh, Int.sub_mul]
    omega
  rw [output_one rfl rfl, reduce_eq, corrected]
  split_ifs <;> omega

/-- Seeds up to the origin give values in range. The values of any seed are in range if its first 55
are, and those of a seed beyond 32 bits start below it. -/
theorem output_inRange (seed : Int) :
    (seed.natAbs ≤ 161803398 → ∀ n : Nat, InRange ((ofSeed seed).output (n + 1))) ∧
    ((∀ n : Nat, InRange ((ofSeed seed).output (n + 1))) ↔
      ∀ n : Nat, n < 55 → InRange ((ofSeed seed).output (n + 1))) ∧
    (4294967296 ≤ seed.natAbs → (ofSeed seed).output 1 < 0) := by
  refine ⟨fun h n => ?_, ⟨fun h n _ => h n, fun h n => ?_⟩, output_one_neg⟩
  · have hwindow : ∀ k, -55 < k → k ≤ -55 + 55 → InRange ((ofSeed seed).output k) := by
      intro k hk hk'
      rw [output_of_nonpos _ (by omega) ⟨(k + 55).toNat, by omega⟩ (by simp only; omega)]
      exact inRange_table h _
    have hn := inRange_of_window rfl rfl hwindow (by omega) (n + 55)
    have heq : (-55 : Int) + 1 + (n + 55 : Nat) = n + 1 := by omega
    rwa [heq] at hn
  · have hwindow : ∀ k, 0 < k → k ≤ 0 + 55 → InRange ((ofSeed seed).output k) := by
      intro k hk hk'
      obtain ⟨j, rfl⟩ : ∃ j : Nat, k = j + 1 := ⟨(k - 1).toNat, by omega⟩
      exact h j (by omega)
    have hn := inRange_of_window rfl rfl hwindow (by omega) n
    have heq : (0 : Int) + 1 + n = n + 1 := by omega
    rwa [heq] at hn

theorem output_inRange_apart : (∀ n : Nat, InRange ((ofSeed (-161803398)).output (n + 1))) ∧
    (∀ n : Nat, InRange ((ofSeed 1000000000).output (n + 1))) ∧
    (ofSeed (-4294967296)).output 1 < 0 := by
  refine ⟨(output_inRange _).1 (by decide), (output_inRange _).2.1.mpr ?_,
    (output_inRange _).2.2 (by decide)⟩
  simp only [InRange]
  decide +kernel

theorem not_inRange_third : ¬InRange ((ofSeed 2147483646).output 3) := by
  rw [InRange]
  decide +kernel

end Chip8.LaggedGenerator
