import Chip8.Bitmap
import Chip8.Proofs.SequencePositions
import Mathlib.Data.Int.Bitwise
import Mathlib.Tactic.SplitIfs

namespace Chip8

theorem Bits.test_eq_testBit (n : Int) (i : Nat) : Bits.test n i = n.testBit i := by
  cases n with
  | ofNat m =>
    have hshift : Int.ofNat m >>> i = ((m / 2 ^ i : Nat) : Int) :=
      congrArg Int.ofNat (Nat.shiftRight_eq_div_pow m i)
    rw [test, hshift, Int.testBit, Nat.testBit_eq_decide_div_mod_eq, Bool.eq_iff_iff,
      beq_iff_eq, decide_eq_true_eq]
    omega
  | negSucc m =>
    have hshift : Int.negSucc m >>> i = Int.negSucc (m / 2 ^ i) :=
      congrArg Int.negSucc (Nat.shiftRight_eq_div_pow m i)
    rw [test, hshift, Int.testBit, Nat.testBit_eq_decide_div_mod_eq, Bool.eq_iff_iff,
      beq_iff_eq, Bool.not_eq_true', decide_eq_false_iff_not]
    omega

namespace Bitmap

variable {width height : Nat}

theorem get_put (b : Bitmap width height) (x px : Fin width) (y py : Fin height) (on : Bool) :
    (b.put x y on).get px py = if px = x ∧ py = y then on else b.get px py := by
  simp only [get, put, Fin.getElem_fin, Vector.getElem_set, Fin.ext_iff]
  by_cases hy : (py : Nat) = y
  · simp only [hy, if_true, Vector.getElem_set, eq_comm, and_true]
  · simp only [hy, Ne.symm hy, if_false, and_false]

structure Inverts (part : Int → Int → Bool) (b : Bitmap width height) (hit : Bool)
    (after : Bitmap width height) (out : Bool) : Prop where
  pixels : ∀ (px : Fin width) (py : Fin height),
    after.get px py = (b.get px py ^^ part px py)
  collision : out = true ↔ hit = true ∨
    ∃ (px : Fin width) (py : Fin height), b.get px py = true ∧ part px py = true

theorem Inverts.refl {part : Int → Int → Bool} (b : Bitmap width height) (hit : Bool)
    (h : ∀ (px : Fin width) (py : Fin height), part px py = false) : Inverts part b hit b hit := by
  constructor
  · simp [h]
  · simp [h]

theorem Inverts.trans {part rest both : Int → Int → Bool} {b c d : Bitmap width height}
    {hit out out' : Bool} (hpart : Inverts part b hit c out) (hrest : Inverts rest c out d out')
    (hboth : ∀ (px : Fin width) (py : Fin height), both px py = (part px py || rest px py))
    (hdisjoint : ∀ (px : Fin width) (py : Fin height), part px py = true → rest px py = false) : 
    Inverts both b hit d out' where
  pixels px py := by
    rw [hrest.pixels, hpart.pixels, hboth]
    have hd := hdisjoint px py
    generalize part px py = p at hd
    generalize rest px py = q at hd
    revert hd
    cases p <;> cases q <;> simp
  collision := by
    have hc (px : Fin width) (py : Fin height) (h : rest px py = true) : c.get px py = b.get px py := by
      rw [hpart.pixels]
      cases hp : part px py with
      | false => simp
      | true => simp [hdisjoint px py hp] at h
    rw [hrest.collision, hpart.collision, or_assoc]
    refine or_congr_right ?_
    constructor
    · rintro (⟨px, py, hb, hp⟩ | ⟨px, py, hlit, hr⟩)
      · exact ⟨px, py, hb, by rw [hboth, hp, Bool.true_or]⟩
      · exact ⟨px, py, hc px py hr ▸ hlit, by rw [hboth, hr, Bool.or_true]⟩
    · rintro ⟨px, py, hb, h⟩
      rw [hboth, Bool.or_eq_true] at h
      rcases h with hp | hr
      · exact .inl ⟨px, py, hb, hp⟩
      · exact .inr ⟨px, py, (hc px py hr).trans hb, hr⟩

theorem Inverts.congr {part part' : Int → Int → Bool} {b c : Bitmap width height} {hit out : Bool}
    (h : Inverts part b hit c out)
    (hpart : ∀ (px : Fin width) (py : Fin height), part' px py = part px py) :
    Inverts part' b hit c out where
  pixels px py := by rw [h.pixels, hpart]
  collision := by simp only [h.collision, hpart]

theorem toggle?_inverts (b : Bitmap width height) (hit : Bool) {x y : Int} (hx : 0 ≤ x)
    (hwidth : x < width) (hy : 0 ≤ y) (hheight : y < height) :
    ∃ after out, b.toggle? x y = some (after, out) ∧
      Inverts (fun px py => px == x && py == y) b hit after (hit || out) := by
  have htoggle : b.toggle? x y = some (b.put ⟨x.toNat, by omega⟩ ⟨y.toNat, by omega⟩
      !b.get ⟨x.toNat, by omega⟩ ⟨y.toNat, by omega⟩,
      b.get ⟨x.toNat, by omega⟩ ⟨y.toNat, by omega⟩) := by
    rw [toggle?, at?, position_eq_some hx hwidth, position_eq_some hy hheight]
    rfl
  have hplace (px : Fin width) (py : Fin height) :
      ((px : Int) == x && (py : Int) == y) = true ↔
        px = ⟨x.toNat, by omega⟩ ∧ py = ⟨y.toNat, by omega⟩ := by
    simp only [Bool.and_eq_true, beq_iff_eq, Fin.ext_iff]
    omega
  refine ⟨_, _, htoggle, ?_, ?_⟩
  · intro px py
    rw [get_put]
    split_ifs with h
    · rw [(hplace px py).mpr h, h.1, h.2, Bool.xor_true]
    · rw [Bool.eq_false_iff.mpr (fun ht => h ((hplace px py).mp ht)), Bool.xor_false]
  · rw [Bool.or_eq_true]
    refine or_congr_right ⟨fun hlit => ⟨_, _, hlit, (hplace _ _).mpr ⟨rfl, rfl⟩⟩, ?_⟩
    rintro ⟨px, py, hlit, h⟩
    obtain ⟨rfl, rfl⟩ := (hplace px py).mp h
    exact hlit

def rowInk (bits : List Nat) (row x y px py : Int) : Bool :=
  bits.any (fun bit => (px == x + bit && py == y) && row.testBit (7 - bit))

theorem rowInk_eq_false {bits : List Nat} {row x y px py : Int} (h : ∀ bit ∈ bits, px ≠ x + bit) :
    rowInk bits row x y px py = false := by
  rw [rowInk, List.any_eq_false]
  intro bit hbit
  simp [h bit hbit]

theorem drawRow_inverts (b : Bitmap width height) {x y : Int} (row : Int) (hit : Bool)
    {bits : List Nat} (hbits : bits.Pairwise (· < ·)) (hx : 0 ≤ x) (hy : 0 ≤ y)
    (hheight : y < height) : ∃ after out, b.drawRow x y row hit bits = (after, some out) ∧
      Inverts (rowInk bits row x y) b hit after out := by
  induction bits generalizing b hit with
  | nil => exact ⟨b, hit, rfl, .refl b hit fun _ _ => rfl⟩
  | cons bit rest ih =>
    obtain ⟨hfirst, hrest⟩ := List.pairwise_cons.mp hbits
    rw [drawRow, Bits.test_eq_testBit]
    split_ifs with hwidth htest
    · refine ⟨b, hit, rfl, .refl b hit fun px py => ?_⟩
      -- what follows a bit beyond the edge lies beyond it too
      apply rowInk_eq_false
      intro k hk heq
      have hle : bit ≤ k := by
        rcases List.mem_cons.mp hk with rfl | hk
        · exact Nat.le_refl _
        · exact (hfirst k hk).le
      omega
    · obtain ⟨c, out, htoggle, hc⟩ :=
        b.toggle?_inverts hit (show 0 ≤ x + bit by omega) (by omega) hy hheight
      obtain ⟨after, out', hafter, hd⟩ := ih c (hit || out) hrest
      rw [htoggle]
      refine ⟨after, out', hafter, hc.trans hd ?_ ?_⟩
      · intro px py
        simp only [rowInk, List.any_cons, htest, Bool.and_true]
      · intro px py h
        rw [Bool.and_eq_true, beq_iff_eq] at h
        apply rowInk_eq_false
        intro k hk heq
        have hlt := hfirst k hk
        omega
    · obtain ⟨after, out, hafter, hd⟩ := ih b hit hrest
      refine ⟨after, out, hafter, hd.congr fun px py => ?_⟩
      simp only [rowInk, List.any_cons, htest, Bool.and_false, Bool.false_or]

def ink (sprite : List Int) (x y px py : Int) : Bool :=
  decide (0 ≤ px - x ∧ px - x ≤ 7 ∧ 0 ≤ py - y) &&
    (sprite[(py - y).toNat]?).any (·.testBit (7 - (px - x).toNat))

theorem rowInk_range (row x y px py : Int) : rowInk (List.range 8) row x y px py = true ↔
    py = y ∧ 0 ≤ px - x ∧ px - x ≤ 7 ∧ row.testBit (7 - (px - x).toNat) = true := by
  simp only [rowInk, List.any_eq_true, List.mem_range, Bool.and_eq_true, beq_iff_eq]
  constructor
  · rintro ⟨bit, hbit, ⟨rfl, rfl⟩, htest⟩
    have hoffset : (x + (bit : Int) - x).toNat = bit := by omega
    rw [hoffset]
    exact ⟨rfl, by omega, by omega, htest⟩
  · rintro ⟨rfl, hleft, hright, htest⟩
    exact ⟨(px - x).toNat, by omega, ⟨by omega, rfl⟩, htest⟩

theorem ink_eq_true {sprite : List Int} {x y px py : Int} : ink sprite x y px py = true ↔
    0 ≤ px - x ∧ px - x ≤ 7 ∧ 0 ≤ py - y ∧ ∃ row, sprite[(py - y).toNat]? = some row ∧
      row.testBit (7 - (px - x).toNat) = true := by
  rw [ink, Bool.and_eq_true, decide_eq_true_eq, Option.any_eq_true, and_assoc, and_assoc]

theorem ink_cons (row : Int) (rest : List Int) (x y px py : Int) : ink (row :: rest) x y px py =
    (rowInk (List.range 8) row x y px py || ink rest x (y + 1) px py) := by
  rw [Bool.eq_iff_iff, Bool.or_eq_true, rowInk_range, ink_eq_true, ink_eq_true]
  by_cases hpy : py = y
  · subst hpy
    simp
  · have hindex : 0 ≤ py - y → (py - y).toNat = (py - (y + 1)).toNat + 1 := by omega
    constructor
    · rintro ⟨hleft, hright, hbelow, htest⟩
      rw [hindex hbelow, List.getElem?_cons_succ] at htest
      exact .inr ⟨hleft, hright, by omega, htest⟩
    · rintro (⟨rfl, -⟩ | ⟨hleft, hright, hbelow, htest⟩)
      · exact absurd rfl hpy
      · refine ⟨hleft, hright, by omega, ?_⟩
        rwa [hindex (by omega), List.getElem?_cons_succ]

theorem drawAbove_inverts {bottom : Int} (hbottom : bottom.toNat = height)
    (b : Bitmap width height) {x y : Int} (hit : Bool) (sprite : List Int) (hx : 0 ≤ x) (hy : 0 ≤ y) :
    ∃ after out, b.drawAbove bottom x y hit sprite = (after, some out) ∧
      Inverts (ink sprite x y) b hit after out := by
  induction sprite generalizing b y hit with
  | nil => exact ⟨b, hit, rfl, .refl b hit fun px py => by simp [ink]⟩
  | cons row rest ih =>
    rw [drawAbove]
    by_cases hbelow : bottom ≤ y
    · rw [if_pos hbelow]
      refine ⟨b, hit, rfl, .refl b hit fun px py => ?_⟩
      rw [ink, decide_eq_false (by omega), Bool.false_and]
    · have hheight : y < height := by omega
      have hinside : ¬(position height y).isNone := by
        rw [position_eq_some hy hheight]
        exact Bool.false_ne_true
      obtain ⟨c, out, hrow, hc⟩ :=
        b.drawRow_inverts row hit List.pairwise_lt_range hx hy hheight
      obtain ⟨after, out', hrest, hd⟩ := ih c out (y := y + 1) (by omega)
      rw [if_neg hbelow, if_neg hinside, hrow]
      refine ⟨after, out', hrest, hc.trans hd (fun px py => ink_cons _ _ _ _ _ _) ?_⟩
      intro px py h
      obtain ⟨hpy, -⟩ := (rowInk_range _ _ _ _ _).mp h
      rw [ink, decide_eq_false (by omega), Bool.false_and]

theorem draw_eq_some (b : Bitmap width height) {x y : Int} (hit : Bool) (sprite : List Int)
    (hx : 0 ≤ x) (hy : 0 ≤ y) : ∃ after out, b.draw x y hit sprite = (after, some out) := by
  obtain ⟨after, out, hdraw, -⟩ := b.drawAbove_inverts (Int.toNat_natCast height) hit sprite hx hy
  exact ⟨after, out, hdraw⟩

end Bitmap

end Chip8
