import Chip8.Proofs.ImageLayout
import Chip8.Proofs.LabelReferences

namespace Chip8

namespace Assembly

section EmptyLines

variable {blanks : List Text}

theorem labelsFrom_of_forall_nil (h : ∀ l ∈ blanks, l = []) (address : Int) :
    labelsFrom address blanks = [] := by
  induction blanks generalizing address with
  | nil => rfl
  | cons l blanks ih =>
    obtain ⟨rfl, hblanks⟩ := List.forall_mem_cons.mp h
    exact ih hblanks _

theorem filled_of_forall_nil (h : ∀ l ∈ blanks, l = []) : filled blanks = 0 := by
  apply List.sum_eq_zero
  intro n hn
  obtain ⟨l, hl, rfl⟩ := List.mem_map.mp hn
  rw [h l hl]
  rfl

theorem statementsFrom_of_forall_nil (h : ∀ l ∈ blanks, l = []) (address : Int) (number : Nat) :
    statementsFrom address number blanks = [] := by
  induction blanks generalizing address number with
  | nil => rfl
  | cons l blanks ih =>
    obtain ⟨rfl, hblanks⟩ := List.forall_mem_cons.mp h
    exact ih hblanks _ _

theorem definedNames_of_forall_nil (h : ∀ l ∈ blanks, l = []) : definedNames blanks = [] := by
  rw [← map_fst_labelsFrom 0, labelsFrom_of_forall_nil h, List.map_nil]

theorem placeable_of_forall_nil (h : ∀ l ∈ blanks, l = []) : Placeable blanks := by
  rw [Placeable, definedNames_of_forall_nil h]
  refine ⟨fun l hl => ?_, List.nodup_nil⟩
  rw [h l hl]
  rfl

end EmptyLines

section Statements

variable {s : Statement} {labels labels' : Labels} {bytes : List UInt8}

theorem Statement.bytes_append_left (h : s.bytes labels = .ok bytes) (labels' : Labels) :
    s.bytes (labels ++ labels') = .ok bytes := by
  rw [← h]
  apply bytes_congr
  intro name hname
  obtain ⟨a, ha, -⟩ := hname.defined h
  rw [List.lookup_append, ha, Option.some_or]

theorem Statement.bytes_append_right (h : s.bytes labels' = .ok bytes)
    (hfresh : (labels.map Prod.fst).Disjoint (labels'.map Prod.fst)) :
    s.bytes (labels ++ labels') = .ok bytes := by
  rw [← h]
  apply bytes_congr
  intro name hname
  obtain ⟨a, ha, -⟩ := hname.defined h
  have hmem : name ∈ labels'.map Prod.fst := List.mem_map_of_mem (mem_of_lookup ha)
  have hnone : labels.lookup name = none := lookup_eq_none_iff.mpr fun hn => hfresh hn hmem
  rw [List.lookup_append, hnone, Option.none_or]

theorem emit_append {front back : List Statement} {romF romB : List UInt8}
    (hfront : (emit labels front).2 = .ok romF) (hback : (emit labels back).2 = .ok romB) :
    (emit labels (front ++ back)).2 = .ok (romF ++ romB) := by
  obtain ⟨chunksF, hF, rfl⟩ := emit_eq_ok.mp hfront
  obtain ⟨chunksB, hB, rfl⟩ := emit_eq_ok.mp hback
  exact emit_eq_ok.mpr ⟨chunksF ++ chunksB, List.rel_append hF hB, List.flatten_append.symm⟩

end Statements

end Assembly

open Assembly

variable {origin : Int} {front back : Text} {romF romB : List UInt8}

theorem assemble_join (hfront : (assemble origin front).rom = .ok romF)
    (hback : (assemble (origin + romF.length) back).rom = .ok romB)
    (hnames : ((assemble origin front).labels.map Prod.fst).Disjoint
      ((assemble (origin + romF.length) back).labels.map Prod.fst)) :
    (assemble origin (front ++ '\n' :: back)).rom = .ok (romF ++ romB) ∧
      (assemble origin (front ++ '\n' :: back)).labels =
        (assemble origin front).labels ++ (assemble (origin + romF.length) back).labels := by
  obtain ⟨hplaceF, hemitF⟩ := assemble_eq_ok_iff.mp hfront
  obtain ⟨hplaceB, hemitB⟩ := assemble_eq_ok_iff.mp hback
  rw [(assemble_of_placeable hplaceF _).1, (assemble_of_placeable hplaceB _).1] at hnames ⊢
  have hlength : romF.length = filled (Text.lines front) := by
    rw [emit_length hemitF, sum_width_statementsFrom]
  rw [hlength] at hemitB hnames ⊢
  obtain ⟨blanks, hblanks, hlines⟩ := Text.lines_append_feed_append front back
  have hplace : Placeable (Text.lines (front ++ '\n' :: back)) := by
    rw [map_fst_labelsFrom, map_fst_labelsFrom] at hnames
    rw [hlines, placeable_append, placeable_append, definedNames_append,
      definedNames_of_forall_nil hblanks, List.append_nil]
    exact ⟨⟨hplaceF, placeable_of_forall_nil hblanks, List.disjoint_nil_right _⟩, hplaceB, hnames⟩
  have hlabels : labelsFrom origin (Text.lines (front ++ '\n' :: back)) =
      labelsFrom origin (Text.lines front) ++
        labelsFrom (origin + filled (Text.lines front)) (Text.lines back) := by
    rw [hlines, labelsFrom_append, labelsFrom_append, labelsFrom_of_forall_nil hblanks,
      List.append_nil, filled_append, filled_of_forall_nil hblanks, Nat.add_zero]
  rw [(assemble_of_placeable hplace _).1, (assemble_of_placeable hplace _).2.2, hlabels]
  refine ⟨?_, rfl⟩
  rw [hlines, statementsFrom_append, statementsFrom_append, statementsFrom_of_forall_nil hblanks,
    List.append_nil, filled_append, filled_of_forall_nil hblanks, Nat.add_zero]
  apply emit_append
  · refine emit_of_forall₂ (List.forall₂_same.mpr fun s _ bytes hbytes => ?_) hemitF
    exact Statement.bytes_append_left hbytes _
  · refine emit_of_forall₂ ((alike_statementsFrom _ _ _ _ _).imp fun s s' halike bytes hbytes => ?_)
      hemitB
    rw [← halike.bytes_eq]
    exact Statement.bytes_append_right hbytes hnames

theorem assemble_join_odd :
    (assemble 0x200 "A: JUMP A\nDB $1......1\r".toList).rom = .ok [0x12, 0x00, 0x81] ∧
      (assemble 0x203 "B: LOADI B ; odd".toList).rom = .ok [0xA2, 0x03] ∧
      (assemble 0x200 "A: JUMP A\nDB $1......1\r\nB: LOADI B ; odd".toList).rom =
        .ok [0x12, 0x00, 0x81, 0xA2, 0x03] ∧
      (assemble 0x200 "A: JUMP A\nDB $1......1\r\nB: LOADI B ; odd".toList).labels =
        [(['A'], 0x200), (['B'], 0x203)] := by
  have hfront : (assemble 0x200 "A: JUMP A\nDB $1......1\r".toList).rom =
      .ok [0x12, 0x00, 0x81] := by rfl
  have hback : (assemble 0x203 "B: LOADI B ; odd".toList).rom = .ok [0xA2, 0x03] := by rfl
  have hnamesFront : (assemble 0x200 "A: JUMP A\nDB $1......1\r".toList).labels =
      [(['A'], 0x200)] := by rfl
  have hnamesBack : (assemble 0x203 "B: LOADI B ; odd".toList).labels = [(['B'], 0x203)] := by rfl
  have hnames : ((assemble 0x200 "A: JUMP A\nDB $1......1\r".toList).labels.map Prod.fst).Disjoint
      ((assemble 0x203 "B: LOADI B ; odd".toList).labels.map Prod.fst) := by
    rw [hnamesFront, hnamesBack]
    exact List.singleton_disjoint.mpr (by decide)
  obtain ⟨hrom, hlabels⟩ := assemble_join hfront hback hnames
  rw [hnamesFront] at hlabels
  exact ⟨hfront, hback, hrom, hlabels⟩

end Chip8
