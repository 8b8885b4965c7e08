import Chip8.Proofs.SourceLayout

namespace Chip8

namespace Assembly

theorem map_length_chunks {labels : Labels} {statements : List Statement}
    {chunks : List (List UInt8)}
    (h : List.Forall₂ (fun s bytes => s.bytes labels = .ok bytes) statements chunks) :
    chunks.map List.length = statements.map Statement.width := by
  induction h with
  | nil => rfl
  | cons hb _ ih => rw [List.map_cons, List.map_cons, ih, Statement.bytes_length hb]

theorem emit_length {labels : Labels} {statements : List Statement} {rom : List UInt8}
    (h : (emit labels statements).2 = .ok rom) :
    rom.length = (statements.map Statement.width).sum := by
  obtain ⟨chunks, hc, rfl⟩ := emit_eq_ok.mp h
  rw [List.length_flatten, map_length_chunks hc]

theorem emit_getElem {labels : Labels} {statements : List Statement} {rom : List UInt8}
    (h : (emit labels statements).2 = .ok rom) {i : Nat} (hi : i < statements.length) :
    ∃ bytes, statements[i].bytes labels = .ok bytes ∧
      (rom.drop ((statements.take i).map Statement.width).sum).take statements[i].width = bytes := by
  obtain ⟨chunks, hc, rfl⟩ := emit_eq_ok.mp h
  have hi' : i < chunks.length := hc.length_eq ▸ hi
  have hb : statements[i].bytes labels = .ok chunks[i] := by
    simpa only [List.get_eq_getElem] using hc.get hi hi'
  refine ⟨chunks[i], hb, ?_⟩
  rw [List.map_take, ← map_length_chunks hc, List.drop_sum_flatten, List.drop_eq_getElem_cons hi',
    List.flatten_cons, ← Statement.bytes_length hb, List.take_left]

end Assembly

open Assembly

/-- The image, the addresses and the labels of a source follow from the widths of its items. -/
structure LaidOut (origin : Int) (source : Text) (a : Assembly) (rom : List UInt8) : Prop where
  items : a.statements.map (fun s => (s.number, s.raw, s.item, s.operands)) =
    itemsFrom 1 (Text.lines source)
  address : ∀ i (h : i < a.statements.length),
    a.statements[i].address = origin + ((a.statements.take i).map Statement.width).sum
  image : ∀ s ∈ a.statements, ∃ bytes, s.bytes a.labels = .ok bytes ∧ bytes.length = s.width ∧
    (rom.drop (s.address - origin).toNat).take s.width = bytes
  size : rom.length = (a.statements.map Statement.width).sum
  label : ∀ name address, (name, address) ∈ a.labels ↔ ∃ k, ∃ h : k < (Text.lines source).length,
    (readLine (Text.lines source)[k]).label = some name ∧
      address = origin + ((a.statements.filter (·.number ≤ k)).map Statement.width).sum
  sharedLine : ∀ s ∈ a.statements, ∀ name, (readLine s.raw).label = some name →
    (name, s.address) ∈ a.labels

theorem assemble_laidOut {origin : Int} {source : Text} {rom : List UInt8}
    (h : (assemble origin source).rom = .ok rom) :
    LaidOut origin source (assemble origin source) rom := by
  obtain ⟨hl, hs, he⟩ := assemble_eq_ok h
  have haddress : ∀ i (hi : i < (assemble origin source).statements.length),
      (assemble origin source).statements[i].address =
        origin + (((assemble origin source).statements.take i).map Statement.width).sum := by
    rw [hs]
    exact address_statementsFrom origin 1 (Text.lines source)
  refine ⟨?_, haddress, ?_, emit_length he, ?_, ?_⟩
  · rw [hs, items_statementsFrom]
  · intro s hmem
    obtain ⟨i, hi, rfl⟩ := List.getElem_of_mem hmem
    obtain ⟨bytes, hb, himage⟩ := emit_getElem he hi
    refine ⟨bytes, hb, Statement.bytes_length hb, ?_⟩
    rw [haddress i hi]
    simpa only [add_sub_cancel_left, Int.toNat_natCast] using himage
  · intro name address
    have hfilter (k : Nat) : ((statementsFrom origin 1 (Text.lines source)).filter
        (·.number ≤ k)).map Statement.width =
        (statementsFrom origin 1 ((Text.lines source).take k)).map Statement.width := by
      rw [← filter_statementsFrom]
      simp only [Nat.lt_one_add_iff]
    simp only [hl, hs, mem_labelsFrom, hfilter, sum_width_statementsFrom]
  · intro s hmem name hname
    rw [hs] at hmem
    rw [hl]
    exact mem_labelsFrom_of_statement hmem hname

theorem assemble_laidOut_mixed :
    (assemble (-3) "A: CLR\n\nB:\nDB $1......1 ; one byte\nC: DW #0102".toList).rom =
        .ok [0x00, 0xE0, 0x81, 0x01, 0x02] ∧
      LaidOut (-3) "A: CLR\n\nB:\nDB $1......1 ; one byte\nC: DW #0102".toList
        (assemble (-3) "A: CLR\n\nB:\nDB $1......1 ; one byte\nC: DW #0102".toList)
        [0x00, 0xE0, 0x81, 0x01, 0x02] :=
  ⟨by rfl, assemble_laidOut (by rfl)⟩

end Chip8
