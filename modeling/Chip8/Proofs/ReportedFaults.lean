import Chip8.Proofs.AcceptedSources
import Chip8.Proofs.FirstFault

namespace Chip8.Assembly

open Text

def HasNumeral (item : Item) (operands : List Text) (digits : Nat) : Prop :=
  ∃ m f t, item = .instruction m ∧ (f, t) ∈ m.fields.zip operands ∧
    (f.kind = .byte ∨ f.kind = .nibble) ∧ t.all Char.isDigit = true ∧ t.length = digits

/-- How assembling may end: with an image, with a report that has a kind of its own and the number
and the text of a line, or at a number with too many digits, a decimal literal that is not read or an
address below zero that is not written. -/
inductive Answers (origin : Int) (source : Text) : Except (Interruption Report) (List UInt8) → Prop
  | image (rom : List UInt8) : Answers origin source (.ok rom)
  | report {r : Report} (kind : r.kind ≠ .general) {k : Nat} (hk : k < (lines source).length)
    (number : r.lineNumber = some (k + 1)) (line : r.line = some (lines source)[k]) :
    Answers origin source (.error (.error r))
  | numeral {raw : Text} {reading : Reading} {item : Item} {operands : List Text} {digits : Nat}
    (mem : raw ∈ lines source) (reads : Reads raw reading)
    (statement : reading.statement = some (item, operands))
    (long : 4300 < digits) (has : HasNumeral item operands digits) :
    Answers origin source (.error (.endlessNumeral digits))
  | address {raw name : Text} {reading : Reading} {item : Item} {operands : List Text} {a : Int}
    (mem : raw ∈ lines source) (reads : Reads raw reading)
    (statement : reading.statement = some (item, operands)) (uses : Uses item operands name)
    (labelled : (assemble origin source).labels.lookup name = some a) (negative : a < 0)
    (long : 4300 < (digits 10 a.natAbs).length) :
    Answers origin source (.error (.endlessNumeral (digits 10 a.natAbs).length))

theorem Fault.kind_ne_general (f : Fault) : f.kind ≠ .general := by
  cases f <;> simp [kind]

theorem Layout.addLines_eq_some {l l' : Layout} {number : Nat} {lines : List Text} {r : Report}
    (h : l.addLines number lines = (l', some r)) :
    ∃ fault : Fault, ∃ k, ∃ hk : k < lines.length, r = fault.report (number + k : Nat) lines[k] := by
  obtain ⟨front, raw, back, d, fault, rfl, -, -, rfl⟩ := exists_of_addLines_eq_some h
  exact ⟨fault, front.length, by simp, by simp⟩

theorem Spelled.exists_text {labels : Labels} {m : Mnemonic} {operands : List Text}
    {values : List Int} (h : Spelled labels m operands values) {f : OperandField} {v : Int}
    (hcount : operands.length = m.fields.length) (hmem : (f, v) ∈ m.fields.zip values) :
    ∃ t, (f, t) ∈ m.fields.zip operands ∧ Spells labels f.kind t v := by
  rw [Spelled] at h
  generalize m.fields = fields at h hcount hmem
  induction fields generalizing operands values with
  | nil => cases hmem
  | cons g fields ih =>
    obtain ⟨t, operands, rfl⟩ := List.exists_cons_of_length_eq_add_one hcount
    obtain ⟨w, values, hw, hrest, rfl⟩ := List.forall₂_cons_left_iff.mp h
    rcases List.mem_cons.mp hmem with hhead | htail
    · cases hhead
      exact ⟨t, List.mem_cons_self, hw⟩
    · obtain ⟨u, hu, hspells⟩ := ih hrest (Nat.succ.inj hcount) htail
      exact ⟨u, List.mem_cons_of_mem _ hu, hspells⟩

theorem Statement.bytes_eq_endless {labels : Labels} {s : Statement} {n : Nat}
    (h : s.bytes labels = .error (.endlessNumeral n)) : maxDigits < n ∧
      ∃ operands, splitOperands s.operands = .ok operands ∧ (HasNumeral s.item operands n ∨
        ∃ name a, Uses s.item operands name ∧ labels.lookup name = some a ∧ a < 0 ∧
          n = (digits 10 a.natAbs).length) := by
  have hfails := fails_of_bytes h
  obtain ⟨number, raw, item, field, address⟩ := s
  cases hfails with
  | @operand m _ t operands f front back _ split count place read misspells =>
    obtain ⟨hliteral, hdecimal, hlength, hlong⟩ := misspells.of_endless
    have hmem : (f, t) ∈ m.fields.zip operands := by simp [place]
    exact ⟨hlong, operands, split, .inl ⟨m, f, t, rfl, hmem, hliteral, hdecimal.digits, hlength⟩⟩
  | @unwritable m _ operands values f v front back split count spelled place fit unfit unwritable =>
    have hplaced : (f, v) ∈ m.fields.zip values := by simp [place]
    obtain ⟨t, hmem, hspells⟩ := spelled.exists_text count hplaced
    rcases hspells.fits_or with hfits | ⟨hneg, hkind, hname, hdefined⟩
    · rw [OperandField.Fits, OperandField.capacity_eq] at unfit
      exact absurd hfits unfit
    · rw [← length_digits_le_iff, Nat.not_le] at unwritable
      exact ⟨unwritable, operands, split,
        .inr ⟨t, v, ⟨m, f, rfl, hmem, hkind, hname⟩, hdefined, hneg, rfl⟩⟩

theorem answers_report {origin : Int} {source : Text} (fault : Fault) {k : Nat}
    (hk : k < (lines source).length) : Answers origin source
      (.error (.error (fault.report (1 + k : Nat) (lines source)[k]))) := by
  refine .report fault.kind_ne_general hk ?_ rfl
  rw [Fault.report, Nat.add_comm]
  rfl

end Chip8.Assembly

namespace Chip8

open Assembly

/-- Assembling ends with an image, or with a report that names a line, unless a literal is too long
to be read or an address too low to be written. -/
theorem assemble_answers (origin : Int) (source : Text) :
    Answers origin source (assemble origin source).rom := by
  rcases hl : (Layout.empty origin).addLines 1 (Text.lines source) with ⟨l, _ | r⟩
  · have hnone : ((Layout.empty origin).addLines 1 (Text.lines source)).2 = none := by rw [hl]
    have hplaceable := (Layout.addLines_empty_snd_eq_none _ _).mp hnone
    obtain ⟨hlabels, -, hrom⟩ := assemble_of_placeable hplaceable origin
    rw [hrom]
    cases hemit : (emit (labelsFrom origin (Text.lines source))
        (statementsFrom origin 1 (Text.lines source))).2 with
    | ok rom => exact .image rom
    | error e =>
      obtain ⟨s, hs, i, hbytes, rfl⟩ := exists_of_emit_eq_error hemit
      obtain ⟨k, hk, hnumber, hraw, hheld⟩ := exists_line hs
      cases i with
      | error fault =>
        rw [Interruption.map, hnumber, hraw]
        exact answers_report fault hk
      | endlessNumeral digits =>
        obtain ⟨hlong, operands, hsplit, hcause⟩ := Statement.bytes_eq_endless hbytes
        obtain ⟨reading, hreads, hstatement⟩ := exists_reads hheld hsplit
        have hmem := List.getElem_mem hk
        rcases hcause with hnumeral | ⟨name, a, huses, hlookup, hneg, rfl⟩
        · exact .numeral hmem hreads hstatement hlong hnumeral
        · exact .address hmem hreads hstatement huses (hlabels ▸ hlookup) hneg hlong
  · obtain ⟨fault, k, hk, rfl⟩ := Layout.addLines_eq_some hl
    simp only [assemble, hl]
    exact answers_report fault hk

section LongNumerals

variable {ds : Text}

theorem instructionBytes_of_long (labels : Labels) (hfeed : Text.dropFinalFeed ds = ds)
    (hdigits : ds.all Char.isDigit = true) (hlong : Text.maxDigits < ds.length) :
    Statement.instructionBytes labels .load [['V', '0'], ds] =
      .error (.endlessNumeral ds.length) := by
  have hregister : readOperand labels .register ['V', '0'] = .ok 0 := rfl
  have hbyte : readOperand labels .byte ds = .error (.endlessNumeral ds.length) := by
    cases ds with
    | nil => cases hlong
    | cons c ds =>
      have hc : c ≠ '#' := by
        rintro rfl
        simp at hdigits
      simp only [readOperand, readLiteral, hfeed, marked_eq_none hc]
      rw [if_pos ⟨List.cons_ne_nil c ds, hdigits⟩, if_pos hlong]
  have hfields : Mnemonic.load.fields.zip [['V', '0'], ds] =
      [(OperandField.first, ['V', '0']), (OperandField.byte, ds)] := rfl
  rw [Statement.instructionBytes, hfields, List.mapM_cons]
  simp only [OperandField.first, hregister, List.mapM_cons, OperandField.byte, hbyte]
  rfl

theorem plain_of_digits (hne : ds ≠ []) (hdigits : ds.all Char.isDigit = true) : Plain ds := by
  refine ⟨hne, fun c hc => isPlain_iff.mpr ?_⟩
  have hdigit := List.all_eq_true.mp hdigits c hc
  rw [Char.isDigit, Bool.and_eq_true, decide_eq_true_eq, decide_eq_true_eq] at hdigit
  have hval : c.toNat = c.val.toNat := rfl
  simp only [ge_iff_le, UInt32.le_iff_toNat_le, Char.reduceVal, UInt32.reduceToNat] at hdigit
  refine ⟨by omega, ?_, ?_⟩
  · rintro rfl
    simp at hdigit
  · rintro rfl
    simp at hdigit

theorem assemble_of_long (origin : Int) (hdigits : ds.all Char.isDigit = true)
    (hlong : Text.maxDigits < ds.length) :
    (assemble origin (written (.instruction .load) [['V', '0'], ds])).rom =
      .error (.endlessNumeral ds.length) := by
  have hne : ds ≠ [] := by
    rintro rfl
    cases hlong
  have hplain : ∀ t ∈ [['V', '0'], ds], Plain t := by
    intro t ht
    simp only [List.mem_cons, List.not_mem_nil, or_false] at ht
    rcases ht with rfl | rfl
    · exact ⟨List.cons_ne_nil _ _, List.all_eq_true.mp rfl⟩
    · exact plain_of_digits hne hdigits
  have hsplit := splitOperands_intercalate hplain
  have hbytes : (⟨1, written (.instruction .load) [['V', '0'], ds], .instruction .load,
      [',', ' '].intercalate [['V', '0'], ds], origin⟩ : Statement).bytes [] =
        .error (.endlessNumeral ds.length) := by
    rw [Statement.bytes_eq_instructionBytes rfl hsplit rfl]
    exact instructionBytes_of_long [] (dropFinalFeed_of_splitOperands hsplit ds (by simp)) hdigits
      hlong
  rw [assemble_written origin hplain, emit, hbytes]
  rfl

def longNumeral : Text := "LOAD V0, ".toList ++ List.replicate 4301 '1'

theorem longNumeral_eq :
    longNumeral = written (.instruction .load) [['V', '0'], List.replicate 4301 '1'] := by
  rw [written, if_neg (List.cons_ne_nil _ _), List.intercalate_cons_cons,
    List.intercalate_singleton]
  rfl

theorem assemble_longNumeral : (∀ rom, (assemble 0x200 longNumeral).rom ≠ .ok rom) ∧
    ∀ r, (assemble 0x200 longNumeral).rom ≠ .error (.error r) := by
  have hdigits : (List.replicate 4301 '1').all Char.isDigit = true := by
    apply List.all_eq_true.mpr
    intro c hc
    rw [List.eq_of_mem_replicate hc]
    rfl
  have hlong : Text.maxDigits < (List.replicate 4301 '1').length := by
    rw [List.length_replicate]
    decide
  rw [longNumeral_eq, assemble_of_long 0x200 hdigits hlong]
  constructor
  · intro rom h
    cases h
  · intro r h
    cases h

end LongNumerals

end Chip8
