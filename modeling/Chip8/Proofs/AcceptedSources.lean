import Chip8.Proofs.OperandGrammar
import Chip8.Proofs.SourceLanguage

namespace Chip8.Assembly

open Text

def Reading.width (r : Reading) : Nat := (r.statement.map (fun s => s.1.width)).getD 0

def DefinesNear (origin : Int) (readings : List Reading) (name : Text) : Prop :=
  ∃ k, ∃ hk : k < readings.length, readings[k].label = some name ∧
    origin + ((readings.take k).map Reading.width).sum ≤ 0xFFF

section Readings

variable {raw : Text} {r : Reading} {lines : List Text} {readings : List Reading}

theorem reads_iff : Reads raw r ↔ readLine raw = ⟨r.label, .ok (held raw)⟩ ∧
    Option.Rel (fun c s => c.1 = s.1 ∧ splitOperands c.2 = .ok s.2) (held raw) r.statement := by
  rw [← says_readLine_iff]
  constructor
  · intro h
    unfold held
    cases hline : readLine raw
    rw [hline] at h
    cases h with
    | nothing => exact ⟨rfl, .none⟩
    | statement split => exact ⟨rfl, .some ⟨rfl, split⟩⟩
  · rintro ⟨hline, hrel⟩
    obtain ⟨label, statement⟩ := r
    rw [hline]
    generalize held raw = content at hrel
    cases hrel with
    | none => exact .nothing
    | @some c s hs =>
      obtain ⟨item, field⟩ := c
      obtain ⟨_, operands⟩ := s
      obtain ⟨rfl, split⟩ := hs
      exact .statement split

theorem exists_reads {item : Item} {field : Text} {operands : List Text}
    (hheld : held raw = some (item, field)) (hsplit : splitOperands field = .ok operands) :
    ∃ r, Reads raw r ∧ r.statement = some (item, operands) := by
  refine ⟨⟨(readLine raw).label, some (item, operands)⟩, reads_iff.mpr ⟨?_, ?_⟩, rfl⟩
  · rw [hheld, ← content_of_held hheld]
  · rw [hheld]
    exact .some ⟨rfl, hsplit⟩

theorem Reads.width_eq (h : Reads raw r) : lineWidth raw = r.width := by
  obtain ⟨-, hrel⟩ := reads_iff.mp h
  obtain ⟨label, statement⟩ := r
  unfold lineWidth Reading.width
  generalize held raw = content at hrel ⊢
  cases hrel with
  | none => rfl
  | some hs => rw [Option.map_some, Option.map_some, hs.1]

theorem Reads.forall_statement {P : Item → List Text → Prop} (h : Reads raw r) :
    (∀ item field, held raw = some (item, field) →
      ∃ operands, splitOperands field = .ok operands ∧ P item operands) ↔
      ∀ item operands, r.statement = some (item, operands) → P item operands := by
  obtain ⟨-, hrel⟩ := reads_iff.mp h
  obtain ⟨label, statement⟩ := r
  generalize held raw = content at hrel ⊢
  cases hrel with
  | none => simp
  | @some c s hs =>
    obtain ⟨item, field⟩ := c
    obtain ⟨_, operands⟩ := s
    obtain ⟨rfl, hsplit⟩ := hs
    simp [hsplit]

theorem definedNames_eq (h : List.Forall₂ Reads lines readings) :
    definedNames lines = readings.filterMap Reading.label := by
  induction h with
  | nil => rfl
  | cons hr _ ih =>
    rw [definedNames] at ih ⊢
    rw [List.filterMap_cons, List.filterMap_cons, ih, (reads_iff.mp hr).1]

theorem filled_take (h : List.Forall₂ Reads lines readings) (k : Nat) :
    filled (lines.take k) = ((readings.take k).map Reading.width).sum := by
  induction h generalizing k with
  | nil => simp [filled]
  | cons hr _ ih =>
    cases k with
    | zero => rfl
    | succ k =>
      have ih := ih k
      rw [filled] at ih ⊢
      rw [List.take_succ_cons, List.take_succ_cons, List.map_cons, List.map_cons, List.sum_cons,
        List.sum_cons, ih, hr.width_eq]

theorem reaches_iff {origin : Int} {name : Text} (h : List.Forall₂ Reads lines readings)
    (hnodup : (readings.filterMap Reading.label).Nodup) :
    Reaches (labelsFrom origin lines) name ↔ DefinesNear origin readings name := by
  have hkeys : ((labelsFrom origin lines).map Prod.fst).Nodup := by
    rwa [map_fst_labelsFrom, definedNames_eq h]
  have hlabel (k : Nat) (hk : k < lines.length) (hk' : k < readings.length) :
      (readLine lines[k]).label = readings[k].label := by
    have hline := (reads_iff.mp (h.get hk hk')).1
    rw [List.get_eq_getElem] at hline
    rw [hline]
    rfl
  simp only [Reaches, DefinesNear, lookup_eq_some_iff hkeys, mem_labelsFrom, filled_take h]
  constructor
  · rintro ⟨_, ⟨k, hk, hname, rfl⟩, hnear⟩
    have hk' : k < readings.length := h.length_eq ▸ hk
    exact ⟨k, hk', hlabel k hk hk' ▸ hname, hnear⟩
  · rintro ⟨k, hk', hname, hnear⟩
    have hk : k < lines.length := h.length_eq ▸ hk'
    exact ⟨_, ⟨k, hk, (hlabel k hk hk').trans hname, rfl⟩, hnear⟩

end Readings

def ShortNumerals (source : Text) : Prop :=
  ∀ raw ∈ Text.lines source, ∀ r, Reads raw r → ∀ item operands,
    r.statement = some (item, operands) →
      ∀ t ∈ operands, t.all Char.isDigit = true → t.length ≤ 4300

structure Accepted (origin : Int) (source : Text) (readings : List Reading) : Prop where
  lines : List.Forall₂ Reads (Text.lines source) readings
  operands : ∀ r ∈ readings, ∀ item operands, r.statement = some (item, operands) →
    item.Admits operands
  distinct : (readings.filterMap Reading.label).Nodup
  defined : ∀ r ∈ readings, ∀ item operands, r.statement = some (item, operands) →
    ∀ name, Uses item operands name → DefinesNear origin readings name

end Chip8.Assembly

namespace Chip8

open Assembly

theorem assemble_isOk_iff (origin : Int) (source : Text) :
    (∃ rom, (assemble origin source).rom = .ok rom) ↔
      (∀ raw ∈ Text.lines source, (readLine raw).content = .ok (held raw)) ∧
      (definedNames (Text.lines source)).Nodup ∧
      ∀ raw ∈ Text.lines source, ∀ item field, held raw = some (item, field) →
        ∃ operands, splitOperands field = .ok operands ∧ operands.length = item.operandCount ∧
          ∃ bytes, Emits (labelsFrom origin (Text.lines source)) item operands bytes := by
  have hbytes : ∀ s : Statement,
      (∃ bytes, s.bytes (labelsFrom origin (Text.lines source)) = .ok bytes) ↔
        ∃ operands, splitOperands s.operands = .ok operands ∧
          operands.length = s.item.operandCount ∧
          ∃ bytes, Emits (labelsFrom origin (Text.lines source)) s.item operands bytes := by
    intro s
    simp only [Statement.bytes_eq_ok]
    rw [exists_comm]
    simp only [exists_and_left]
  rw [← forall_statementsFrom origin 1]
  simp only [← hbytes]
  rw [← emit_isOk_iff, ← and_assoc]
  simp only [assemble_eq_ok_iff, Placeable, exists_and_left]

theorem reads_of_isOk {origin : Int} {source : Text}
    (h : ∃ rom, (assemble origin source).rom = .ok rom) :
    ∃ readings, List.Forall₂ Reads (Text.lines source) readings := by
  obtain ⟨hcontent, -, hemits⟩ := (assemble_isOk_iff origin source).mp h
  rw [List.exists_forall₂_iff]
  intro raw hraw
  cases hheld : held raw with
  | none =>
    have hline : readLine raw = ⟨(readLine raw).label, .ok (held raw)⟩ := by
      rw [← hcontent raw hraw]
    exact ⟨⟨(readLine raw).label, none⟩, reads_iff.mpr ⟨hline, hheld ▸ .none⟩⟩
  | some c =>
    obtain ⟨operands, hsplit, -⟩ := hemits raw hraw c.1 c.2 hheld
    obtain ⟨r, hr, -⟩ := exists_reads hheld hsplit
    exact ⟨r, hr⟩

theorem assemble_isOk_iff_of_reads {origin : Int} {source : Text} {readings : List Reading}
    (h : List.Forall₂ Reads (Text.lines source) readings) :
    (∃ rom, (assemble origin source).rom = .ok rom) ↔
      (readings.filterMap Reading.label).Nodup ∧
      ∀ r ∈ readings, ∀ item operands, r.statement = some (item, operands) →
        operands.length = item.operandCount ∧
          ∃ bytes, Emits (labelsFrom origin (Text.lines source)) item operands bytes := by
  have hcontent : ∀ raw ∈ Text.lines source, (readLine raw).content = .ok (held raw) := by
    intro raw hraw
    obtain ⟨i, hi, rfl⟩ := List.getElem_of_mem hraw
    exact congrArg Line.content (reads_iff.mp (h.get hi (h.length_eq ▸ hi))).1
  rw [assemble_isOk_iff, and_iff_right hcontent, definedNames_eq h]
  exact and_congr_right fun _ => h.forall_mem_iff fun raw r hr => hr.forall_statement

theorem emits_iff_of_reads {origin : Int} {source : Text} {readings : List Reading}
    (horigin : 0 ≤ origin) (hshort : ShortNumerals source)
    (h : List.Forall₂ Reads (Text.lines source) readings)
    (hnodup : (readings.filterMap Reading.label).Nodup) {r : Reading} (hr : r ∈ readings)
    {item : Item} {operands : List Text} (hstatement : r.statement = some (item, operands)) :
    (operands.length = item.operandCount ∧
      ∃ bytes, Emits (labelsFrom origin (Text.lines source)) item operands bytes) ↔
      item.Admits operands ∧
        ∀ name, Uses item operands name → DefinesNear origin readings name := by
  have hlabels : ∀ name a, (labelsFrom origin (Text.lines source)).lookup name = some a → 0 ≤ a :=
    fun name a ha => horigin.trans (le_of_lookup_labelsFrom ha)
  obtain ⟨i, hi, rfl⟩ := List.getElem_of_mem hr
  have hi' : i < (Text.lines source).length := h.length_eq.symm ▸ hi
  have hlength := hshort _ (List.get_mem _ ⟨i, hi'⟩) _ (h.get hi' hi) item operands hstatement
  simp only [exists_emits_iff hlabels hlength, reaches_iff h hnodup]

/-- Assembling succeeds on the sources of the language and on no other. -/
theorem assembles_iff_accepted {origin : Int} {source : Text} (horigin : 0 ≤ origin)
    (hshort : ShortNumerals source) :
    (∃ rom, (assemble origin source).rom = .ok rom) ↔
      ∃ readings, Accepted origin source readings := by
  constructor
  · intro hrom
    obtain ⟨readings, hreads⟩ := reads_of_isOk hrom
    obtain ⟨hnodup, hemits⟩ := (assemble_isOk_iff_of_reads hreads).mp hrom
    have hsplit {r : Reading} (hr : r ∈ readings) {item : Item} {operands : List Text}
        (hs : r.statement = some (item, operands)) :=
      (emits_iff_of_reads horigin hshort hreads hnodup hr hs).mp (hemits r hr item operands hs)
    refine ⟨readings, hreads, ?_, hnodup, ?_⟩
    · intro r hr item operands hs
      exact (hsplit hr hs).1
    · intro r hr item operands hs
      exact (hsplit hr hs).2
  · rintro ⟨readings, h⟩
    apply (assemble_isOk_iff_of_reads h.lines).mpr
    refine ⟨h.distinct, ?_⟩
    intro r hr item operands hs
    apply (emits_iff_of_reads horigin hshort h.lines h.distinct hr hs).mpr
    exact ⟨h.operands r hr item operands hs, h.defined r hr item operands hs⟩

def forwardSource : Text :=
  "OPTION binary\n  jump Last ; skip the flag\nflag: db $1..1..10\nLast:\n draw v0, V1 , #3".toList

theorem forwardSource_accepted : 0 ≤ (0x200 : Int) ∧ ShortNumerals forwardSource ∧
    ∃ readings, Accepted 0x200 forwardSource readings := by
  have hoperands : ∀ raw ∈ Text.lines forwardSource, ∀ c ∈ held raw,
      (splitOperands c.2).toOption.map (·.all (·.length ≤ 4300)) = some true := by decide
  have hshort : ShortNumerals forwardSource := by
    intro raw hraw r hr
    apply (hr.forall_statement (P := fun _ operands => ∀ t ∈ operands,
      t.all Char.isDigit = true → t.length ≤ 4300)).mp
    intro item field hheld
    have hfield := hoperands raw hraw _ hheld
    cases hsplit : splitOperands field with
    | error fault => simp [hsplit, Except.toOption] at hfield
    | ok operands =>
      simp only [hsplit, Except.toOption, Option.map_some, Option.some.injEq, List.all_eq_true,
        decide_eq_true_eq] at hfield
      exact ⟨operands, rfl, fun t ht _ => hfield t ht⟩
  have hrom : (assemble 0x200 forwardSource).rom = .ok [0x12, 0x03, 0x92, 0xD0, 0x13] := by rfl
  exact ⟨by decide, hshort, (assembles_iff_accepted (by decide) hshort).mp ⟨_, hrom⟩⟩

end Chip8
