import Chip8.Proofs.LabelReferences

namespace Chip8

namespace Assembly

def moved (shift : Int) (labels : Labels) : Labels :=
  labels.map fun (name, a) => (name, a + shift)

theorem lookup_moved (shift : Int) (labels : Labels) (name : Text) :
    (moved shift labels).lookup name = (labels.lookup name).map (· + shift) := by
  induction labels with
  | nil => rfl
  | cons p labels ih =>
    obtain ⟨n, a⟩ := p
    rw [moved, List.map_cons, ← moved, List.lookup_cons, List.lookup_cons, ih]
    cases name == n <;> rfl

theorem lookup_moved_eq_some {labels : Labels} {name : Text} {a : Int} (shift : Int)
    (h : labels.lookup name = some a) : (moved shift labels).lookup name = some (a + shift) := by
  rw [lookup_moved, h]
  rfl

theorem labelsFrom_add (address shift : Int) (lines : List Text) :
    labelsFrom (address + shift) lines = moved shift (labelsFrom address lines) := by
  induction lines generalizing address with
  | nil => rfl
  | cons raw rest ih =>
    rw [labelsFrom, Int.add_right_comm, ih, labelsFrom, moved, moved, List.map_append]
    cases (readLine raw).label <;> rfl

namespace Statement

def InReach (labels : Labels) (s : Statement) : Prop :=
  ∀ name a, s.Refers name → labels.lookup name = some a → 0 ≤ a ∧ a ≤ 0xFFF

/-- No name that the statement refers to has an address below zero that cannot be written. -/
def Legible (labels : Labels) (s : Statement) : Prop :=
  ∀ name a, s.Refers name → labels.lookup name = some a → a < 0 → Text.Writable a

inductive Moves (shift : Int) (s : Statement) : List UInt8 → List UInt8 → Prop
  | kept {bytes : List UInt8} (width : bytes.length = s.width) (literal : ∀ name, ¬s.Refers name) :
    Moves shift s bytes bytes
  | shifted {name : Text} {word word' : Nat} (width : s.width = 2) (refers : s.Refers name)
    (bound : word < 0x10000) (code : word' / 0x1000 = word / 0x1000)
    (field : ((word' % 0x1000 : Nat) : Int) = (word % 0x1000 : Nat) + shift) :
    Moves shift s (wordBytes word) (wordBytes word')

end Statement

inductive Relocates (shift : Int) : List Statement → List UInt8 → List UInt8 → Prop
  | nil : Relocates shift [] [] []
  | cons {s : Statement} {rest : List Statement} {bytes bytes' rom rom' : List UInt8}
    (head : s.Moves shift bytes bytes') (tail : Relocates shift rest rom rom') :
    Relocates shift (s :: rest) (bytes ++ rom) (bytes' ++ rom')

theorem Relocates.length_eq {shift : Int} {statements : List Statement} {rom rom' : List UInt8}
    (h : Relocates shift statements rom rom') : rom'.length = rom.length := by
  induction h with
  | nil => rfl
  | cons head tail ih =>
    rw [List.length_append, List.length_append, ih]
    cases head <;> rfl

namespace Statement

variable {s : Statement} {labels : Labels} {shift : Int} {bytes : List UInt8}

theorem AddressedBy.base_mod {m : Mnemonic} {name : Text} (h : s.AddressedBy m name) :
    m.base % 0x1000 = 0 := by
  have hextract := m.extract_base .address (by rw [h.field]; exact List.mem_singleton_self _)
  rw [OperandField.extract_eq] at hextract
  change m.base / 1 % 0x1000 = 0 at hextract
  rwa [Nat.div_one] at hextract

theorem bytes_moved_of_literal (h : ∀ name, ¬s.Refers name) (shift : Int) (labels : Labels) :
    s.bytes (moved shift labels) = s.bytes labels :=
  bytes_congr fun name hname => absurd hname (h name)

theorem literal_or_addressedBy (h : s.bytes labels = .ok bytes) :
    (∀ name, ¬s.Refers name) ∨ ∃ m name a, s.AddressedBy m name ∧ s.Refers name ∧
      labels.lookup name = some a ∧ 0 ≤ a ∧ a ≤ 0xFFF := by
  by_cases hrefers : ∃ name, s.Refers name
  · obtain ⟨name, hname⟩ := hrefers
    obtain ⟨m, haddressed⟩ := hname.addressedBy h
    obtain ⟨a, hdefined⟩ := hname.defined h
    exact .inr ⟨m, name, a, haddressed, hname, hdefined⟩
  · exact .inl (not_exists.mp hrefers)

theorem exists_moves (h : s.bytes labels = .ok bytes) (hreach : s.InReach (moved shift labels)) :
    ∃ bytes', s.bytes (moved shift labels) = .ok bytes' ∧ s.Moves shift bytes bytes' := by
  obtain hliteral | ⟨m, name, a, haddressed, hname, ha, hlow, hhigh⟩ := literal_or_addressedBy h
  · rw [bytes_moved_of_literal hliteral]
    exact ⟨bytes, h, .kept (bytes_length h) hliteral⟩
  · have hmoved := lookup_moved_eq_some shift ha
    obtain ⟨hlow', hhigh'⟩ := hreach name _ hname hmoved
    have hwidth : s.width = 2 := by
      rw [width, haddressed.item]
      rfl
    have hbase := haddressed.base_mod
    have hbound := m.base_lt
    rw [haddressed.bytes_eq, ha, Option.elim_some] at h
    rw [haddressed.bytes_eq, hmoved, Option.elim_some]
    rw [if_neg (by omega), if_neg (by omega)] at h ⊢
    cases h
    exact ⟨_, rfl, .shifted hwidth hname (by omega) (by omega) (by omega)⟩

theorem fault_of_moved {i : Interruption Fault} (h : s.bytes labels = .ok bytes)
    (hlegible : s.Legible (moved shift labels)) (hfail : s.bytes (moved shift labels) = .error i) :
    ∃ fault, i = .error fault ∧ fault.kind = .operandFormat := by
  obtain hliteral | ⟨m, name, a, haddressed, hname, ha, -⟩ := literal_or_addressedBy h
  · rw [bytes_moved_of_literal hliteral, h] at hfail
    cases hfail
  · have hmoved := lookup_moved_eq_some shift ha
    rw [haddressed.bytes_eq, hmoved, Option.elim_some] at hfail
    split_ifs at hfail with hfar hneg
    · cases hfail
      exact ⟨_, rfl, rfl⟩
    · rw [OperandField.refusal_of_writable _ (hlegible name _ hname hmoved hneg)] at hfail
      cases hfail
      exact ⟨_, rfl, rfl⟩

end Statement

theorem Statement.InReach.of_bytes_eq_ok {s : Statement} {labels : Labels} {bytes : List UInt8}
    (h : s.bytes labels = .ok bytes) : s.InReach labels := by
  intro name a hname ha
  obtain ⟨a', ha', hreach⟩ := hname.defined h
  rw [ha, Option.some.injEq] at ha'
  rwa [ha']

section Images

variable {labels : Labels} {shift : Int} {statements : List Statement} {rom : List UInt8}

theorem exists_relocates (h : (emit labels statements).2 = .ok rom)
    (hreach : ∀ s ∈ statements, s.InReach (moved shift labels)) :
    ∃ rom', (emit (moved shift labels) statements).2 = .ok rom' ∧
      Relocates shift statements rom rom' := by
  induction statements generalizing rom with
  | nil =>
    cases h
    exact ⟨[], rfl, .nil⟩
  | cons s rest ih =>
    obtain ⟨hs, hrest⟩ := List.forall_mem_cons.mp hreach
    obtain ⟨bytes, image, hbytes, himage, rfl⟩ := emit_cons_eq_ok.mp h
    obtain ⟨bytes', hbytes', hmoves⟩ := Statement.exists_moves hbytes hs
    obtain ⟨image', himage', hrelocates⟩ := ih himage hrest
    exact ⟨bytes' ++ image', emit_cons_eq_ok.mpr ⟨_, _, hbytes', himage', rfl⟩,
      .cons hmoves hrelocates⟩

theorem exists_refused_of_moved (h : (emit labels statements).2 = .ok rom)
    (hreach : ∃ s ∈ statements, ¬s.InReach (moved shift labels)) :
    ∃ s ∈ statements, ¬s.InReach (moved shift labels) ∧ (∃ bytes, s.bytes labels = .ok bytes) ∧
      ∃ i, s.bytes (moved shift labels) = .error i ∧
        (emit (moved shift labels) statements).2 = .error (i.map (·.report s.number s.raw)) := by
  have hplaced := emit_isOk_iff.mp ⟨rom, h⟩
  cases hemit : (emit (moved shift labels) statements).2 with
  | ok rom' =>
    obtain ⟨s, hs, hout⟩ := hreach
    obtain ⟨bytes, hbytes⟩ := emit_isOk_iff.mp ⟨rom', hemit⟩ s hs
    exact absurd (Statement.InReach.of_bytes_eq_ok hbytes) hout
  | error e =>
    -- the first statement that fails need not be the given one, but it is out of reach as well
    obtain ⟨s, hs, i, hfail, rfl⟩ := exists_of_emit_eq_error hemit
    obtain ⟨bytes, hbytes⟩ := hplaced s hs
    refine ⟨s, hs, fun hin => ?_, ⟨bytes, hbytes⟩, i, hfail, rfl⟩
    obtain ⟨bytes', hbytes', -⟩ := Statement.exists_moves hbytes hin
    rw [hfail] at hbytes'
    cases hbytes'

end Images

end Assembly

open Assembly

variable {origin : Int} {source : Text} {rom : List UInt8}

/-- At another origin a source assembles to the same image but for the addresses that are names,
which move with the origin. It does not assemble when one of these leaves what an operand holds, and
is refused unless that address is too low to be written. -/
theorem assemble_relocate (h : (assemble origin source).rom = .ok rom) (target : Int) :
    (assemble target source).labels =
        moved (target - origin) (assemble origin source).labels ∧
      ((∀ s ∈ (assemble target source).statements, s.InReach (assemble target source).labels) →
        ∃ rom', (assemble target source).rom = .ok rom' ∧ rom'.length = rom.length ∧
          Relocates (target - origin) (assemble target source).statements rom rom') ∧
      ((∃ s ∈ (assemble target source).statements, ¬s.InReach (assemble target source).labels) →
        (∀ rom', (assemble target source).rom ≠ .ok rom') ∧
        ((∀ s ∈ (assemble target source).statements, s.Legible (assemble target source).labels) →
          ∃ report, (assemble target source).rom = .error (.error report) ∧
            report.kind = .operandFormat ∧ ∃ s ∈ (assemble target source).statements,
              ¬s.InReach (assemble target source).labels ∧
                report.lineNumber = some (s.number : Int) ∧ report.line = some s.raw)) := by
  obtain ⟨hplaceable, hemit⟩ := assemble_eq_ok_iff.mp h
  have hlabels : labelsFrom target (Text.lines source) =
      moved (target - origin) (labelsFrom origin (Text.lines source)) := by
    rw [← labelsFrom_add, add_sub_cancel]
  obtain ⟨hlabels', hstatements, hrom⟩ := assemble_of_placeable hplaceable target
  rw [hlabels', hstatements, hrom, (assemble_of_placeable hplaceable _).1, hlabels]
  have hemit' : (emit (labelsFrom origin (Text.lines source))
      (statementsFrom target 1 (Text.lines source))).2 = .ok rom := by
    refine emit_of_forall₂ ((alike_statementsFrom origin target 1 1 _).imp ?_) hemit
    intro s s' halike bytes hbytes
    rwa [← halike.bytes_eq]
  refine ⟨rfl, fun hreach => ?_, fun hreach => ?_⟩
  · obtain ⟨rom', hrom', hrelocates⟩ := exists_relocates hemit' hreach
    exact ⟨rom', hrom', hrelocates.length_eq, hrelocates⟩
  · obtain ⟨s, hs, hout, ⟨bytes, hbytes⟩, i, hfail, hrom⟩ := exists_refused_of_moved hemit' hreach
    rw [hrom]
    constructor
    · rintro rom' ⟨⟩
    · intro hlegible
      obtain ⟨fault, rfl, hkind⟩ := Statement.fault_of_moved hbytes (hlegible s hs) hfail
      exact ⟨_, rfl, hkind, s, hs, hout, rfl, rfl⟩

theorem assemble_relocate_jump :
    (assemble 0x200 "A: JUMP A\nCALL $123".toList).rom = .ok [0x12, 0x00, 0x21, 0x23] ∧
      (assemble 0xFFF "A: JUMP A\nCALL $123".toList).rom = .ok [0x1F, 0xFF, 0x21, 0x23] ∧
      Relocates (0xFFF - 0x200) (assemble 0xFFF "A: JUMP A\nCALL $123".toList).statements
        [0x12, 0x00, 0x21, 0x23] [0x1F, 0xFF, 0x21, 0x23] ∧
      ∃ report, (assemble (-1) "A: JUMP A\nCALL $123".toList).rom = .error (.error report) ∧
        report.kind = .operandFormat := by
  have hrom : (assemble 0x200 "A: JUMP A\nCALL $123".toList).rom =
      .ok [0x12, 0x00, 0x21, 0x23] := by rfl
  have hrom' : (assemble 0xFFF "A: JUMP A\nCALL $123".toList).rom =
      .ok [0x1F, 0xFF, 0x21, 0x23] := by rfl
  obtain ⟨-, hnear, -⟩ := assemble_relocate hrom 0xFFF
  obtain ⟨-, -, hfar⟩ := assemble_relocate hrom (-1)
  have hreach : ∀ s ∈ (assemble 0xFFF "A: JUMP A\nCALL $123".toList).statements,
      s.InReach (assemble 0xFFF "A: JUMP A\nCALL $123".toList).labels := by
    intro s hs
    obtain ⟨bytes, hbytes⟩ := emit_isOk_iff.mp ⟨_, (assemble_eq_ok hrom').2.2⟩ s hs
    exact Statement.InReach.of_bytes_eq_ok hbytes
  obtain ⟨rom', hrelocated, -, hrelocates⟩ := hnear hreach
  rw [hrom', Except.ok.injEq] at hrelocated
  let s : Statement := ⟨1, "A: JUMP A".toList, .instruction .jump, ['A'], -1⟩
  have hrefers : s.Refers ['A'] :=
    ⟨[['A']], rfl, .jump, .address, rfl, List.mem_cons_self, rfl, rfl⟩
  have hout : ¬s.InReach (assemble (-1) "A: JUMP A\nCALL $123".toList).labels :=
    fun hin => absurd (hin ['A'] (-1) hrefers rfl).1 (by decide)
  have hlegible : ∀ s ∈ (assemble (-1) "A: JUMP A\nCALL $123".toList).statements,
      s.Legible (assemble (-1) "A: JUMP A\nCALL $123".toList).labels := by
    intro s _ name a _ ha _
    have hlabels : (assemble (-1) "A: JUMP A\nCALL $123".toList).labels = [(['A'], -1)] := by rfl
    rw [hlabels, List.lookup_cons] at ha
    split at ha
    · cases ha
      exact Nat.one_lt_pow (by decide) (by decide)
    · cases ha
  obtain ⟨report, hreport, hkind, -⟩ := (hfar ⟨s, List.mem_cons_self, hout⟩).2 hlegible
  exact ⟨hrom, hrom', hrelocated ▸ hrelocates, report, hreport, hkind⟩

theorem assemble_jump_of_neg {origin : Int} (h : origin < 0) :
    (assemble origin "X: JUMP X".toList).rom =
      .error (((OperandField.address.refusal origin).map Fault.encoding).map
        (·.report 1 "X: JUMP X".toList)) := by
  let s : Statement := ⟨1, "X: JUMP X".toList, .instruction .jump, ['X'], origin⟩
  have haddressed : s.AddressedBy .jump ['X'] := ⟨rfl, rfl, rfl, rfl⟩
  have hbytes := haddressed.bytes_eq [(['X'], origin)]
  have hlookup : ([(['X'], origin)] : Labels).lookup ['X'] = some origin := rfl
  rw [hlookup, Option.elim_some, if_neg (by omega), if_pos h] at hbytes
  show (emit [(['X'], origin)] [s]).2 = _
  rw [emit, hbytes]
  rfl

theorem assemble_relocate_far :
    ((assemble 0x200 "X: JUMP X".toList).rom = .ok [0x12, 0x00] ∧
      (∃ s ∈ (assemble (-10 ^ Text.maxDigits) "X: JUMP X".toList).statements,
        ¬s.InReach (assemble (-10 ^ Text.maxDigits) "X: JUMP X".toList).labels) ∧
      ∀ report, (assemble (-10 ^ Text.maxDigits) "X: JUMP X".toList).rom ≠ .error (.error report)) ∧
    ∃ s ∈ (assemble 0x1000 "X: JUMP X\nFROB".toList).statements,
      ¬s.InReach (assemble 0x1000 "X: JUMP X\nFROB".toList).labels ∧
      ∃ report, (assemble 0x1000 "X: JUMP X\nFROB".toList).rom = .error (.error report) ∧
        report.kind = .unknownInstruction := by
  have hfar : -10 ^ Text.maxDigits < (0 : Int) := Int.neg_neg_of_pos (Int.pow_pos (by decide))
  have hunwritable : ¬Text.Writable (-10 ^ Text.maxDigits) := by
    rw [Text.Writable]
    generalize Text.maxDigits = k
    rw [Int.natAbs_neg, Int.natAbs_pow]
    exact Nat.lt_irrefl _
  generalize (-10 ^ Text.maxDigits : Int) = origin at hfar hunwritable ⊢
  have hrefers (number : Nat) (raw : Text) (address : Int) :
      (⟨number, raw, .instruction .jump, ['X'], address⟩ : Statement).Refers ['X'] :=
    ⟨[['X']], rfl, .jump, .address, rfl, List.mem_cons_self, rfl, rfl⟩
  refine ⟨⟨rfl, ⟨_, List.mem_cons_self, fun hin => ?_⟩, ?_⟩, ?_⟩
  · exact absurd (hin ['X'] origin (hrefers _ _ _) rfl).1 (by omega)
  · rw [assemble_jump_of_neg hfar, OperandField.refusal_of_not_writable _ hunwritable]
    rintro report ⟨⟩
  · refine ⟨_, List.mem_cons_self, fun hin => ?_, _, rfl, rfl⟩
    exact absurd (hin ['X'] 0x1000 (hrefers _ _ _) rfl).2 (by decide)

end Chip8
