import Chip8.Proofs.OperandFaults
import Chip8.Proofs.SourceLanguage

namespace Chip8

namespace Assembly

open Text

/-- The first check that an item fails with its operand field: the field is split at its commas, the
operands are counted and read from left to right, and what they spell goes into the opcode. A value
that does not fit there is written into the error. -/
inductive Fails (labels : Labels) : Item → Text → Interruption Fault → Prop
  | empty {item : Item} {field part : Text} (nonempty : field ≠ []) (mem : part ∈ field.splitOn ',')
    (blank : trim part = []) : Fails labels item field (.error (.emptyOperand field))
  | count {item : Item} {field : Text} {operands : List Text}
    (split : splitOperands field = .ok operands) (wrong : operands.length ≠ item.operandCount) :
    Fails labels item field (.error (.operandCount item operands.length))
  | operand {m : Mnemonic} {field t : Text} {operands : List Text} {f : OperandField}
    {front back : List (OperandField × Text)} {i : Interruption Fault}
    (split : splitOperands field = .ok operands) (count : operands.length = m.fields.length)
    (place : m.fields.zip operands = front ++ (f, t) :: back)
    (read : ∀ p ∈ front, ∃ v, Spells labels p.1.kind p.2 v) (misspells : Misspells labels f.kind t i) :
    Fails labels (.instruction m) field i
  | word {field t : Text} (split : splitOperands field = .ok [t]) (wrong : ¬Item.word.Admits [t]) :
    Fails labels .word field (.error (.badWord t))
  | bits {field t : Text} (split : splitOperands field = .ok [t]) (wrong : ¬Item.bits.Admits [t]) :
    Fails labels .bits field (.error (.badBits t))
  | encoding {m : Mnemonic} {field : Text} {operands : List Text} {values : List Int}
    {f : OperandField} {v : Int} {front back : List (OperandField × Int)}
    (split : splitOperands field = .ok operands) (count : operands.length = m.fields.length)
    (spelled : Spelled labels m operands values)
    (place : m.fields.zip values = front ++ (f, v) :: back) (fit : ∀ p ∈ front, p.1.Fits p.2)
    (unfit : ¬f.Fits v) (writable : Writable v) :
    Fails labels (.instruction m) field (.error (.encoding (.outOfRange f.kind v)))
  | unwritable {m : Mnemonic} {field : Text} {operands : List Text} {values : List Int}
    {f : OperandField} {v : Int} {front back : List (OperandField × Int)}
    (split : splitOperands field = .ok operands) (count : operands.length = m.fields.length)
    (spelled : Spelled labels m operands values)
    (place : m.fields.zip values = front ++ (f, v) :: back) (fit : ∀ p ∈ front, p.1.Fits p.2)
    (unfit : ¬f.Fits v) (unwritable : ¬Writable v) :
    Fails labels (.instruction m) field (.endlessNumeral (digits 10 v.natAbs).length)

inductive Refuses (labels : Labels) (raw : Text) : Fault → Prop
  | taken {name : Text} {a : Int} (label : (readLine raw).label = some name)
    (defined : labels.lookup name = some a) : Refuses labels raw (.duplicateLabel name a)
  | unread {fault : Fault} (fresh : ∀ name, (readLine raw).label = some name →
    labels.lookup name = none) (content : (readLine raw).content = .error fault) :
    Refuses labels raw fault

section Operands

variable {labels : Labels} {t : Text} {fault : Fault}

theorem splitOperands_eq_error : splitOperands t = .error fault ↔
    t ≠ [] ∧ (∃ part ∈ t.splitOn ',', trim part = []) ∧ fault = .emptyOperand t := by
  have hpieces : pieces (· == ',') t = t.splitOn ',' := by
    rw [pieces_eq_splitOnP, List.splitOn_eq_splitOnP]
  simp only [splitOperands, hpieces]
  by_cases ht : t = []
  · simp [ht]
  · by_cases hblank : ∃ part ∈ t.splitOn ',', trim part = []
    · have hany : ((t.splitOn ',').map trim).any List.isEmpty = true := by simpa using hblank
      rw [if_neg ht, if_pos hany, Except.error.injEq, and_iff_right ht, and_iff_right hblank]
      exact eq_comm
    · have hany : ¬((t.splitOn ',').map trim).any List.isEmpty = true := by simpa using hblank
      simp only [if_neg ht, if_neg hany, reduceCtorEq, hblank, false_and, and_false]

theorem readWord_eq_error (ht : dropFinalFeed t = t) :
    readWord t = .error fault ↔ ¬Item.word.Admits [t] ∧ fault = .badWord t := by
  rw [← exists_spellsData_iff rfl]
  simp only [← readWord_eq_ok ht]
  rw [readWord]
  cases marked '#' 16 4 hexValue (dropFinalFeed t) with
  | some n => simp
  | none => simp [eq_comm]

theorem readBits_eq_error (ht : dropFinalFeed t = t) :
    readBits t = .error fault ↔ ¬Item.bits.Admits [t] ∧ fault = .badBits t := by
  rw [← exists_spellsData_iff rfl]
  simp only [← readBits_eq_ok ht]
  rw [readBits]
  cases marked '$' 2 8 bitValue (dropFinalFeed t) with
  | some n => simp
  | none => simp [eq_comm]

end Operands

namespace Statement

variable {labels : Labels} {s : Statement} {m : Mnemonic} {texts : List Text}
  {i : Interruption Fault} {fault : Fault}

theorem operandTexts_eq_error : s.operandTexts = .error fault ↔
    splitOperands s.operands = .error fault ∨ ∃ texts, splitOperands s.operands = .ok texts ∧
      texts.length ≠ s.item.operandCount ∧ fault = .operandCount s.item texts.length := by
  rw [operandTexts, Except.bind_eq_error]
  refine or_congr_right (exists_congr fun texts => and_congr_right fun _ => ?_)
  split_ifs with hcount
  · simp [hcount]
  · simp [hcount, eq_comm]

theorem mapM_readOperand_eq_error (hfeed : ∀ u ∈ texts, dropFinalFeed u = u) :
    (m.fields.zip texts).mapM (fun (f, t) => readOperand labels f.kind t) = .error i ↔
      ∃ front f t back, m.fields.zip texts = front ++ (f, t) :: back ∧
        (∀ p ∈ front, ∃ v, Spells labels p.1.kind p.2 v) ∧ Misspells labels f.kind t i := by
  simp only [List.mapM_eq_error, Prod.exists]
  refine exists_congr fun front => exists_congr fun f => exists_congr fun t =>
    exists_congr fun back => and_congr_right fun hpairs => ?_
  have hpair {p : OperandField × Text} (hp : p ∈ front ++ (f, t) :: back) :
      dropFinalFeed p.2 = p.2 :=
    hfeed p.2 (List.of_mem_zip (hpairs ▸ hp)).2
  have hfront : ∀ p ∈ front, (∃ v, readOperand labels p.1.kind p.2 = .ok v) ↔
      ∃ v, Spells labels p.1.kind p.2 v :=
    fun p hp => exists_congr fun v => readOperand_eq_ok (hpair (List.mem_append_left _ hp))
  exact and_congr (forall₂_congr hfront) (readOperand_eq_error (hpair (p := (f, t)) (by simp)))

theorem instructionBytes_eq_error (hfeed : ∀ u ∈ texts, dropFinalFeed u = u)
    (hcount : texts.length = m.fields.length) : instructionBytes labels m texts = .error i ↔
      (∃ front f t back, m.fields.zip texts = front ++ (f, t) :: back ∧
        (∀ p ∈ front, ∃ v, Spells labels p.1.kind p.2 v) ∧ Misspells labels f.kind t i) ∨
      ∃ values, Spelled labels m texts values ∧ ∃ front f v back,
        m.fields.zip values = front ++ (f, v) :: back ∧ (∀ p ∈ front, p.1.Fits p.2) ∧
          ¬f.Fits v ∧ i = (f.refusal v).map .encoding := by
  rw [instructionBytes, Except.bind_eq_error, mapM_readOperand_eq_error hfeed]
  refine or_congr_right (exists_congr fun values => ?_)
  rw [mapM_readOperand_eq_ok hfeed]
  refine and_congr_right fun hspelled => ?_
  have hlength : values.length = m.fields.length := by
    rw [← hspelled.length_eq, List.length_zip, hcount, Nat.min_self]
  rw [Except.bind_eq_error, Except.mapError_eq_error]
  simp only [Instruction.encode_eq_refusal hlength]
  constructor
  · rintro (⟨_, ⟨front, f, v, back, hpairs, hfit, hunfit, rfl⟩, rfl⟩ | ⟨_, -, ⟨⟩⟩)
    exact ⟨front, f, v, back, hpairs, hfit, hunfit, rfl⟩
  · rintro ⟨front, f, v, back, hpairs, hfit, hunfit, rfl⟩
    exact .inl ⟨_, ⟨front, f, v, back, hpairs, hfit, hunfit, rfl⟩, rfl⟩

theorem fails_of_bytes (h : s.bytes labels = .error i) : Fails labels s.item s.operands i := by
  simp only [bytes, Except.bind_eq_error, Except.mapError_eq_error, operandTexts_eq_error,
    Except.mapError_eq_ok, operandTexts_eq_ok] at h
  obtain ⟨fault, hsplit | ⟨texts, hsplit, hcount, rfl⟩, rfl⟩ | ⟨texts, ⟨hsplit, hcount⟩, h⟩ := h
  · obtain ⟨hne, ⟨part, hpart, hblank⟩, rfl⟩ := splitOperands_eq_error.mp hsplit
    exact .empty hne hpart hblank
  · exact .count hsplit hcount
  · have hfeed := dropFinalFeed_of_splitOperands hsplit
    cases hitem : s.item with
    | instruction m =>
      rw [hitem] at h hcount
      obtain ⟨front, f, t, back, hplace, hread, hmisspells⟩ |
        ⟨values, hspelled, front, f, v, back, hplace, hfit, hunfit, rfl⟩ :=
        (instructionBytes_eq_error hfeed hcount).mp h
      · exact .operand hsplit hcount hplace hread hmisspells
      · by_cases hwritable : Writable v
        · rw [f.refusal_of_writable hwritable]
          exact .encoding hsplit hcount hspelled hplace hfit hunfit hwritable
        · rw [f.refusal_of_not_writable hwritable]
          exact .unwritable hsplit hcount hspelled hplace hfit hunfit hwritable
    | word =>
      rw [hitem] at h hcount
      obtain ⟨t, rfl⟩ := List.length_eq_one_iff.mp hcount
      obtain ⟨fault, hfault, rfl⟩ := Except.mapError_eq_error.mp h
      obtain ⟨hwrong, rfl⟩ := (readWord_eq_error (hfeed t (by simp))).mp hfault
      exact .word hsplit hwrong
    | bits =>
      rw [hitem] at h hcount
      obtain ⟨t, rfl⟩ := List.length_eq_one_iff.mp hcount
      obtain ⟨fault, hfault, rfl⟩ := Except.mapError_eq_error.mp h
      obtain ⟨hwrong, rfl⟩ := (readBits_eq_error (hfeed t (by simp))).mp hfault
      exact .bits hsplit hwrong

theorem bytes_of_operandTexts (h : s.operandTexts = .error fault) :
    s.bytes labels = .error (.error fault) := by
  rw [bytes, h]
  rfl

theorem bytes_of_unfit {values : List Int} {f : OperandField} {v : Int}
    {front back : List (OperandField × Int)} (hitem : s.item = .instruction m)
    (hsplit : splitOperands s.operands = .ok texts) (hcount : texts.length = m.fields.length)
    (hspelled : Spelled labels m texts values) (hplace : m.fields.zip values = front ++ (f, v) :: back)
    (hfit : ∀ p ∈ front, p.1.Fits p.2) (hunfit : ¬f.Fits v) :
    s.bytes labels = .error ((f.refusal v).map .encoding) := by
  rw [bytes_eq_instructionBytes hitem hsplit hcount]
  apply (instructionBytes_eq_error (dropFinalFeed_of_splitOperands hsplit) hcount).mpr
  exact .inr ⟨values, hspelled, front, f, v, back, hplace, hfit, hunfit, rfl⟩

theorem bytes_of_fails (h : Fails labels s.item s.operands i) : s.bytes labels = .error i := by
  obtain ⟨number, raw, item, field, address⟩ := s
  cases h with
  | empty hne hpart hblank =>
    refine bytes_of_operandTexts (operandTexts_eq_error.mpr (.inl ?_))
    exact splitOperands_eq_error.mpr ⟨hne, ⟨_, hpart, hblank⟩, rfl⟩
  | count hsplit hwrong =>
    exact bytes_of_operandTexts (operandTexts_eq_error.mpr (.inr ⟨_, hsplit, hwrong, rfl⟩))
  | operand hsplit hcount hplace hread hmisspells =>
    rw [bytes_eq_instructionBytes rfl hsplit hcount]
    apply (instructionBytes_eq_error (dropFinalFeed_of_splitOperands hsplit) hcount).mpr
    exact .inl ⟨_, _, _, _, hplace, hread, hmisspells⟩
  | encoding hsplit hcount hspelled hplace hfit hunfit hwritable =>
    rw [bytes_of_unfit rfl hsplit hcount hspelled hplace hfit hunfit,
      OperandField.refusal_of_writable _ hwritable]
    rfl
  | unwritable hsplit hcount hspelled hplace hfit hunfit hunwritable =>
    rw [bytes_of_unfit rfl hsplit hcount hspelled hplace hfit hunfit,
      OperandField.refusal_of_not_writable _ hunwritable]
    rfl
  | word hsplit hwrong =>
    rw [bytes, Except.bind_eq_error, Except.mapError_eq_error]
    refine .inr ⟨_, Except.mapError_eq_ok.mpr (operandTexts_eq_ok.mpr ⟨hsplit, rfl⟩), ?_⟩
    have hfeed := dropFinalFeed_of_splitOperands hsplit _ (List.mem_singleton_self _)
    exact Except.mapError_eq_error.mpr ⟨_, (readWord_eq_error hfeed).mpr ⟨hwrong, rfl⟩, rfl⟩
  | bits hsplit hwrong =>
    rw [bytes, Except.bind_eq_error, Except.mapError_eq_error]
    refine .inr ⟨_, Except.mapError_eq_ok.mpr (operandTexts_eq_ok.mpr ⟨hsplit, rfl⟩), ?_⟩
    have hfeed := dropFinalFeed_of_splitOperands hsplit _ (List.mem_singleton_self _)
    exact Except.mapError_eq_error.mpr ⟨_, (readBits_eq_error hfeed).mpr ⟨hwrong, rfl⟩, rfl⟩

theorem bytes_eq_error : s.bytes labels = .error i ↔ Fails labels s.item s.operands i :=
  ⟨fails_of_bytes, bytes_of_fails⟩

end Statement

namespace Layout

variable {l : Layout} {number : Nat} {raw : Text} {fault : Fault}

theorem addLine_eq_some :
    (l.addLine number raw).2 = some fault ↔ Refuses l.labels raw fault := by
  rw [addLine]
  constructor
  · intro h
    split at h
    · rename_i hdefine
      cases h
      obtain ⟨name, a, hlabel, hlookup, rfl⟩ := define_eq_error.mp hdefine
      exact .taken hlabel hlookup
    · rename_i hdefine
      split at h
      · rename_i hcontent
        cases h
        exact .unread (define_eq_ok.mp hdefine).1 hcontent
      · cases h
  · intro h
    cases h with
    | taken hlabel hlookup => rw [define_eq_error.mpr ⟨_, _, hlabel, hlookup, rfl⟩]
    | unread hfresh hcontent => rw [define_eq_ok.mpr ⟨hfresh, rfl⟩, hcontent]

end Layout

theorem not_refuses_iff {labels : Labels} {raw : Text} : (∀ fault, ¬Refuses labels raw fault) ↔
    (∀ name, (readLine raw).label = some name → labels.lookup name = none) ∧
      (readLine raw).content = .ok (held raw) := by
  constructor
  · intro h
    have hfresh : ∀ name, (readLine raw).label = some name → labels.lookup name = none := by
      intro name hname
      cases hlookup : labels.lookup name with
      | none => rfl
      | some a => exact absurd (.taken hname hlookup) (h _)
    refine ⟨hfresh, ?_⟩
    cases hcontent : (readLine raw).content with
    | error fault => exact absurd (.unread hfresh hcontent) (h _)
    | ok content => rw [held, hcontent, Except.toOption, Option.join_some]
  · rintro ⟨hfresh, hcontent⟩ fault h
    cases h with
    | taken hname hlookup =>
      rw [hfresh _ hname] at hlookup
      cases hlookup
    | unread _ herror =>
      rw [hcontent] at herror
      cases herror

theorem placeable_concat {above : List Text} {raw : Text} (origin : Int) :
    Placeable (above ++ [raw]) ↔
      Placeable above ∧ ∀ fault, ¬Refuses (labelsFrom origin above) raw fault := by
  have hnames : definedNames [raw] = (readLine raw).label.toList := by
    rw [definedNames, List.filterMap_cons]
    cases (readLine raw).label <;> rfl
  have hsingle : Placeable [raw] ↔ (readLine raw).content = .ok (held raw) := by
    rw [Placeable, hnames, List.forall_mem_singleton]
    exact and_iff_left (by cases (readLine raw).label <;> simp)
  rw [placeable_append, hsingle, not_refuses_iff, and_comm (a := (readLine raw).content = _)]
  simp only [lookup_eq_none_iff, map_fst_labelsFrom, hnames, List.disjoint_right,
    Option.mem_toList]

inductive Stops (origin : Int) (above : List Text) (raw : Text) (below : List Text) :
    Interruption Fault → Prop
  | unplaced {fault : Fault} (placeable : Placeable above)
    (refuses : Refuses (labelsFrom origin above) raw fault) : Stops origin above raw below (.error fault)
  | unmade {item : Item} {field : Text} {i : Interruption Fault}
    (placeable : Placeable (above ++ raw :: below)) (held : held raw = some (item, field))
    (made : ∀ line ∈ above, ∀ item field, Assembly.held line = some (item, field) →
      ∀ i, ¬Fails (labelsFrom origin (above ++ raw :: below)) item field i)
    (fails : Fails (labelsFrom origin (above ++ raw :: below)) item field i) :
    Stops origin above raw below i

theorem exists_of_statementsFrom_eq_append {address : Int} {number : Nat} {lines : List Text}
    {front back : List Statement} {s : Statement}
    (h : statementsFrom address number lines = front ++ s :: back) : ∃ above raw below,
      lines = above ++ raw :: below ∧ held raw = some (s.item, s.operands) ∧
        front = statementsFrom address number above ∧ s.number = number + above.length ∧
          s.raw = raw := by
  induction lines generalizing address number front with
  | nil => simp [statementsFrom] at h
  | cons raw rest ih =>
    cases hheld : held raw with
    | none =>
      rw [statementsFrom_none hheld] at h
      obtain ⟨above, raw', below, rfl, hs, rfl, hnumber, hraw⟩ := ih h
      refine ⟨raw :: above, raw', below, rfl, hs, (statementsFrom_none hheld).symm, ?_, hraw⟩
      rw [hnumber, List.length_cons]
      omega
    | some c =>
      rw [statementsFrom_some hheld] at h
      cases front with
      | nil =>
        obtain ⟨rfl, -⟩ := List.cons_eq_cons.mp h
        exact ⟨[], raw, rest, rfl, hheld, rfl, rfl, rfl⟩
      | cons t front =>
        obtain ⟨rfl, hrest⟩ := List.cons_eq_cons.mp h
        obtain ⟨above, raw', below, rfl, hs, rfl, hnumber, hraw⟩ := ih hrest
        refine ⟨raw :: above, raw', below, rfl, hs, (statementsFrom_some hheld).symm, ?_, hraw⟩
        rw [hnumber, List.length_cons]
        omega

theorem Statement.bytes_isOk_iff {labels : Labels} {s : Statement} :
    (∃ bytes, s.bytes labels = .ok bytes) ↔ ∀ i, ¬Fails labels s.item s.operands i := by
  simp only [← bytes_eq_error]
  cases s.bytes labels <;> simp

end Assembly

open Assembly

section Assembling

variable {origin : Int} {source : Text} {e : Interruption Report}

theorem emit_statementsFrom_eq_error {labels : Labels} {lines : List Text} :
    (emit labels (statementsFrom origin 1 lines)).2 = .error e ↔
      ∃ above raw below item field i, lines = above ++ raw :: below ∧
        held raw = some (item, field) ∧
        (∀ line ∈ above, ∀ item field, held line = some (item, field) →
          ∀ i, ¬Fails labels item field i) ∧
        Fails labels item field i ∧ e = i.map (·.report (above.length + 1 : Nat) raw) := by
  simp only [emit_eq_error, Statement.bytes_isOk_iff, Statement.bytes_eq_error]
  constructor
  · rintro ⟨front, s, back, i, hstatements, hfront, hs, rfl⟩
    obtain ⟨above, raw, below, rfl, hheld, rfl, hnumber, hraw⟩ :=
      exists_of_statementsFrom_eq_append hstatements
    refine ⟨above, raw, below, s.item, s.operands, i, rfl, hheld, ?_, hs, ?_⟩
    · exact (forall_statementsFrom (P := fun item field => ∀ i, ¬Fails labels item field i)
        _ _ _).mp hfront
    · rw [hnumber, hraw, Nat.add_comm]
  · rintro ⟨above, raw, below, item, field, i, rfl, hheld, habove, hfails, rfl⟩
    have hstatements := statementsFrom_append origin 1 above (raw :: below)
    rw [statementsFrom_some hheld] at hstatements
    refine ⟨_, _, _, i, hstatements, ?_, hfails, by rw [Nat.add_comm]⟩
    exact (forall_statementsFrom (P := fun item field => ∀ i, ¬Fails labels item field i)
      _ _ _).mpr habove

theorem rom_eq_error : (assemble origin source).rom = .error e ↔ ∃ above raw below i,
    Text.lines source = above ++ raw :: below ∧ Stops origin above raw below i ∧
      e = i.map (·.report (above.length + 1 : Nat) raw) := by
  constructor
  · intro h
    rcases hl : (Layout.empty origin).addLines 1 (Text.lines source) with ⟨l, _ | report⟩
    · have hplaceable : Placeable (Text.lines source) := by
        rw [← Layout.addLines_empty_snd_eq_none origin 1, hl]
      rw [(assemble_of_placeable hplaceable _).2.2] at h
      obtain ⟨above, raw, below, item, field, i, hlines, hheld, hmade, hfails, rfl⟩ :=
        emit_statementsFrom_eq_error.mp h
      rw [hlines] at hplaceable hmade hfails
      exact ⟨above, raw, below, i, hlines, .unmade hplaceable hheld hmade hfails, rfl⟩
    · simp only [assemble, hl] at h
      cases h
      obtain ⟨above, raw, below, d, fault, hlines, habove, hline, rfl⟩ :=
        Layout.exists_of_addLines_eq_some hl
      have hplaceable : Placeable above := by
        rw [← Layout.addLines_empty_snd_eq_none origin 1, habove]
      obtain rfl := Layout.addLines_eq_none habove
      refine ⟨above, raw, below, .error fault, hlines, .unplaced hplaceable ?_, ?_⟩
      · exact Layout.addLine_eq_some.mp (congrArg Prod.snd hline)
      · rw [Nat.add_comm]
        rfl
  · rintro ⟨above, raw, below, i, hlines, hstops, rfl⟩
    cases hstops with
    | unplaced placeable refuses =>
      have habove := Layout.addLines_of_placeable origin placeable
      rcases hline : Layout.addLine ⟨labelsFrom origin above, statementsFrom origin 1 above,
        origin + filled above⟩ (1 + above.length) raw with ⟨l, report⟩
      obtain rfl : report = some _ :=
        (congrArg Prod.snd hline).symm.trans (Layout.addLine_eq_some.mpr refuses)
      simp only [assemble, hlines, Layout.addLines_append habove, Layout.addLines, hline]
      rw [Nat.add_comm]
      rfl
    | unmade placeable hheld made fails =>
      rw [← hlines] at placeable made fails
      rw [(assemble_of_placeable placeable _).2.2]
      exact emit_statementsFrom_eq_error.mpr
        ⟨above, raw, below, _, _, i, hlines, hheld, made, fails, rfl⟩

end Assembling

namespace Assembly

variable {origin : Int} {lines : List Text} {k : Nat} {fault : Fault} {i : Interruption Fault}

def RefusedAt (origin : Int) (lines : List Text) (k : Nat) (fault : Fault) : Prop :=
  ∃ hk : k < lines.length, Refuses (labelsFrom origin (lines.take k)) lines[k] fault

def FailsAt (origin : Int) (lines : List Text) (k : Nat) (i : Interruption Fault) : Prop :=
  ∃ hk : k < lines.length, ∃ item field, held lines[k] = some (item, field) ∧
    Fails (labelsFrom origin lines) item field i

theorem placeable_take_iff (origin : Int) (k : Nat) : Placeable (lines.take k) ↔
    ∀ j < k, ∀ fault, ¬RefusedAt origin lines j fault := by
  induction k with
  | zero => simp [Placeable, definedNames]
  | succ k ih =>
    rw [Nat.forall_lt_succ_right, ← ih]
    by_cases hk : k < lines.length
    · have hrefused : ∀ fault, RefusedAt origin lines k fault ↔
          Refuses (labelsFrom origin (lines.take k)) lines[k] fault :=
        fun fault => exists_prop_of_true hk
      rw [List.take_succ_eq_append_getElem hk, placeable_concat origin]
      simp only [hrefused]
    · rw [List.take_of_length_le (by omega), List.take_of_length_le (by omega)]
      exact (and_iff_left fun fault h => hk h.1).symm

theorem placeable_iff (origin : Int) : Placeable lines ↔ ∀ j fault, ¬RefusedAt origin lines j fault := by
  rw [← List.take_length (l := lines), placeable_take_iff origin, List.take_length]
  exact ⟨fun h j fault hj => h j hj.1 fault hj, fun h j _ => h j⟩

section Split

variable {above below : List Text} {raw : Text}

theorem refusedAt_length : RefusedAt origin (above ++ raw :: below) above.length fault ↔
    Refuses (labelsFrom origin above) raw fault := by
  simp [RefusedAt]

theorem failsAt_length : FailsAt origin (above ++ raw :: below) above.length i ↔
    ∃ item field, held raw = some (item, field) ∧
      Fails (labelsFrom origin (above ++ raw :: below)) item field i := by
  simp [FailsAt]

theorem placeable_above_iff : Placeable above ↔
    ∀ j < above.length, ∀ fault, ¬RefusedAt origin (above ++ raw :: below) j fault := by
  rw [← placeable_take_iff origin, List.take_left]

theorem made_above_iff : (∀ line ∈ above, ∀ item field, held line = some (item, field) →
      ∀ i, ¬Fails (labelsFrom origin (above ++ raw :: below)) item field i) ↔
    ∀ j < above.length, ∀ i, ¬FailsAt origin (above ++ raw :: below) j i := by
  rw [List.forall_mem_iff_forall_getElem]
  refine forall₂_congr fun j hj => ?_
  have hlength : j < (above ++ raw :: below).length := by
    rw [List.length_append]
    omega
  simp only [FailsAt, List.getElem_append_left hj, hlength, exists_true_left, not_exists, not_and]
  exact ⟨fun h i item field hheld => h item field hheld i,
    fun h item field hheld i => h i item field hheld⟩

theorem stops_iff : Stops origin above raw below i ↔
    (∃ fault, i = .error fault ∧ RefusedAt origin (above ++ raw :: below) above.length fault ∧
      ∀ j < above.length, ∀ fault, ¬RefusedAt origin (above ++ raw :: below) j fault) ∨
    (∀ j fault, ¬RefusedAt origin (above ++ raw :: below) j fault) ∧
      FailsAt origin (above ++ raw :: below) above.length i ∧
      ∀ j < above.length, ∀ i, ¬FailsAt origin (above ++ raw :: below) j i := by
  rw [← placeable_iff origin, ← placeable_above_iff, ← made_above_iff, failsAt_length]
  simp only [refusedAt_length]
  constructor
  · intro h
    cases h with
    | unplaced placeable refuses => exact .inl ⟨_, rfl, refuses, placeable⟩
    | unmade placeable hheld made fails => exact .inr ⟨placeable, ⟨_, _, hheld, fails⟩, made⟩
  · rintro (⟨_, rfl, refuses, placeable⟩ | ⟨placeable, ⟨_, _, hheld, fails⟩, made⟩)
    · exact .unplaced placeable refuses
    · exact .unmade placeable hheld made fails

end Split

end Assembly

/-- A report names the first line that is refused, or else the first whose statement has no bytes,
with the first check that the statement fails. -/
theorem assemble_reports_first {origin : Int} {source : Text} {r : Report} :
    (assemble origin source).rom = .error (.error r) ↔
      ∃ k, ∃ hk : k < (Text.lines source).length, ∃ fault : Fault,
        r = fault.report (k + 1 : Nat) (Text.lines source)[k] ∧
        ((RefusedAt origin (Text.lines source) k fault ∧
            ∀ j < k, ∀ fault, ¬RefusedAt origin (Text.lines source) j fault) ∨
          (∀ j fault, ¬RefusedAt origin (Text.lines source) j fault) ∧
            FailsAt origin (Text.lines source) k (.error fault) ∧
            ∀ j < k, ∀ i, ¬FailsAt origin (Text.lines source) j i) := by
  rw [rom_eq_error]
  generalize Text.lines source = lines
  constructor
  · rintro ⟨above, raw, below, i, rfl, hstops, hr⟩
    cases i with
    | endlessNumeral digits => cases hr
    | error fault =>
      cases hr
      have hk : above.length < (above ++ raw :: below).length := by simp
      have hraw : (above ++ raw :: below)[above.length] = raw := by simp
      refine ⟨above.length, hk, fault, by rw [hraw], ?_⟩
      simpa only [Interruption.error.injEq, exists_eq_left'] using stops_iff.mp hstops
  · rintro ⟨k, hk, fault, rfl, h⟩
    have hlines : lines = lines.take k ++ lines[k] :: lines.drop (k + 1) := by simp
    have hlength : (lines.take k).length = k := List.length_take_of_le hk.le
    refine ⟨_, _, _, .error fault, hlines, stops_iff.mpr ?_, by rw [hlength]; rfl⟩
    rw [← hlines, hlength]
    simpa only [Interruption.error.injEq, exists_eq_left'] using h

end Chip8
