import Chip8.Proofs.StatementBytes
import Mathlib.Algebra.BigOperators.Group.List.Lemmas
import Mathlib.Algebra.Order.Ring.Nat

namespace Chip8.Assembly

def held (raw : Text) : Option (Item × Text) := ((readLine raw).content.toOption).join

def lineWidth (raw : Text) : Nat := ((held raw).map (fun c => c.1.width)).getD 0

def filled (lines : List Text) : Nat := (lines.map lineWidth).sum

def statementsFrom (address : Int) (number : Nat) : List Text → List Statement
  | [] => []
  | raw :: rest =>
    ((held raw).map (fun c => ⟨number, raw, c.1, c.2, address⟩)).toList ++
      statementsFrom (address + lineWidth raw) (number + 1) rest

def labelsFrom (address : Int) : List Text → Labels
  | [] => []
  | raw :: rest =>
    ((readLine raw).label.map (·, address)).toList ++ labelsFrom (address + lineWidth raw) rest

def itemsFrom (number : Nat) (lines : List Text) : List (Nat × Text × Item × Text) :=
  (lines.zipIdx number).filterMap (fun (raw, n) => (held raw).map (fun c => (n, raw, c.1, c.2)))

theorem content_of_held {raw : Text} {c : Item × Text} (h : held raw = some c) :
    (readLine raw).content = .ok (some c) := by
  rw [held] at h
  cases hcontent : (readLine raw).content with
  | error fault =>
    rw [hcontent] at h
    cases h
  | ok content =>
    rw [hcontent] at h
    exact congrArg _ h

namespace Layout

theorem define_eq_ok {l l' : Layout} {label : Option Text} :
    l.define label = .ok l' ↔ (∀ name, label = some name → l.labels.lookup name = none) ∧
      l' = { l with labels := l.labels ++ (label.map (·, l.next)).toList } := by
  cases label with
  | none =>
    simp only [define, reduceCtorEq, false_implies, implies_true, Option.map_none,
      Option.toList_none, List.append_nil, true_and, Except.ok.injEq]
    exact eq_comm
  | some name =>
    simp only [define, Option.some.injEq, forall_eq', Option.map_some, Option.toList_some]
    cases l.labels.lookup name with
    | none =>
      simp only [true_and, Except.ok.injEq]
      exact eq_comm
    | some address => simp only [reduceCtorEq, false_and]

theorem define_eq_error {l : Layout} {label : Option Text} {fault : Fault} :
    l.define label = .error fault ↔ ∃ name a, label = some name ∧
      l.labels.lookup name = some a ∧ fault = .duplicateLabel name a := by
  cases label with
  | none => simp [define]
  | some name =>
    simp only [define, Option.some.injEq, exists_and_left, exists_eq_left']
    cases l.labels.lookup name <;> simp [eq_comm]

theorem place_held (l : Layout) (number : Nat) (raw : Text) :
    l.place number raw (held raw) = ⟨l.labels,
      l.statements ++ ((held raw).map (fun c => ⟨number, raw, c.1, c.2, l.next⟩)).toList,
      l.next + lineWidth raw⟩ := by
  cases h : held raw with
  | none => simp [place, lineWidth, h]
  | some c => simp [place, lineWidth, h]

theorem addLine_eq_none {l l' : Layout} {number : Nat} {raw : Text} :
    l.addLine number raw = (l', none) ↔
      (∀ name, (readLine raw).label = some name → l.labels.lookup name = none) ∧
      (readLine raw).content = .ok (held raw) ∧
      l' = ⟨l.labels ++ ((readLine raw).label.map (·, l.next)).toList,
        l.statements ++ ((held raw).map (fun c => ⟨number, raw, c.1, c.2, l.next⟩)).toList,
        l.next + lineWidth raw⟩ := by
  simp only [addLine]
  cases hd : l.define (readLine raw).label with
  | error fault =>
    simp only [Prod.mk.injEq, reduceCtorEq, and_false, false_iff, not_and]
    intro hn
    rw [define_eq_ok.mpr ⟨hn, rfl⟩] at hd
    cases hd
  | ok d =>
    obtain ⟨hn, rfl⟩ := define_eq_ok.mp hd
    cases hc : (readLine raw).content with
    | error fault => simp only [Prod.mk.injEq, reduceCtorEq, and_false, false_and]
    | ok content =>
      have hh : held raw = content := by simp only [held, hc, Except.toOption, Option.join_some]
      subst hh
      simp only [place_held, Prod.mk.injEq, and_true, true_and]
      exact ⟨fun h => ⟨hn, h.symm⟩, fun h => h.2.symm⟩

theorem addLines_eq_none {l l' : Layout} {number : Nat} {lines : List Text}
    (h : l.addLines number lines = (l', none)) :
    l' = ⟨l.labels ++ labelsFrom l.next lines, l.statements ++ statementsFrom l.next number lines,
      l.next + filled lines⟩ := by
  induction lines generalizing l number with
  | nil =>
    cases h
    simp [labelsFrom, statementsFrom, filled]
  | cons raw rest ih =>
    rcases hl : l.addLine number raw with ⟨d, fault | _⟩
    · simp only [addLines, hl] at h
      obtain ⟨-, -, rfl⟩ := addLine_eq_none.mp hl
      rw [ih h]
      simp [labelsFrom, statementsFrom, filled, Int.add_assoc]
    · simp [addLines, hl] at h

theorem addLines_append {l l' : Layout} {number : Nat} {front : List Text}
    (h : l.addLines number front = (l', none)) (back : List Text) :
    l.addLines number (front ++ back) = l'.addLines (number + front.length) back := by
  induction front generalizing l number with
  | nil =>
    cases h
    rfl
  | cons raw rest ih =>
    rw [List.cons_append, addLines]
    rw [addLines] at h
    split at h
    · cases h
    · rw [ih h, List.length_cons, Nat.add_right_comm, Nat.add_assoc]

theorem exists_of_addLines_eq_some {l l' : Layout} {number : Nat} {lines : List Text} {r : Report}
    (h : l.addLines number lines = (l', some r)) : ∃ front raw back d fault,
      lines = front ++ raw :: back ∧ l.addLines number front = (d, none) ∧
        d.addLine (number + front.length) raw = (l', some fault) ∧
        r = fault.report (number + front.length : Nat) raw := by
  induction lines generalizing l number with
  | nil => cases h
  | cons raw rest ih =>
    rw [addLines] at h
    split at h
    · rename_i d fault hline
      cases h
      exact ⟨[], raw, rest, l, fault, rfl, rfl, hline, rfl⟩
    · rename_i d hline
      obtain ⟨front, raw', back, d', fault, rfl, hfront, hfault, rfl⟩ := ih h
      have hnumber : number + 1 + front.length = number + (front.length + 1) := by omega
      rw [hnumber] at hfault
      refine ⟨raw :: front, raw', back, d', fault, rfl, ?_, hfault, ?_⟩
      · rw [addLines, hline]
        exact hfront
      · rw [hnumber, List.length_cons]

end Layout

def Statement.outcome (labels : Labels) (s : Statement) :
    Except (Interruption Report) (List UInt8) :=
  (s.bytes labels).mapError (·.map (·.report s.number s.raw))

theorem emit_eq_mapM (labels : Labels) (statements : List Statement) :
    (emit labels statements).2 =
      (statements.mapM (Statement.outcome labels)).map List.flatten := by
  induction statements with
  | nil => rfl
  | cons s rest ih =>
    rw [List.mapM_cons, Statement.outcome]
    cases hb : s.bytes labels with
    | error e =>
      simp only [emit, hb]
      rfl
    | ok bytes =>
      simp only [emit, hb, ih]
      generalize rest.mapM (Statement.outcome labels) = chunks
      cases chunks <;> rfl

theorem emit_eq_ok {labels : Labels} {statements : List Statement} {rom : List UInt8} :
    (emit labels statements).2 = .ok rom ↔ ∃ chunks : List (List UInt8),
      List.Forall₂ (fun s bytes => s.bytes labels = .ok bytes) statements chunks ∧
        rom = chunks.flatten := by
  simp only [emit_eq_mapM, Except.map_eq_ok, List.mapM_eq_ok, Statement.outcome,
    Except.mapError_eq_ok, @eq_comm _ rom]

theorem emit_cons_eq_ok {labels : Labels} {s : Statement} {rest : List Statement}
    {rom : List UInt8} : (emit labels (s :: rest)).2 = .ok rom ↔ ∃ bytes image,
      s.bytes labels = .ok bytes ∧ (emit labels rest).2 = .ok image ∧ rom = bytes ++ image := by
  simp only [emit_eq_ok, List.forall₂_cons_left_iff]
  constructor
  · rintro ⟨_, ⟨bytes, chunks, hb, hf, rfl⟩, rfl⟩
    exact ⟨bytes, _, hb, ⟨chunks, hf, rfl⟩, rfl⟩
  · rintro ⟨bytes, _, hb, ⟨chunks, hf, rfl⟩, rfl⟩
    exact ⟨bytes :: chunks, ⟨bytes, chunks, hb, hf, rfl⟩, rfl⟩

theorem emit_eq_error {labels : Labels} {statements : List Statement} {e : Interruption Report} :
    (emit labels statements).2 = .error e ↔ ∃ front s back i, statements = front ++ s :: back ∧
      (∀ t ∈ front, ∃ bytes, t.bytes labels = .ok bytes) ∧ s.bytes labels = .error i ∧
        e = i.map (·.report s.number s.raw) := by
  simp only [emit_eq_mapM, Except.map_eq_error, List.mapM_eq_error, Statement.outcome,
    Except.mapError_eq_ok, Except.mapError_eq_error]
  constructor
  · rintro ⟨front, s, back, rfl, hfront, i, hi, rfl⟩
    exact ⟨front, s, back, i, rfl, hfront, hi, rfl⟩
  · rintro ⟨front, s, back, i, rfl, hfront, hi, rfl⟩
    exact ⟨front, s, back, rfl, hfront, i, hi, rfl⟩

theorem exists_of_emit_eq_error {labels : Labels} {statements : List Statement}
    {e : Interruption Report} (h : (emit labels statements).2 = .error e) :
    ∃ s ∈ statements, ∃ i, s.bytes labels = .error i ∧ e = i.map (·.report s.number s.raw) := by
  obtain ⟨front, s, back, i, rfl, -, hi, rfl⟩ := emit_eq_error.mp h
  exact ⟨s, by simp, i, hi, rfl⟩

theorem emit_of_forall₂ {labels labels' : Labels} {statements statements' : List Statement}
    {rom : List UInt8} (h : List.Forall₂ (fun s s' => ∀ bytes, s.bytes labels = .ok bytes →
      s'.bytes labels' = .ok bytes) statements statements')
    (hrom : (emit labels statements).2 = .ok rom) : (emit labels' statements').2 = .ok rom := by
  obtain ⟨chunks, hchunks, rfl⟩ := emit_eq_ok.mp hrom
  refine emit_eq_ok.mpr ⟨chunks, ?_, rfl⟩
  clear hrom
  induction h generalizing chunks with
  | nil =>
    cases hchunks
    exact .nil
  | cons hs _ ih =>
    cases hchunks with
    | cons hbytes hrest => exact .cons (hs _ hbytes) (ih _ hrest)

theorem statementsFrom_none {address : Int} {number : Nat} {raw : Text} {rest : List Text}
    (h : held raw = none) :
    statementsFrom address number (raw :: rest) = statementsFrom address (number + 1) rest := by
  simp [statementsFrom, lineWidth, h]

theorem statementsFrom_some {address : Int} {number : Nat} {raw : Text} {rest : List Text}
    {c : Item × Text} (h : held raw = some c) :
    statementsFrom address number (raw :: rest) = ⟨number, raw, c.1, c.2, address⟩ ::
      statementsFrom (address + c.1.width) (number + 1) rest := by
  simp [statementsFrom, lineWidth, h]

theorem sum_width_statementsFrom (address : Int) (number : Nat) (lines : List Text) :
    ((statementsFrom address number lines).map Statement.width).sum = filled lines := by
  induction lines generalizing address number with
  | nil => rfl
  | cons raw rest ih =>
    cases h : held raw with
    | none => simp [statementsFrom_none h, ih, filled, lineWidth, h]
    | some c => simp [statementsFrom_some h, ih, filled, lineWidth, h, Statement.width]

theorem address_statementsFrom (address : Int) (number : Nat) (lines : List Text) (i : Nat)
    (hi : i < (statementsFrom address number lines).length) :
    (statementsFrom address number lines)[i].address =
      address + (((statementsFrom address number lines).take i).map Statement.width).sum := by
  induction lines generalizing address number i with
  | nil => simp [statementsFrom] at hi
  | cons raw rest ih =>
    cases h : held raw with
    | none =>
      simp only [statementsFrom_none h] at hi ⊢
      exact ih address (number + 1) i hi
    | some c =>
      simp only [statementsFrom_some h, List.length_cons] at hi ⊢
      cases i with
      | zero => simp
      | succ i =>
        have ih := ih (address + c.1.width) (number + 1) i (by omega)
        simp only [List.getElem_cons_succ, List.take_succ_cons, List.map_cons, List.sum_cons, ih,
          Statement.width]
        omega

theorem items_statementsFrom (address : Int) (number : Nat) (lines : List Text) :
    (statementsFrom address number lines).map (fun s => (s.number, s.raw, s.item, s.operands)) =
      itemsFrom number lines := by
  induction lines generalizing address number with
  | nil => rfl
  | cons raw rest ih =>
    cases h : held raw with
    | none => simp [statementsFrom_none h, ih, itemsFrom, h]
    | some c => simp [statementsFrom_some h, ih, itemsFrom, h]

theorem exists_line {address : Int} {number : Nat} {lines : List Text} {s : Statement}
    (h : s ∈ statementsFrom address number lines) : ∃ k, ∃ hk : k < lines.length,
      s.number = number + k ∧ s.raw = lines[k] ∧ held lines[k] = some (s.item, s.operands) := by
  have hmem : (s.number, s.raw, s.item, s.operands) ∈ itemsFrom number lines := by
    rw [← items_statementsFrom address]
    exact List.mem_map_of_mem h
  rw [itemsFrom, List.mem_filterMap] at hmem
  obtain ⟨⟨raw, n⟩, hline, hheld⟩ := hmem
  obtain ⟨c, hc, he⟩ := Option.map_eq_some_iff.mp hheld
  obtain ⟨hle, hlt, hraw⟩ := List.mem_zipIdx hline
  simp only [Prod.mk.injEq] at he
  obtain ⟨hnumber, hraw', hitem, hoperands⟩ := he
  refine ⟨n - number, by omega, by omega, by rw [← hraw', hraw], ?_⟩
  rw [← hraw, hc, ← hitem, ← hoperands]

theorem le_number {address : Int} {number : Nat} {lines : List Text} {s : Statement}
    (h : s ∈ statementsFrom address number lines) : number ≤ s.number := by
  induction lines generalizing address number with
  | nil => simp [statementsFrom] at h
  | cons raw rest ih =>
    cases hr : held raw with
    | none =>
      rw [statementsFrom_none hr] at h
      exact Nat.le_of_succ_le (ih h)
    | some c =>
      rw [statementsFrom_some hr] at h
      rcases List.mem_cons.mp h with rfl | h
      · exact Nat.le_refl _
      · exact Nat.le_of_succ_le (ih h)

theorem filter_statementsFrom (address : Int) (number k : Nat) (lines : List Text) :
    (statementsFrom address number lines).filter (·.number < number + k) =
      statementsFrom address number (lines.take k) := by
  induction lines generalizing address number k with
  | nil => simp [statementsFrom]
  | cons raw rest ih =>
    cases k with
    | zero =>
      have hn : ∀ s ∈ statementsFrom address number (raw :: rest),
          ¬decide (s.number < number + 0) = true := by
        intro s hs
        have := le_number hs
        simp only [decide_eq_true_eq]
        omega
      rw [List.filter_eq_nil_iff.mpr hn]
      rfl
    | succ k =>
      have ih (a : Int) := ih a (number + 1) k
      rw [show number + 1 + k = number + (k + 1) by omega] at ih
      cases h : held raw with
      | none => rw [List.take_succ_cons, statementsFrom_none h, statementsFrom_none h, ih]
      | some c =>
        rw [List.take_succ_cons, statementsFrom_some h, statementsFrom_some h,
          List.filter_cons_of_pos (by simp), ih]

theorem mem_labelsFrom (name : Text) (value address : Int) (lines : List Text) :
    (name, value) ∈ labelsFrom address lines ↔ ∃ k, ∃ h : k < lines.length,
      (readLine lines[k]).label = some name ∧ value = address + filled (lines.take k) := by
  induction lines generalizing address with
  | nil => simp [labelsFrom]
  | cons raw rest ih =>
    simp only [labelsFrom, List.mem_append, Option.mem_toList, Option.map_eq_some_iff, ih]
    constructor
    · rintro (⟨_, hl, he⟩ | ⟨k, hk, hl, rfl⟩)
      · cases he
        exact ⟨0, by simp, hl, by simp [filled]⟩
      · exact ⟨k + 1, by simpa using hk, hl, by simp [filled, Int.add_assoc]⟩
    · rintro ⟨_ | k, hk, hl, rfl⟩
      · exact .inl ⟨name, hl, by simp [filled]⟩
      · exact .inr ⟨k, by simpa using hk, hl, by simp [filled, Int.add_assoc]⟩

theorem mem_labelsFrom_of_statement {address : Int} {number : Nat} {lines : List Text}
    {s : Statement} {name : Text} (hs : s ∈ statementsFrom address number lines)
    (hl : (readLine s.raw).label = some name) : (name, s.address) ∈ labelsFrom address lines := by
  induction lines generalizing address number with
  | nil => simp [statementsFrom] at hs
  | cons raw rest ih =>
    simp only [labelsFrom, List.mem_append]
    simp only [statementsFrom, List.mem_append, Option.mem_toList, Option.map_eq_some_iff] at hs
    rcases hs with ⟨c, -, rfl⟩ | hs
    · exact .inl (by simp [hl])
    · exact .inr (ih hs)

def definedNames (lines : List Text) : List Text := lines.filterMap fun raw => (readLine raw).label

section Names

variable {labels : Labels} {name : Text} {a : Int}

theorem lookup_eq_none_iff : labels.lookup name = none ↔ name ∉ labels.map Prod.fst := by
  simp only [List.lookup_eq_none_iff, bne_iff_ne, List.mem_map, not_exists, not_and]
  exact forall₂_congr fun p _ => ne_comm

theorem mem_of_lookup (h : labels.lookup name = some a) : (name, a) ∈ labels := by
  obtain ⟨before, after, rfl, -⟩ := List.lookup_eq_some_iff.mp h
  simp

theorem lookup_eq_some_iff (h : (labels.map Prod.fst).Nodup) :
    labels.lookup name = some a ↔ (name, a) ∈ labels := by
  constructor
  · exact mem_of_lookup
  · intro hmem
    obtain ⟨before, after, rfl⟩ := List.append_of_mem hmem
    refine List.lookup_eq_some_iff.mpr ⟨before, after, rfl, fun p hp => ?_⟩
    rw [List.map_append, List.nodup_append] at h
    have hne := h.2.2 p.1 (List.mem_map_of_mem hp) name (by simp)
    simpa using hne.symm

theorem nodup_define (h : (labels.map Prod.fst).Nodup) (label : Option Text) :
    ((labels ++ (label.map (·, a)).toList).map Prod.fst).Nodup ↔
      ∀ name, label = some name → labels.lookup name = none := by
  cases label with
  | none => simp [h]
  | some name =>
    simp only [lookup_eq_none_iff, Option.map_some, Option.toList_some, List.map_append,
      List.map_cons, List.map_nil, List.nodup_append, h, List.nodup_singleton, true_and,
      List.mem_singleton, forall_eq, Option.some.injEq, forall_eq']
    exact ⟨fun hne hmem => hne _ hmem rfl, fun hmem x hx he => hmem (he ▸ hx)⟩

theorem map_fst_labelsFrom (address : Int) (lines : List Text) :
    (labelsFrom address lines).map Prod.fst = definedNames lines := by
  induction lines generalizing address with
  | nil => rfl
  | cons raw rest ih =>
    rw [labelsFrom, List.map_append, ih]
    cases hlabel : (readLine raw).label with
    | none => simp [definedNames, hlabel]
    | some name => simp [definedNames, hlabel]

theorem le_of_lookup_labelsFrom {address : Int} {lines : List Text}
    (h : (labelsFrom address lines).lookup name = some a) : address ≤ a := by
  obtain ⟨k, hk, -, rfl⟩ := (mem_labelsFrom _ _ _ _).mp (mem_of_lookup h)
  omega

end Names

theorem Layout.addLines_snd_eq_none {l : Layout} {number : Nat} {lines : List Text}
    (h : (l.labels.map Prod.fst).Nodup) : (l.addLines number lines).2 = none ↔
      (∀ raw ∈ lines, (readLine raw).content = .ok (held raw)) ∧
        (l.labels.map Prod.fst ++ definedNames lines).Nodup := by
  induction lines generalizing l number with
  | nil => simp [addLines, definedNames, h]
  | cons raw rest ih =>
    have hnames : l.labels.map Prod.fst ++ definedNames (raw :: rest) =
        (l.labels ++ ((readLine raw).label.map (·, l.next)).toList).map Prod.fst ++
          definedNames rest := by
      cases hlabel : (readLine raw).label with
      | none => simp [definedNames, hlabel]
      | some name => simp [definedNames, hlabel]
    rw [List.forall_mem_cons, hnames, addLines]
    rcases hline : l.addLine number raw with ⟨d, _ | fault⟩
    · obtain ⟨hfresh, hcontent, rfl⟩ := addLine_eq_none.mp hline
      rw [ih ((nodup_define h _).mpr hfresh), and_iff_right hcontent]
    · simp only [reduceCtorEq, false_iff, not_and, and_imp]
      intro hcontent _ hnodup
      have hfresh := (nodup_define h _).mp (List.Nodup.of_append_left hnodup)
      rw [addLine_eq_none.mpr ⟨hfresh, hcontent, rfl⟩] at hline
      cases hline

def Placeable (lines : List Text) : Prop :=
  (∀ raw ∈ lines, (readLine raw).content = .ok (held raw)) ∧ (definedNames lines).Nodup

theorem Layout.addLines_empty_snd_eq_none (origin : Int) (number : Nat) {lines : List Text} :
    ((empty origin).addLines number lines).2 = none ↔ Placeable lines :=
  addLines_snd_eq_none List.nodup_nil

theorem Layout.addLines_of_placeable (origin : Int) {lines : List Text} (h : Placeable lines) :
    (empty origin).addLines 1 lines = (⟨labelsFrom origin lines, statementsFrom origin 1 lines,
      origin + filled lines⟩, none) := by
  rw [← addLines_empty_snd_eq_none origin 1] at h
  rcases hl : (empty origin).addLines 1 lines with ⟨l, report⟩
  rw [hl] at h
  subst h
  rw [addLines_eq_none hl]
  rfl

theorem emit_isOk_iff {labels : Labels} {statements : List Statement} :
    (∃ rom, (emit labels statements).2 = .ok rom) ↔
      ∀ s ∈ statements, ∃ bytes, s.bytes labels = .ok bytes := by
  rw [← List.exists_forall₂_iff]
  constructor
  · rintro ⟨rom, hrom⟩
    obtain ⟨chunks, hchunks, -⟩ := emit_eq_ok.mp hrom
    exact ⟨chunks, hchunks⟩
  · rintro ⟨chunks, hchunks⟩
    exact ⟨_, emit_eq_ok.mpr ⟨chunks, hchunks, rfl⟩⟩

theorem forall_statementsFrom {P : Item → Text → Prop} (address : Int) (number : Nat)
    (lines : List Text) : (∀ s ∈ statementsFrom address number lines, P s.item s.operands) ↔
      ∀ raw ∈ lines, ∀ item field, held raw = some (item, field) → P item field := by
  induction lines generalizing address number with
  | nil => simp [statementsFrom]
  | cons raw rest ih =>
    rw [List.forall_mem_cons, ← ih (address + lineWidth raw) (number + 1), statementsFrom]
    cases hheld : held raw with
    | none => simp
    | some c => simp [Prod.ext_iff]

section Lines

variable (address : Int) (number : Nat) (front back : List Text)

theorem filled_append : filled (front ++ back) = filled front + filled back := by
  rw [filled, List.map_append, List.sum_append, filled, filled]

theorem labelsFrom_append : labelsFrom address (front ++ back) =
    labelsFrom address front ++ labelsFrom (address + filled front) back := by
  induction front generalizing address with
  | nil => simp [labelsFrom, filled]
  | cons raw rest ih =>
    rw [List.cons_append, labelsFrom, ih, labelsFrom, List.append_assoc]
    simp [filled, Int.add_assoc]

theorem statementsFrom_append : statementsFrom address number (front ++ back) =
    statementsFrom address number front ++
      statementsFrom (address + filled front) (number + front.length) back := by
  induction front generalizing address number with
  | nil => simp [statementsFrom, filled]
  | cons raw rest ih =>
    rw [List.cons_append, statementsFrom, ih, statementsFrom, List.append_assoc]
    simp [filled, Int.add_assoc, Nat.add_assoc, Nat.add_comm 1]

theorem definedNames_append :
    definedNames (front ++ back) = definedNames front ++ definedNames back :=
  List.filterMap_append

theorem placeable_append : Placeable (front ++ back) ↔
    Placeable front ∧ Placeable back ∧ (definedNames front).Disjoint (definedNames back) := by
  rw [Placeable, definedNames_append, List.forall_mem_append, List.nodup_append']
  exact ⟨fun ⟨⟨hf, hb⟩, nf, nb, hd⟩ => ⟨⟨hf, nf⟩, ⟨hb, nb⟩, hd⟩,
    fun ⟨⟨hf, nf⟩, ⟨hb, nb⟩, hd⟩ => ⟨⟨hf, hb⟩, nf, nb, hd⟩⟩

end Lines

end Chip8.Assembly

namespace Chip8

open Assembly

theorem placeable_of_rom {origin : Int} {source : Text} {rom : List UInt8}
    (h : (assemble origin source).rom = .ok rom) : Placeable (Text.lines source) := by
  rw [← Layout.addLines_empty_snd_eq_none origin 1]
  rcases hl : (Layout.empty origin).addLines 1 (Text.lines source) with ⟨l, _ | report⟩
  · rfl
  · simp [assemble, hl] at h

theorem assemble_of_placeable {source : Text} (h : Placeable (Text.lines source)) (origin : Int) :
    (assemble origin source).labels = labelsFrom origin (Text.lines source) ∧
      (assemble origin source).statements = statementsFrom origin 1 (Text.lines source) ∧
      (assemble origin source).rom = (emit (labelsFrom origin (Text.lines source))
        (statementsFrom origin 1 (Text.lines source))).2 := by
  simp only [assemble, Layout.addLines_of_placeable origin h, and_self]

theorem assemble_eq_ok_iff {origin : Int} {source : Text} {rom : List UInt8} :
    (assemble origin source).rom = .ok rom ↔ Placeable (Text.lines source) ∧
      (emit (labelsFrom origin (Text.lines source))
        (statementsFrom origin 1 (Text.lines source))).2 = .ok rom := by
  constructor
  · intro h
    have hplaceable := placeable_of_rom h
    rw [(assemble_of_placeable hplaceable _).2.2] at h
    exact ⟨hplaceable, h⟩
  · rintro ⟨hplaceable, hemit⟩
    rw [(assemble_of_placeable hplaceable _).2.2, hemit]

theorem assemble_eq_ok {origin : Int} {source : Text} {rom : List UInt8}
    (h : (assemble origin source).rom = .ok rom) :
    (assemble origin source).labels = labelsFrom origin (Text.lines source) ∧
      (assemble origin source).statements = statementsFrom origin 1 (Text.lines source) ∧
      (emit (assemble origin source).labels (assemble origin source).statements).2 = .ok rom := by
  obtain ⟨hplaceable, hemit⟩ := assemble_eq_ok_iff.mp h
  obtain ⟨hlabels, hstatements, -⟩ := assemble_of_placeable hplaceable origin
  rw [hlabels, hstatements]
  exact ⟨rfl, rfl, hemit⟩

end Chip8
