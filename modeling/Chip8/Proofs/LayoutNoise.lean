import Chip8.Proofs.AcceptedSources
import Chip8.Proofs.FirstFault

namespace Chip8.Assembly

open Text

inductive Idle (raw : Text) : Prop
  | blank (blank : ∀ c ∈ raw, isBlank c = true) : Idle raw
  | comment {blanks rest : Text} (split : raw = blanks ++ ';' :: rest)
    (blank : ∀ c ∈ blanks, isBlank c = true) : Idle raw
  | directive {blanks word rest : Text} (split : raw = blanks ++ (word ++ rest))
    (blank : ∀ c ∈ blanks, isBlank c = true) (name : word.map Char.toLower = "option".toList)
    (ends : ∀ c ∈ rest.head?, isBlank c = true ∨ c = ';') : Idle raw

inductive Wraps (raw : Text) : Text → Prop
  | intro {before after comment : Text} (before_blank : ∀ c ∈ before, isBlank c = true)
    (after_blank : ∀ c ∈ after, isBlank c = true) (mark : ∀ c ∈ comment.head?, c = ';') :
    Wraps raw (before ++ raw ++ after ++ comment)

/-- Lines with so many idle lines put between them and the others wrapped. -/
inductive Dressed : Nat → List Text → List Text → Prop
  | nil : Dressed 0 [] []
  | insert {n : Nat} {raw : Text} {lines lines' : List Text} (idle : Idle raw)
    (rest : Dressed n lines lines') : Dressed (n + 1) lines (raw :: lines')
  | line {n : Nat} {raw raw' : Text} {lines lines' : List Text} (wraps : Wraps raw raw')
    (rest : Dressed n lines lines') : Dressed n (raw :: lines) (raw' :: lines')

inductive Splits (line first second : Text) : Prop
  | intro {name rest : Text} (named : isName name = true)
    (line_eq : stripComment line = name ++ ':' :: rest)
    (first_eq : stripComment first = name ++ [':']) (second_eq : stripComment second = trim rest) :
    Splits line first second

section Comments

theorem ne_semicolon_of_isBlank {c : Char} (h : isBlank c = true) : decide (c ≠ ';') = true :=
  decide_eq_true (ne_of_isBlank rfl h)

theorem stripComment_append {blanks : Text} (h : ∀ c ∈ blanks, isBlank c = true) (t : Text) :
    stripComment (blanks ++ t) = stripComment t := by
  rw [stripComment, List.takeWhile_append_of_pos fun c hc => ne_semicolon_of_isBlank (h c hc), trim,
    trimStart_append h, stripComment, trim]

theorem stripComment_padded {gap body : Text} (blank : ∀ c ∈ gap, isBlank c = true)
    (plain : ';' ∉ gap ++ body) (trimmed : Trimmed body) : stripComment (gap ++ body) = body := by
  rw [stripComment_append blank]
  exact trimmed.stripComment_eq fun hc => plain (List.mem_append_right gap hc)

theorem stripComment_append_comment {blanks comment : Text} (h : ∀ c ∈ blanks, isBlank c = true)
    (hmark : ∀ c ∈ comment.head?, c = ';') (t : Text) :
    stripComment (t ++ blanks ++ comment) = stripComment t := by
  have hcomment : comment.takeWhile (· ≠ ';') = [] := by
    cases comment with
    | nil => rfl
    | cons c comment => simp [hmark c rfl]
  rw [stripComment, List.append_assoc, List.takeWhile_append]
  split_ifs with hplain
  · have ht : t.takeWhile (· ≠ ';') = t :=
      (List.takeWhile_prefix _).eq_of_length hplain
    rw [List.takeWhile_append_of_pos fun c hc => ne_semicolon_of_isBlank (h c hc), hcomment,
      List.append_nil, trim_append h, stripComment, ht]
  · rfl

theorem Wraps.stripComment_eq {raw raw' : Text} (h : Wraps raw raw') :
    stripComment raw' = stripComment raw := by
  obtain ⟨hbefore, hafter, hmark⟩ := h
  rw [stripComment_append_comment hafter hmark, stripComment_append hbefore]

theorem Wraps.readLine_eq {raw raw' : Text} (h : Wraps raw raw') :
    readLine raw' = readLine raw := by
  rw [readLine, readLine, h.stripComment_eq]

theorem stripComment_of_word {word : Text} (hword : ∀ c ∈ word, c.isAlpha = true) (hne : word ≠ [])
    (rest : Text) : stripComment (word ++ rest) = word ++ trimEnd (rest.takeWhile (· ≠ ';')) := by
  have hblank : ∀ c ∈ word, isBlank c = false :=
    fun c hc => not_isBlank_of_isWordChar (isWordChar_of_isAlpha (hword c hc))
  have hplain : ∀ c ∈ word, decide (c ≠ ';') = true := by
    intro c hc
    apply decide_eq_true
    rintro rfl
    exact absurd (hword _ hc) (by decide)
  rw [stripComment, List.takeWhile_append_of_pos hplain, trim, trimStart_eq_self,
    trimEnd_append_of_last fun c hc => hblank c (List.mem_of_mem_getLast? hc)]
  intro c hc
  rw [List.head?_append_of_ne_nil _ hne] at hc
  exact hblank c (List.mem_of_mem_head? hc)

theorem Idle.readLine_eq {raw : Text} (h : Idle raw) : readLine raw = ⟨none, .ok none⟩ := by
  apply readLine_of_skipped
  cases h with
  | blank blank =>
    have hraw := stripComment_append blank []
    rw [List.append_nil] at hraw
    exact .inl hraw
  | comment split blank =>
    rw [split, stripComment_append blank]
    exact .inl rfl
  | @directive blanks word rest split blank name ends =>
    have hletters := isAlpha_of_directive name
    have hne : word ≠ [] := by
      rintro rfl
      cases name
    rw [split, stripComment_append blank, stripComment_of_word hletters hne]
    have hstripped := stripComment_of_word hletters hne rest
    refine .inr ((isDirective?_eq_some_true (hstripped ▸ trimmed_trim _)).mpr
      ⟨word, _, rfl, name, ?_⟩)
    intro c hc
    have hhead := head?_trimEnd hc
    cases rest with
    | nil => cases hhead
    | cons d rest =>
      rw [List.takeWhile_cons] at hhead
      split_ifs at hhead with hd
      · cases hhead
        exact (ends c rfl).resolve_right (of_decide_eq_true hd)
      · cases hhead

end Comments

inductive Part where
  | label (name : Text)
  | statement (item : Item) (field : Text)
  | fault (fault : Fault)

namespace Part

def width : Part → Nat
  | statement item _ => item.width
  | _ => 0

def name? : Part → Option Text
  | label name => some name
  | _ => none

def statement? : Part → Option (Item × Text)
  | statement item field => some (item, field)
  | _ => none

def fault? : Part → Option Fault
  | .fault f => some f
  | _ => none

def labelsOf (address : Int) : List Part → Labels
  | [] => []
  | p :: rest => (p.name?.map (·, address)).toList ++ labelsOf (address + p.width) rest

end Part

def Line.parts (line : Line) : List Part :=
  (line.label.map .label).toList ++
    match line.content with
    | .error fault => [.fault fault]
    | .ok none => []
    | .ok (some (item, field)) => [.statement item field]

def partsOf (lines : List Text) : List Part := lines.flatMap fun raw => (readLine raw).parts

section Parts

theorem partsOf_append (front back : List Text) :
    partsOf (front ++ back) = partsOf front ++ partsOf back :=
  List.flatMap_append

theorem partsOf_cons (raw : Text) (rest : List Text) :
    partsOf (raw :: rest) = (readLine raw).parts ++ partsOf rest :=
  List.flatMap_cons

theorem labelsFrom_eq (address : Int) (lines : List Text) :
    labelsFrom address lines = Part.labelsOf address (partsOf lines) := by
  induction lines generalizing address with
  | nil => rfl
  | cons raw rest ih =>
    rw [labelsFrom, ih, partsOf_cons, Line.parts, lineWidth, held]
    obtain ⟨_ | name, fault | _ | ⟨item, field⟩⟩ := readLine raw <;>
      simp [Part.labelsOf, Part.name?, Part.width, Except.toOption]

theorem definedNames_eq_parts (lines : List Text) :
    definedNames lines = (partsOf lines).filterMap Part.name? := by
  induction lines with
  | nil => rfl
  | cons raw rest ih =>
    rw [definedNames] at ih ⊢
    rw [List.filterMap_cons, ih, partsOf_cons, Line.parts]
    obtain ⟨_ | name, fault | _ | ⟨item, field⟩⟩ := readLine raw <;> simp [Part.name?, List.filterMap_cons]

theorem content_ok_iff (lines : List Text) :
    (∀ raw ∈ lines, (readLine raw).content = .ok (held raw)) ↔
      (partsOf lines).filterMap Part.fault? = [] := by
  induction lines with
  | nil => simp [partsOf]
  | cons raw rest ih =>
    rw [List.forall_mem_cons, ih, partsOf_cons, Line.parts, held]
    obtain ⟨_ | name, fault | _ | ⟨item, field⟩⟩ := readLine raw <;>
      simp [Part.fault?, Except.toOption, List.filterMap_cons]

theorem map_statementsFrom (address : Int) (number : Nat) (lines : List Text) :
    (statementsFrom address number lines).map (fun s => (s.item, s.operands)) =
      (partsOf lines).filterMap Part.statement? := by
  induction lines generalizing address number with
  | nil => rfl
  | cons raw rest ih =>
    rw [statementsFrom, List.map_append, ih, partsOf_cons, Line.parts, held]
    obtain ⟨_ | name, fault | _ | ⟨item, field⟩⟩ := readLine raw <;>
      simp [Part.statement?, Except.toOption, List.filterMap_cons]

section Same

variable {origin : Int} {lines lines' : List Text}

theorem placeable_congr (h : partsOf lines = partsOf lines') :
    Placeable lines ↔ Placeable lines' := by
  rw [Placeable, Placeable, content_ok_iff, content_ok_iff, definedNames_eq_parts,
    definedNames_eq_parts, h]

theorem labelsFrom_congr (h : partsOf lines = partsOf lines') (address : Int) :
    labelsFrom address lines = labelsFrom address lines' := by
  rw [labelsFrom_eq, labelsFrom_eq, h]

theorem alike_of_parts (h : partsOf lines = partsOf lines') (address address' : Int)
    (number number' : Nat) : List.Forall₂ Statement.Alike (statementsFrom address number lines)
      (statementsFrom address' number' lines') := by
  have hmap := map_statementsFrom address number lines
  rw [h, ← map_statementsFrom address' number' lines', ← List.forall₂_eq_eq_eq,
    List.forall₂_map_left_iff, List.forall₂_map_right_iff] at hmap
  refine hmap.imp fun s s' hs => ?_
  obtain ⟨hitem, hoperands⟩ := Prod.mk.inj hs
  exact ⟨hitem, hoperands⟩

theorem forall_held_congr {P : Item → Text → Prop} (h : partsOf lines = partsOf lines') :
    (∀ raw ∈ lines, ∀ item field, held raw = some (item, field) → P item field) ↔
      ∀ raw ∈ lines', ∀ item field, held raw = some (item, field) → P item field := by
  rw [← forall_statementsFrom 0 1, ← forall_statementsFrom 0 1]
  refine (alike_of_parts h 0 0 1 1).forall_mem_iff fun s s' hs => ?_
  rw [hs.item, hs.operands]

theorem Stops.congr {above above' below below' : List Text} {raw raw' : Text}
    {i : Interruption Fault} (h : Stops origin above raw below i)
    (habove : partsOf above = partsOf above') (hraw : readLine raw = readLine raw')
    (hbelow : partsOf below = partsOf below') : Stops origin above' raw' below' i := by
  have hlines : partsOf (above ++ raw :: below) = partsOf (above' ++ raw' :: below') := by
    rw [partsOf_append, partsOf_append, partsOf_cons, partsOf_cons, habove, hraw, hbelow]
  cases h with
  | unplaced placeable refuses =>
    refine .unplaced ((placeable_congr habove).mp placeable) ?_
    rw [← labelsFrom_congr habove]
    cases refuses with
    | taken label defined => exact .taken (hraw ▸ label) defined
    | unread fresh content => exact .unread (hraw ▸ fresh) (hraw ▸ content)
  | unmade placeable held made fails =>
    rw [labelsFrom_congr hlines] at made fails
    rw [Assembly.held, hraw] at held
    exact .unmade ((placeable_congr hlines).mp placeable) held ((forall_held_congr habove).mp made)
      fails

end Same

end Parts

namespace Dressed

variable {n : Nat} {lines lines' : List Text}

theorem length_eq (h : Dressed n lines lines') : lines'.length = lines.length + n := by
  induction h with
  | nil => rfl
  | insert _ _ ih => rw [List.length_cons, ih, Nat.add_assoc]
  | line _ _ ih => rw [List.length_cons, List.length_cons, ih, Nat.add_right_comm]

theorem partsOf_eq (h : Dressed n lines lines') : partsOf lines = partsOf lines' := by
  induction h with
  | nil => rfl
  | insert idle _ ih => rw [partsOf_cons, idle.readLine_eq, ih]; rfl
  | line wraps _ ih => rw [partsOf_cons, partsOf_cons, wraps.readLine_eq, ih]

theorem exists_split {above below : List Text} {raw : Text}
    (h : Dressed n (above ++ raw :: below) lines') : ∃ m k above' raw' below',
      lines' = above' ++ raw' :: below' ∧ Dressed m above above' ∧ Wraps raw raw' ∧
        Dressed k below below' := by
  generalize hlines : above ++ raw :: below = lines at h
  induction h generalizing above with
  | nil => simp at hlines
  | @insert n line lines lines' idle _ ih =>
    obtain ⟨m, k, above', raw', below', rfl, habove, hraw, hbelow⟩ := ih hlines
    exact ⟨m + 1, k, line :: above', raw', below', rfl, .insert idle habove, hraw, hbelow⟩
  | @line n line line' lines lines' wraps rest ih =>
    cases above with
    | nil =>
      cases hlines
      exact ⟨0, n, [], line', lines', rfl, .nil, wraps, rest⟩
    | cons top above =>
      cases hlines
      obtain ⟨m, k, above', raw', below', rfl, habove, hraw, hbelow⟩ := ih rfl
      exact ⟨m, k, line' :: above', raw', below', rfl, .line wraps habove, hraw, hbelow⟩

end Dressed

section Splitting

variable {line first second : Text}

theorem readLine_of_readStatement {item : Item} {field : Text} {operands : List Text} {raw : Text}
    (hread : readStatement (stripComment raw) = .ok (item, field))
    (hsplit : splitOperands field = .ok operands) :
    readLine raw = ⟨none, .ok (some (item, field))⟩ := by
  have hstates := (states_iff (trimmed_trim _)).mpr ⟨field, hread, hsplit⟩
  rw [readLine_of_states hstates, hread]
  rfl

theorem Splits.parts_eq (h : Splits line first second)
    (hread : (readLine line).content = .ok (held line))
    (hoperands : ∀ item field, held line = some (item, field) →
      ∃ operands, splitOperands field = .ok operands) :
    (readLine line).parts = (readLine first).parts ++ (readLine second).parts := by
  obtain ⟨hname, hline, hfirst, hsecond⟩ := h
  rw [readLine_of_name hfirst hname, if_pos (show trim [] = [] from rfl)]
  have hlabelled := readLine_of_name hline hname
  split_ifs at hlabelled with hblank
  · rw [hlabelled, readLine_of_skipped (.inl (hsecond.trans hblank))]
    rfl
  · rw [← hsecond] at hlabelled
    cases hstatement : readStatement (stripComment second) with
    | error fault =>
      rw [hlabelled, hstatement] at hread
      cases hread
    | ok c =>
      have hheld : held line = some c := by
        rw [held, hlabelled, hstatement]
        rfl
      obtain ⟨operands, hsplit⟩ := hoperands c.1 c.2 hheld
      rw [hlabelled, hstatement, readLine_of_readStatement hstatement hsplit]
      rfl

end Splitting

end Chip8.Assembly

namespace Chip8

open Assembly

theorem assemble_of_parts {origin : Int} {source source' : Text} {rom : List UInt8}
    (h : partsOf (Text.lines source) = partsOf (Text.lines source'))
    (hrom : (assemble origin source).rom = .ok rom) : (assemble origin source').rom = .ok rom ∧
      (assemble origin source').labels = (assemble origin source).labels := by
  obtain ⟨hplaceable, hemit⟩ := assemble_eq_ok_iff.mp hrom
  have hplaceable' := (placeable_congr h).mp hplaceable
  have hlabels := labelsFrom_congr h origin
  obtain ⟨hl, -⟩ := assemble_of_placeable hplaceable origin
  obtain ⟨hl', -, hrom'⟩ := assemble_of_placeable hplaceable' origin
  constructor
  · rw [hrom', ← hlabels]
    refine emit_of_forall₂ ((alike_of_parts h origin origin 1 1).imp fun s s' hs bytes hb => ?_) hemit
    rw [← hs.bytes_eq, hb]
  · rw [hl', hl, hlabels]

theorem rom_of_dressed {origin : Int} {source source' : Text} {n : Nat} {e : Interruption Report}
    (h : Dressed n (Text.lines source) (Text.lines source'))
    (he : (assemble origin source).rom = .error e) :
    ∃ m above raw below above' raw' below', Text.lines source = above ++ raw :: below ∧
      Text.lines source' = above' ++ raw' :: below' ∧ Dressed m above above' ∧ Wraps raw raw' ∧
      ∃ i : Interruption Fault, e = i.map (·.report (above.length + 1 : Nat) raw) ∧
      (assemble origin source').rom = .error (i.map (·.report (above.length + 1 + m : Nat) raw')) := by
  obtain ⟨above, raw, below, i, hlines, hstops, rfl⟩ := rom_eq_error.mp he
  rw [hlines] at h
  obtain ⟨m, k, above', raw', below', hlines', habove, hraw, hbelow⟩ := h.exists_split
  refine ⟨m, above, raw, below, above', raw', below', hlines, hlines', habove, hraw, i, rfl, ?_⟩
  refine rom_eq_error.mpr ⟨above', raw', below', i, hlines', ?_, ?_⟩
  · exact hstops.congr habove.partsOf_eq hraw.readLine_eq.symm hbelow.partsOf_eq
  · rw [habove.length_eq, Nat.add_right_comm]

theorem partsOf_of_splits {origin : Int} {source : Text} {rom : List UInt8} {above below : List Text}
    {line first second : Text} (hrom : (assemble origin source).rom = .ok rom)
    (hlines : Text.lines source = above ++ line :: below) (h : Splits line first second) :
    partsOf (above ++ line :: below) = partsOf (above ++ first :: second :: below) := by
  have hmem : line ∈ Text.lines source := by simp [hlines]
  obtain ⟨hread, -, hemits⟩ := (assemble_isOk_iff origin source).mp ⟨rom, hrom⟩
  have hparts := h.parts_eq (hread line hmem) fun item field hheld =>
    (hemits line hmem item field hheld).imp fun operands hsplit => hsplit.1
  rw [partsOf_append, partsOf_append, partsOf_cons, partsOf_cons, partsOf_cons, hparts,
    List.append_assoc]

/-- Blank lines, comments, directives and white space leave the program as it is, and an error only
moves by the lines put before it; a label may as well stand on a line of its own. -/
theorem assemble_layout_irrelevant (origin : Int) (source source' : Text) :
    (∀ n, Dressed n (Text.lines source) (Text.lines source') →
      (∀ rom, (assemble origin source).rom = .ok rom → (assemble origin source').rom = .ok rom ∧
        (assemble origin source').labels = (assemble origin source).labels) ∧
      (∀ r, (assemble origin source).rom = .error (.error r) →
        ∃ m above raw below above' raw' below', Text.lines source = above ++ raw :: below ∧
          Text.lines source' = above' ++ raw' :: below' ∧ Dressed m above above' ∧
          Wraps raw raw' ∧ r.lineNumber = some (above.length + 1 : Nat) ∧
          (assemble origin source').rom = .error (.error
            { r with lineNumber := some (above.length + 1 + m : Nat), line := some raw' })) ∧
      ∀ digits, (assemble origin source).rom = .error (.endlessNumeral digits) →
        (assemble origin source').rom = .error (.endlessNumeral digits)) ∧
    ∀ above line below first second, Text.lines source = above ++ line :: below →
      Text.lines source' = above ++ first :: second :: below → Splits line first second →
      ∀ rom, (assemble origin source).rom = .ok rom → (assemble origin source').rom = .ok rom ∧
        (assemble origin source').labels = (assemble origin source).labels := by
  constructor
  · intro n h
    refine ⟨fun rom hrom => assemble_of_parts h.partsOf_eq hrom, ?_, ?_⟩
    · intro r hr
      obtain ⟨m, above, raw, below, above', raw', below', hlines, hlines', habove, hraw, i, hi,
        hrom⟩ := rom_of_dressed h hr
      cases i with
      | endlessNumeral digits => cases hi
      | error fault =>
        cases hi
        exact ⟨m, above, raw, below, above', raw', below', hlines, hlines', habove, hraw, rfl, hrom⟩
    · intro digits hdigits
      obtain ⟨m, above, raw, below, above', raw', below', -, -, -, -, i, hi, hrom⟩ :=
        rom_of_dressed h hdigits
      cases i with
      | endlessNumeral digits =>
        cases hi
        exact hrom
      | error fault => cases hi
  · intro above line below first second hlines hlines' h rom hrom
    have hparts := partsOf_of_splits hrom hlines h
    rw [← hlines, ← hlines'] at hparts
    exact assemble_of_parts hparts hrom

section Spinning

def spinLines : List Text := ["spin: JUMP spin".toList, "LOAD V0, 1".toList]

def commentedLines : List Text :=
  ["; twice".toList, "Option binary;".toList, "\tspin: JUMP spin ; forever".toList, " ".toList,
    "LOAD V0, 1".toList]

def labelLines : List Text := ["spin:".toList, "JUMP spin".toList, "LOAD V0, 1".toList]

def spinSource : Text := ['\n'].intercalate spinLines

def commentedSource : Text := ['\n'].intercalate commentedLines

def labelSource : Text := ['\n'].intercalate labelLines

theorem lines_joined {ls : List Text}
    (h : ls.all (fun l => !l.isEmpty && l.all (!Text.isBreak ·)) = true) :
    Text.lines (['\n'].intercalate ls) = ls := by
  simp only [List.all_eq_true, Bool.and_eq_true, Bool.not_eq_true', List.isEmpty_eq_false_iff] at h
  exact Text.lines_intercalate (fun l hl => (h l hl).1) (fun l hl => (h l hl).2)

theorem dressed_spinLines : Dressed 3 spinLines commentedLines := by
  have htwice : Idle "; twice".toList := @Idle.comment _ [] " twice".toList rfl (by simp)
  have hoption : Idle "Option binary;".toList :=
    @Idle.directive _ [] "Option".toList " binary;".toList rfl (by simp) rfl
      (by rintro _ ⟨⟩; exact .inl rfl)
  have hspin : Wraps "spin: JUMP spin".toList "\tspin: JUMP spin ; forever".toList :=
    @Wraps.intro _ ['\t'] [' '] "; forever".toList (List.forall_mem_singleton.mpr rfl)
      (List.forall_mem_singleton.mpr rfl) (by rintro _ ⟨⟩; rfl)
  have hblank : Idle " ".toList := .blank (List.forall_mem_singleton.mpr rfl)
  have hload : Wraps "LOAD V0, 1".toList "LOAD V0, 1".toList :=
    @Wraps.intro _ [] [] [] (by simp) (by simp) (by simp)
  exact .insert htwice (.insert hoption (.line hspin (.insert hblank (.line hload .nil))))

theorem splits_spin : Splits "spin: JUMP spin".toList "spin:".toList "JUMP spin".toList :=
  @Splits.intro _ _ _ "spin".toList " JUMP spin".toList rfl rfl rfl rfl

theorem assemble_layout_irrelevant_spinning :
    (assemble 0x200 commentedSource).rom = .ok [0x12, 0x00, 0x60, 0x01] ∧
    (assemble 0x200 commentedSource).labels = [("spin".toList, 0x200)] ∧
    (assemble 0x200 labelSource).rom = .ok [0x12, 0x00, 0x60, 0x01] ∧
    ∃ r, (assemble (-2) commentedSource).rom = .error (.error r) ∧ r.kind = .operandFormat := by
  have hlines : Text.lines spinSource = spinLines := lines_joined rfl
  have hdressed : Dressed 3 (Text.lines spinSource) (Text.lines commentedSource) := by
    rw [hlines, show Text.lines commentedSource = commentedLines from lines_joined rfl]
    exact dressed_spinLines
  have hrom : (assemble 0x200 spinSource).rom = .ok [0x12, 0x00, 0x60, 0x01] := by rfl
  have hlabels : (assemble 0x200 spinSource).labels = [("spin".toList, 0x200)] := by rfl
  obtain ⟨hcommented, hsame⟩ := ((assemble_layout_irrelevant 0x200 _ _).1 3 hdressed).1 _ hrom
  obtain ⟨hsplit, -⟩ := (assemble_layout_irrelevant 0x200 spinSource labelSource).2 [] _ _ _ _ hlines
    (lines_joined rfl) splits_spin _ hrom
  obtain ⟨r, hr, hkind⟩ : ∃ r, (assemble (-2) spinSource).rom = .error (.error r) ∧
      r.kind = .operandFormat := ⟨_, rfl, rfl⟩
  obtain ⟨m, above, raw, below, above', raw', below', -, -, -, -, -, hmoved⟩ :=
    ((assemble_layout_irrelevant (-2) _ _).1 3 hdressed).2.1 r hr
  exact ⟨hcommented, hsame.trans hlabels, hsplit, _, hmoved, hkind⟩

end Spinning

end Chip8
