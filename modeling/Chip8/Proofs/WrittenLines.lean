import Chip8.Proofs.SourceLayout

namespace Chip8.Assembly

open Text

def isPlain (c : Char) : Bool := 0x21 ≤ c.toNat && c.toNat ≤ 0x7E && c != ',' && c != ';'

def isLineChar (c : Char) : Bool := isPlain c || c == ',' || c == ' '

structure Trimmed (t : Text) : Prop where
  head : ∀ c ∈ t.head?, isBlank c = false
  last : ∀ c ∈ t.getLast?, isBlank c = false

structure Plain (t : Text) : Prop where
  nonempty : t ≠ []
  plain : ∀ c ∈ t, isPlain c = true

def written (item : Item) (texts : List Text) : Text :=
  if texts = [] then item.name.toList
  else item.name.toList ++ ' ' :: [',', ' '].intercalate texts

theorem isPlain_iff {c : Char} :
    isPlain c = true ↔ (0x21 ≤ c.toNat ∧ c.toNat ≤ 0x7E) ∧ c ≠ ',' ∧ c ≠ ';' := by
  simp [isPlain, and_assoc]

theorem not_isBlank_of_isPlain {c : Char} (h : isPlain c = true) : isBlank c = false := by
  obtain ⟨hc, -⟩ := isPlain_iff.mp h
  simp only [isBlank, Bool.or_eq_false_iff, Bool.and_eq_false_iff, decide_eq_false_iff_not,
    beq_eq_false_iff_ne]
  omega

theorem isLineChar_of_isPlain {c : Char} (h : isPlain c = true) : isLineChar c = true := by
  simp [isLineChar, h]

theorem not_isBreak_of_isLineChar {c : Char} (h : isLineChar c = true) : isBreak c = false := by
  have hc : 0x20 ≤ c.toNat ∧ c.toNat ≤ 0x7E := by
    simp only [isLineChar, Bool.or_eq_true, beq_iff_eq] at h
    rcases h with (h | rfl) | rfl
    · obtain ⟨hc, -⟩ := isPlain_iff.mp h
      omega
    · decide
    · decide
  simp only [isBreak, Bool.or_eq_false_iff, Bool.and_eq_false_iff, decide_eq_false_iff_not,
    beq_eq_false_iff_ne]
  omega

theorem ne_semicolon_of_isLineChar {c : Char} (h : isLineChar c = true) : c ≠ ';' := by
  rintro rfl
  revert h
  decide

namespace Trimmed

variable {s t : Text}

theorem trim_eq (h : Trimmed t) : trim t = t := trim_eq_self h.head h.last

theorem stripComment_eq (h : Trimmed t) (plain : ';' ∉ t) : stripComment t = t := by
  rw [stripComment, List.takeWhile_eq_self_iff.mpr (decide_ne_of_not_mem plain), h.trim_eq]

theorem append (hs : Trimmed s) (ht : Trimmed t) (hsne : s ≠ []) (htne : t ≠ []) (u : Text) :
    Trimmed (s ++ u ++ t) where
  head c hc := by
    obtain ⟨d, s, rfl⟩ := List.exists_cons_of_ne_nil hsne
    exact hs.head c hc
  last c hc := by
    rw [List.getLast?_append_of_ne_nil _ htne] at hc
    exact ht.last c hc

end Trimmed

theorem Plain.trimmed {t : Text} (h : Plain t) : Trimmed t where
  head c hc := not_isBlank_of_isPlain (h.plain c (List.mem_of_mem_head? hc))
  last c hc := not_isBlank_of_isPlain (h.plain c (List.mem_of_mem_getLast? hc))

theorem Plain.trim_eq {t : Text} (h : Plain t) : trim t = t := h.trimmed.trim_eq

section Operands

variable {texts : List Text}

theorem intercalate_ne_nil (h : ∀ t ∈ texts, Plain t) (hne : texts ≠ []) :
    [',', ' '].intercalate texts ≠ [] := by
  cases texts with
  | nil => exact absurd rfl hne
  | cons t ts =>
    have ht := (h t (by simp)).nonempty
    cases ts with
    | nil => rwa [List.intercalate_singleton]
    | cons u us => simp [List.intercalate_cons_cons, ht]

theorem isLineChar_of_mem_intercalate (h : ∀ t ∈ texts, Plain t) :
    ∀ c ∈ [',', ' '].intercalate texts, isLineChar c = true := by
  induction texts with
  | nil => simp
  | cons t ts ih =>
    have ht : ∀ c ∈ t, isLineChar c = true :=
      fun c hc => isLineChar_of_isPlain ((h t (by simp)).plain c hc)
    have ih := ih (fun u hu => h u (by simp [hu]))
    cases ts with
    | nil => rwa [List.intercalate_singleton]
    | cons u us =>
      rw [List.intercalate_cons_cons]
      simp only [List.forall_mem_append, List.forall_mem_cons]
      exact ⟨⟨ht, rfl, rfl, by simp⟩, ih⟩

theorem trimmed_intercalate (h : ∀ t ∈ texts, Plain t) :
    Trimmed ([',', ' '].intercalate texts) := by
  induction texts with
  | nil => exact ⟨by simp, by simp⟩
  | cons t ts ih =>
    have ht := h t (by simp)
    have hts : ∀ u ∈ ts, Plain u := fun u hu => h u (by simp [hu])
    cases ts with
    | nil =>
      rw [List.intercalate_singleton]
      exact ht.trimmed
    | cons u us =>
      rw [List.intercalate_cons_cons]
      exact ht.trimmed.append (ih hts) ht.nonempty (intercalate_ne_nil hts (by simp)) _

theorem map_trim_pieces_cons {p : Char → Bool} {c : Char} (hc : p c = false)
    (hb : isBlank c = true) (t : Text) : (pieces p (c :: t)).map trim = (pieces p t).map trim := by
  have htrim (w : Text) : trim (c :: w) = trim w := by simp [trim, trimStart, hb]
  rw [pieces, if_neg (by simp [hc])]
  cases h : pieces p t with
  | nil => exact absurd h (pieces_ne_nil p t)
  | cons w ws => rw [List.map_cons, List.map_cons, htrim]

theorem map_trim_pieces_intercalate (h : ∀ t ∈ texts, Plain t) (hne : texts ≠ []) :
    (pieces (· == ',') ([',', ' '].intercalate texts)).map trim = texts := by
  induction texts with
  | nil => exact absurd rfl hne
  | cons t ts ih =>
    have ht := h t (by simp)
    have hcomma : ∀ c ∈ t, (c == ',') = false := by
      intro c hc
      obtain ⟨-, hne, -⟩ := isPlain_iff.mp (ht.plain c hc)
      simpa using hne
    cases ts with
    | nil =>
      rw [List.intercalate_singleton, pieces_of_forall_not hcomma, List.map_singleton,
        ht.trim_eq]
    | cons u us =>
      have ih := ih (fun v hv => h v (by simp [hv])) (by simp)
      rw [List.intercalate_cons_cons, List.append_assoc, List.cons_append,
        pieces_append_cons _ hcomma (by rfl), List.map_cons, ht.trim_eq]
      rw [List.cons_append, List.nil_append, map_trim_pieces_cons (by rfl) (by rfl), ih]

theorem splitOperands_intercalate (h : ∀ t ∈ texts, Plain t) :
    splitOperands ([',', ' '].intercalate texts) = .ok texts := by
  by_cases hne : texts = []
  · rw [hne]
    rfl
  · have hempty : texts.any List.isEmpty = false := by
      rw [List.any_eq_false]
      intro t ht
      simpa using (h t ht).nonempty
    rw [splitOperands, if_neg (intercalate_ne_nil h hne)]
    simp only [map_trim_pieces_intercalate h hne, hempty, Bool.false_eq_true, if_false]

end Operands

structure Names (name : Text) (item : Item) : Prop where
  nonempty : name ≠ []
  letters : name.all Char.isAlpha = true
  plain : name.all isPlain = true
  undirected : (lowerAscii name == "option".toList) = false
  known : Item.ofName name = some item

theorem names_name (item : Item) : Names item.name.toList item := by
  cases item with
  | instruction m => cases m <;> exact ⟨by decide, rfl, rfl, rfl, rfl⟩
  | word => exact ⟨by decide, rfl, rfl, rfl, rfl⟩
  | bits => exact ⟨by decide, rfl, rfl, rfl, rfl⟩

theorem plain_name (item : Item) : Plain item.name.toList :=
  ⟨(names_name item).nonempty, List.all_eq_true.mp (names_name item).plain⟩

section Written

variable {item : Item} {texts : List Text}

theorem isLineChar_of_mem_written (h : ∀ t ∈ texts, Plain t) :
    ∀ c ∈ written item texts, isLineChar c = true := by
  have hname : ∀ c ∈ item.name.toList, isLineChar c = true :=
    fun c hc => isLineChar_of_isPlain ((plain_name item).plain c hc)
  unfold written
  split_ifs with hne
  · exact hname
  · simp only [List.forall_mem_append, List.forall_mem_cons]
    exact ⟨hname, rfl, isLineChar_of_mem_intercalate h⟩

theorem trimmed_written (h : ∀ t ∈ texts, Plain t) : Trimmed (written item texts) := by
  have hname := plain_name item
  unfold written
  split_ifs with hne
  · exact hname.trimmed
  · have happend := hname.trimmed.append (trimmed_intercalate h) hname.nonempty
      (intercalate_ne_nil h hne) [' ']
    rwa [List.append_assoc] at happend

theorem written_ne_nil : written item texts ≠ [] := by
  have hname := (names_name item).nonempty
  unfold written
  split_ifs
  · exact hname
  · simp

theorem stripComment_written (h : ∀ t ∈ texts, Plain t) :
    stripComment (written item texts) = written item texts :=
  (trimmed_written h).stripComment_eq fun hc =>
    ne_semicolon_of_isLineChar (isLineChar_of_mem_written h _ hc) rfl

theorem words_written : (words (written item texts)).head? = some item.name.toList := by
  have hname := plain_name item
  have hblank : ∀ c ∈ item.name.toList, isBlank c = false :=
    fun c hc => not_isBlank_of_isPlain (hname.plain c hc)
  unfold written
  split_ifs
  · have hwords : (words (item.name.toList ++ [])).head? = some item.name.toList :=
      head?_words hname.nonempty hblank (by simp)
    rwa [List.append_nil] at hwords
  · exact head?_words hname.nonempty hblank (by simp [isBlank])

theorem splitLabel_written : splitLabel (written item texts) = none := by
  have hword : ∀ c ∈ item.name.toList, isWordChar c = true := by
    intro c hc
    have halpha := List.all_eq_true.mp (names_name item).letters c hc
    simp [isWordChar, Char.isAlphanum, halpha]
  unfold splitLabel written
  by_cases hne : texts = []
  · rw [if_pos hne, List.dropWhile_eq_nil_iff.mpr hword]
  · rw [if_neg hne, List.dropWhile_append_of_pos hword, List.dropWhile_cons_of_neg (by decide)]
    simp

theorem splitStatement_written (h : ∀ t ∈ texts, Plain t) :
    splitStatement (written item texts) =
      some (item.name.toList, [',', ' '].intercalate texts) := by
  have hname := names_name item
  have halpha : ∀ c ∈ item.name.toList, c.isAlpha = true := List.all_eq_true.mp hname.letters
  obtain ⟨d, ds, hd⟩ := List.exists_cons_of_ne_nil hname.nonempty
  unfold splitStatement written
  split_ifs with hne
  · rw [List.takeWhile_eq_self_iff.mpr halpha, List.dropWhile_eq_nil_iff.mpr halpha, hd, hne]
    rfl
  · rw [List.takeWhile_append_of_pos halpha, List.dropWhile_append_of_pos halpha,
      List.takeWhile_cons_of_neg (by decide), List.dropWhile_cons_of_neg (by decide),
      List.append_nil, hd]
    simp only [show isBlank ' ' = true from rfl, if_true, (trimmed_intercalate h).trim_eq]

theorem readLine_written (h : ∀ t ∈ texts, Plain t) :
    readLine (written item texts) = ⟨none, .ok (some (item, [',', ' '].intercalate texts))⟩ := by
  have hname := names_name item
  have hdirective : isDirective? (written item texts) ≠ some true := by
    rw [isDirective?, words_written, Option.map_some, hname.undirected]
    decide
  have hstatement : readStatement (written item texts) =
      .ok (item, [',', ' '].intercalate texts) := by
    simp only [readStatement, splitStatement_written h, hname.known]
  simp only [readLine, stripComment_written h, written_ne_nil, hdirective, or_self, if_false,
    splitLabel_written, hstatement]
  rfl

end Written

inductive Writes (raw : Text) (bytes : List UInt8) : Prop
  | intro {item : Item} {operands : Text} {texts : List Text}
    (line : readLine raw = ⟨none, .ok (some (item, operands))⟩)
    (split : splitOperands operands = .ok texts) (count : texts.length = item.operandCount)
    (emits : Emits [] item texts bytes)

theorem writes_written {item : Item} {texts : List Text} {bytes : List UInt8}
    (h : ∀ t ∈ texts, Plain t) (hcount : texts.length = item.operandCount)
    (he : Emits [] item texts bytes) : Writes (written item texts) bytes :=
  ⟨readLine_written h, splitOperands_intercalate h, hcount, he⟩

theorem held_of_readLine {raw : Text} {label : Option Text} {content : Option (Item × Text)}
    (h : readLine raw = ⟨label, .ok content⟩) : held raw = content := by
  simp only [held, h, Except.toOption, Option.join_some]

theorem Writes.content {raw : Text} {bytes : List UInt8} (h : Writes raw bytes) :
    (readLine raw).label = none ∧ (readLine raw).content = .ok (held raw) := by
  obtain ⟨hline, -, -, -⟩ := h
  rw [held_of_readLine hline, hline]
  exact ⟨rfl, rfl⟩

theorem bytes_statementsFrom {lines : List Text} {chunks : List (List UInt8)}
    (h : List.Forall₂ Writes lines chunks) (address : Int) (number : Nat) :
    List.Forall₂ (fun s bytes => s.bytes [] = .ok bytes) (statementsFrom address number lines)
      chunks := by
  induction h generalizing address number with
  | nil => exact .nil
  | cons hw _ ih =>
    obtain ⟨hline, hsplit, hcount, he⟩ := hw
    rw [statementsFrom_some (held_of_readLine hline)]
    exact .cons (Statement.bytes_eq_ok.mpr ⟨_, hsplit, hcount, he⟩) (ih _ _)

end Chip8.Assembly

namespace Chip8

open Assembly

theorem assemble_of_writes {source : Text} {chunks : List (List UInt8)} (origin : Int)
    (h : List.Forall₂ Writes (Text.lines source) chunks) :
    (assemble origin source).rom = .ok chunks.flatten := by
  have hheld : ∀ raw ∈ Text.lines source,
      (readLine raw).label = none ∧ (readLine raw).content = .ok (held raw) := by
    intro raw hraw
    obtain ⟨i, hi, rfl⟩ := List.getElem_of_mem hraw
    exact (h.get hi (h.length_eq ▸ hi)).content
  have hnames : definedNames (Text.lines source) = [] :=
    List.filterMap_eq_nil_iff.mpr fun raw hraw => (hheld raw hraw).1
  have hlabels : labelsFrom origin (Text.lines source) = [] :=
    List.map_eq_nil_iff.mp ((map_fst_labelsFrom _ _).trans hnames)
  refine assemble_eq_ok_iff.mpr ⟨⟨fun raw hraw => (hheld raw hraw).2, ?_⟩, ?_⟩
  · rw [hnames]
    exact List.nodup_nil
  · rw [hlabels]
    exact emit_eq_ok.mpr ⟨chunks, bytes_statementsFrom h origin 1, rfl⟩

theorem assemble_written (origin : Int) {item : Item} {texts : List Text}
    (h : ∀ t ∈ texts, Plain t) : (assemble origin (written item texts)).rom =
      (emit [] [⟨1, written item texts, item, [',', ' '].intercalate texts, origin⟩]).2 := by
  have hline : readLine (written item texts) =
      ⟨none, .ok (some (item, [',', ' '].intercalate texts))⟩ := readLine_written h
  have hlines : Text.lines (written item texts) = [written item texts] := by
    apply Text.lines_of_forall_not written_ne_nil
    exact fun c hc => not_isBreak_of_isLineChar (isLineChar_of_mem_written h c hc)
  have hplaceable : Placeable (Text.lines (written item texts)) := by
    rw [hlines]
    simp [Placeable, definedNames, hline, held_of_readLine hline]
  have hlabels : labelsFrom origin [written item texts] = [] := by
    simp [labelsFrom, hline]
  rw [(assemble_of_placeable hplaceable _).2.2, hlines, hlabels,
    statementsFrom_some (held_of_readLine hline)]
  rfl

end Chip8
