import Chip8.Proofs.WrittenLines

namespace Chip8.Assembly

open Text

inductive Separates (field : Text) : List Text → Prop
  | intro {parts : List Text} (nonempty : parts ≠ []) (whole : ∀ part ∈ parts, ',' ∉ part)
    (joined : field = [','].intercalate parts) (filled : ∀ part ∈ parts, trim part ≠ []) :
    Separates field (parts.map trim)

inductive States (t : Text) : Item → List Text → Prop
  | bare {item : Item} (name : t.map Char.toUpper = item.name.toList) : States t item []
  | operands {item : Item} {word field : Text} {c : Char} {operands : List Text}
    (split : t = word ++ c :: field) (name : word.map Char.toUpper = item.name.toList)
    (blank : isBlank c = true) (separates : Separates field operands) : States t item operands

structure Reading where
  label : Option Text
  statement : Option (Item × List Text)

/-- The lines of the language, whatever operands they have: after its comment and the blanks around
it are cut, a line is empty, or starts with the word `option` in letters of either case, or has a
label, a statement or both. -/
inductive Reads (raw : Text) : Reading → Prop
  | empty (cut : stripComment raw = []) : Reads raw ⟨none, none⟩
  | directive {word rest : Text} (split : stripComment raw = word ++ rest)
    (name : word.map Char.toLower = "option".toList) (ends : ∀ c ∈ rest.head?, isBlank c = true) :
    Reads raw ⟨none, none⟩
  | statement {item : Item} {operands : List Text}
    (states : States (stripComment raw) item operands) : Reads raw ⟨none, some (item, operands)⟩
  | label {name rest : Text} (split : stripComment raw = name ++ ':' :: rest)
    (named : isName name = true) (blank : trim rest = []) : Reads raw ⟨some name, none⟩
  | labelled {name rest : Text} {item : Item} {operands : List Text}
    (split : stripComment raw = name ++ ':' :: rest) (named : isName name = true)
    (states : States (trim rest) item operands) : Reads raw ⟨some name, some (item, operands)⟩

theorem trimmed_trim (t : Text) : Trimmed (trim t) :=
  ⟨fun _ hc => not_isBlank_head?_trim hc, fun _ hc => not_isBlank_getLast?_trim hc⟩

section Operands

theorem separates_iff {field : Text} {operands : List Text} : Separates field operands ↔
    operands = (pieces (· == ',') field).map trim ∧ ∀ t ∈ operands, t ≠ [] := by
  have hsplit : pieces (· == ',') field = field.splitOn ',' := by
    rw [pieces_eq_splitOnP, List.splitOn_eq_splitOnP]
  constructor
  · rintro ⟨hne, hwhole, rfl, hfilled⟩
    rw [hsplit, List.splitOn_intercalate ',' hwhole hne]
    exact ⟨rfl, by simpa using hfilled⟩
  · rintro ⟨rfl, hfilled⟩
    refine .intro (pieces_ne_nil _ _) ?_ ?_ (by simpa using hfilled)
    · intro part hpart hcomma
      have hnot := not_of_mem_pieces hpart ',' hcomma
      simp at hnot
    · rw [hsplit, List.intercalate_splitOn]

theorem splitOperands_eq_ok {t : Text} (ht : t ≠ []) {operands : List Text} :
    splitOperands t = .ok operands ↔ Separates t operands := by
  rw [splitOperands, if_neg ht, separates_iff]
  by_cases hempty : ((pieces (· == ',') t).map trim).any List.isEmpty = true
  · simp only [hempty, if_true, reduceCtorEq, false_iff, not_and]
    rintro rfl hfilled
    obtain ⟨u, hu, hnil⟩ := List.any_eq_true.mp hempty
    exact hfilled u hu (List.isEmpty_iff.mp hnil)
  · simp only [hempty, Bool.false_eq_true, if_false, Except.ok.injEq]
    constructor
    · rintro rfl
      refine ⟨rfl, fun u hu hnil => hempty ?_⟩
      exact List.any_eq_true.mpr ⟨u, hu, List.isEmpty_iff.mpr hnil⟩
    · rintro ⟨rfl, -⟩
      rfl

theorem map_trim_pieces_trimStart {p : Char → Bool} (hp : ∀ c, isBlank c = true → p c = false)
    (t : Text) : (pieces p (trimStart t)).map trim = (pieces p t).map trim := by
  induction t with
  | nil => rfl
  | cons c t ih =>
    cases hc : isBlank c with
    | true =>
      rw [map_trim_pieces_cons (hp c hc) hc, ← ih, trimStart, List.dropWhile_cons_of_pos hc]
      rfl
    | false => rw [trimStart, List.dropWhile_cons_of_neg (by simp [hc])]

theorem separates_trimStart {field : Text} {operands : List Text} :
    Separates (trimStart field) operands ↔ Separates field operands := by
  have hcomma : ∀ c, isBlank c = true → (c == ',') = false := by
    intro c hc
    simpa using ne_of_isBlank (show isBlank ',' = false from rfl) hc
  rw [separates_iff, separates_iff, map_trim_pieces_trimStart hcomma]

end Operands

section Statements

theorem isWordChar_of_isAlpha {c : Char} (h : c.isAlpha = true) : isWordChar c = true := by
  simp [isWordChar, Char.isAlphanum, h]

theorem lt_of_isAlpha {c : Char} (h : c.isAlpha = true) : c.toNat < 0x80 := by
  rcases Bool.or_eq_true_iff.mp (show (c.isUpper || c.isLower) = true from h) with h | h
  · have hlast : c.val ≤ 'Z'.val := (of_decide_eq_true h).2
    exact Nat.lt_of_le_of_lt (UInt32.le_iff_toNat_le.mp hlast) (by decide)
  · have hlast : c.val ≤ 'z'.val := of_decide_eq_true (Bool.and_eq_true_iff.mp h).2
    exact Nat.lt_of_le_of_lt (UInt32.le_iff_toNat_le.mp hlast) (by decide)

theorem lt_of_isWordChar {c : Char} (h : isWordChar c = true) : c.toNat < 0x80 := by
  simp only [isWordChar, Char.isAlphanum, Bool.or_eq_true, beq_iff_eq] at h
  rcases h with (h | h) | rfl
  · exact lt_of_isAlpha h
  · simp [Char.isDigit, UInt32.le_iff_toNat_le] at h
    omega
  · decide

theorem isAlpha_of_toUpper {c : Char} (h : c.toUpper.isAlpha = true) : c.isAlpha = true := by
  by_cases hlower : 'a'.val ≤ c.val ∧ c.val ≤ 'z'.val
  · have hc : c.isLower = true :=
      Bool.and_eq_true_iff.mpr ⟨decide_eq_true hlower.1, decide_eq_true hlower.2⟩
    exact Bool.or_eq_true_iff.mpr (.inr hc)
  · have hc : c.toUpper = c := dif_neg hlower
    rwa [hc] at h

theorem isAlpha_of_toLower {c : Char} (h : c.toLower.isAlpha = true) : c.isAlpha = true := by
  by_cases hupper : 'A'.val ≤ c.val ∧ c.val ≤ 'Z'.val
  · have hc : c.isUpper = true := decide_eq_true hupper
    exact Bool.or_eq_true_iff.mpr (.inl hc)
  · have hc : c.toLower = c := dif_neg hupper
    rwa [hc] at h

theorem toLower_toUpper_of_isAlpha {c : Char} (h : c.isAlpha = true) :
    c.toUpper.toLower = c.toLower := by
  have hascii : ∀ n < 0x80, (Char.ofNat n).toUpper.toLower = (Char.ofNat n).toLower := by decide
  have hc := hascii c.toNat (lt_of_isAlpha h)
  rwa [Char.ofNat_toNat] at hc

theorem not_isBlank_of_isWordChar {c : Char} (h : isWordChar c = true) : isBlank c = false := by
  have hascii : ∀ n < 0x80, isWordChar (Char.ofNat n) = true → isBlank (Char.ofNat n) = false := by
    decide
  have hc := hascii c.toNat (lt_of_isWordChar h)
  rw [Char.ofNat_toNat] at hc
  exact hc h

theorem trimmed_of_wordChars {w : Text} (h : ∀ c ∈ w, isWordChar c = true) : Trimmed w where
  head c hc := not_isBlank_of_isWordChar (h c (List.mem_of_mem_head? hc))
  last c hc := not_isBlank_of_isWordChar (h c (List.mem_of_mem_getLast? hc))

theorem not_isWordChar_of_isBlank {c : Char} (h : isBlank c = true) : isWordChar c = false := by
  by_contra hc
  rw [not_isBlank_of_isWordChar (by simpa using hc)] at h
  cases h

theorem not_isAlpha_of_isBlank {c : Char} (h : isBlank c = true) : c.isAlpha = false := by
  by_contra hc
  have hword := isWordChar_of_isAlpha (c := c) (by simpa using hc)
  rw [not_isWordChar_of_isBlank h] at hword
  cases hword

theorem upper_eq_map {word : Text} (h : ∀ c ∈ word, c.isAlpha = true) :
    upper word = word.map Char.toUpper := by
  induction word with
  | nil => rfl
  | cons c word ih =>
    have ih := ih (fun d hd => h d (by simp [hd]))
    rw [upper] at ih ⊢
    rw [List.flatMap_cons, ih, upperChar,
      if_pos (lt_of_isWordChar (isWordChar_of_isAlpha (h c (by simp))))]
    rfl

theorem isAlpha_of_named {word : Text} {item : Item}
    (h : word.map Char.toUpper = item.name.toList) : ∀ c ∈ word, c.isAlpha = true := by
  intro c hc
  have hmem : c.toUpper ∈ item.name.toList := h ▸ List.mem_map_of_mem hc
  apply isAlpha_of_toUpper
  exact List.all_eq_true.mp (names_name item).letters _ hmem

theorem ofName_eq_some {word : Text} {item : Item} (h : ∀ c ∈ word, c.isAlpha = true) :
    Item.ofName word = some item ↔ word.map Char.toUpper = item.name.toList := by
  rw [← upper_eq_map h]
  constructor
  · intro hitem
    simp only [Item.ofName] at hitem
    split_ifs at hitem with hword hbits
    · cases hitem
      exact hword
    · cases hitem
      exact hbits
    · obtain ⟨m, hm, rfl⟩ := Option.map_eq_some_iff.mp hitem
      have hname : m.name.toList = upper word := by simpa using List.find?_some hm
      exact hname.symm
  · intro hname
    have hupper : upper item.name.toList = item.name.toList := by
      cases item with
      | instruction m => cases m <;> rfl
      | word => rfl
      | bits => rfl
    have hknown := (names_name item).known
    rw [Item.ofName, Mnemonic.ofName, hupper, ← hname] at hknown
    rw [Item.ofName, Mnemonic.ofName, hknown]

theorem splitStatement_eq_some {t word field : Text} : splitStatement t = some (word, field) ↔
    word ≠ [] ∧ (∀ c ∈ word, c.isAlpha = true) ∧ (t = word ∧ field = [] ∨
      ∃ c rest, t = word ++ c :: rest ∧ isBlank c = true ∧ field = trim rest) := by
  constructor
  · intro h
    have hsplit : t.takeWhile Char.isAlpha ++ t.dropWhile Char.isAlpha = t :=
      List.takeWhile_append_dropWhile
    have hletters : ∀ c ∈ t.takeWhile Char.isAlpha, c.isAlpha = true :=
      fun c hc => List.mem_takeWhile_imp hc
    rw [splitStatement] at h
    generalize t.takeWhile Char.isAlpha = letters at h hsplit hletters
    generalize t.dropWhile Char.isAlpha = rest at h hsplit
    split at h
    · cases h
    · rename_i hne
      cases h
      rw [List.append_nil] at hsplit
      exact ⟨hne, hletters, .inl ⟨hsplit.symm, rfl⟩⟩
    · rename_i c rest hne
      split_ifs at h with hblank
      cases h
      exact ⟨hne, hletters, .inr ⟨c, rest, hsplit.symm, hblank, rfl⟩⟩
  · rintro ⟨hne, hletters, hfield⟩
    obtain ⟨d, ds, rfl⟩ := List.exists_cons_of_ne_nil hne
    rcases hfield with ⟨rfl, rfl⟩ | ⟨c, rest, rfl, hblank, rfl⟩
    · rw [splitStatement, List.takeWhile_eq_self_iff.mpr hletters,
        List.dropWhile_eq_nil_iff.mpr hletters]
    · have hrest : ∀ c' ∈ (c :: rest).head?, c'.isAlpha = false := by
        rintro c' ⟨⟩
        exact not_isAlpha_of_isBlank hblank
      obtain ⟨htake, hdrop⟩ := span_append hletters hrest
      rw [splitStatement, htake, hdrop]
      exact if_pos hblank

theorem readStatement_eq_ok {t field : Text} {item : Item} :
    readStatement t = .ok (item, field) ↔
      ∃ word, splitStatement t = some (word, field) ∧ Item.ofName word = some item := by
  rw [readStatement]
  constructor
  · intro h
    split at h
    · cases h
    · rename_i word field' hsplit
      split at h
      · cases h
      · rename_i item' hitem
        cases h
        exact ⟨word, hsplit, hitem⟩
  · rintro ⟨word, hsplit, hitem⟩
    simp only [hsplit, hitem]

theorem trim_of_last {t : Text} (h : ∀ c ∈ t.getLast?, isBlank c = false) :
    trim t = trimStart t := by
  apply trimEnd_eq_self
  intro c hc
  have hne : t.dropWhile isBlank ≠ [] := by
    intro hnil
    rw [trimStart, hnil] at hc
    cases hc
  apply h
  rwa [← List.takeWhile_append_dropWhile (p := isBlank) (l := t),
    List.getLast?_append_of_ne_nil _ hne]

theorem trim_ne_nil {t : Text} (hne : t ≠ []) (h : ∀ c ∈ t.getLast?, isBlank c = false) :
    trim t ≠ [] := by
  rw [trim_of_last h]
  intro hnil
  have hblank := List.dropWhile_eq_nil_iff.mp hnil (t.getLast hne) (List.getLast_mem hne)
  rw [h _ (List.getLast?_eq_some_getLast hne)] at hblank
  cases hblank

theorem ne_nil_of_named {word : Text} {item : Item} (h : word.map Char.toUpper = item.name.toList) :
    word ≠ [] := by
  rintro rfl
  exact (names_name item).nonempty h.symm

section Stated

variable {t word field : Text} {c : Char} {item : Item} {operands : List Text}

theorem splitOperands_trim_eq_ok (ht : Trimmed t) (hsplit : t = word ++ c :: field)
    (hblank : isBlank c = true) :
    splitOperands (trim field) = .ok operands ↔ Separates field operands := by
  have hlast := ht.last
  rw [hsplit, List.getLast?_append_of_ne_nil _ (List.cons_ne_nil _ _)] at hlast
  have hne : field ≠ [] := by
    rintro rfl
    rw [hlast c rfl] at hblank
    cases hblank
  rw [List.getLast?_cons_of_ne_nil hne] at hlast
  rw [splitOperands_eq_ok (trim_ne_nil hne hlast), trim_of_last hlast, separates_trimStart]

theorem states_iff (ht : Trimmed t) : States t item operands ↔
    ∃ field, readStatement t = .ok (item, field) ∧ splitOperands field = .ok operands := by
  simp only [readStatement_eq_ok, splitStatement_eq_some]
  constructor
  · intro h
    cases h with
    | bare name =>
      have hletters := isAlpha_of_named name
      exact ⟨[], ⟨t, ⟨ne_nil_of_named name, hletters, .inl ⟨rfl, rfl⟩⟩,
        (ofName_eq_some hletters).mpr name⟩, rfl⟩
    | @operands word field c operands split name blank separates =>
      have hletters := isAlpha_of_named name
      exact ⟨trim field, ⟨word, ⟨ne_nil_of_named name, hletters,
        .inr ⟨c, field, split, blank, rfl⟩⟩, (ofName_eq_some hletters).mpr name⟩,
        (splitOperands_trim_eq_ok ht split blank).mpr separates⟩
  · rintro ⟨field, ⟨word, ⟨-, hletters, ⟨rfl, rfl⟩ | ⟨c, rest, hsplit, hblank, rfl⟩⟩, hitem⟩, hok⟩
    · cases hok
      exact .bare ((ofName_eq_some hletters).mp hitem)
    · exact .operands hsplit ((ofName_eq_some hletters).mp hitem) hblank
        ((splitOperands_trim_eq_ok ht hsplit hblank).mp hok)

end Stated

end Statements

section Lines

theorem isWordChar_of_isName {name : Text} (h : isName name = true) :
    ∀ c ∈ name, isWordChar c = true := by
  cases name with
  | nil => cases h
  | cons c t =>
    simp only [isName, isNameStart, Bool.and_eq_true, Bool.or_eq_true, List.all_eq_true] at h
    obtain ⟨hc, ht⟩ := h
    rintro d hd
    rcases List.mem_cons.mp hd with rfl | hd
    · rcases hc with hc | hc
      · exact isWordChar_of_isAlpha hc
      · simp [isWordChar, hc]
    · exact ht d hd

theorem splitLabel_eq_some {t name content : Text} : splitLabel t = some (name, content) ↔
    ∃ rest, t = name ++ ':' :: rest ∧ isName name = true ∧ content = trim rest := by
  constructor
  · intro h
    have hsplit : t.takeWhile isWordChar ++ t.dropWhile isWordChar = t :=
      List.takeWhile_append_dropWhile
    rw [splitLabel] at h
    split at h
    · rename_i rest hrest
      split_ifs at h with hname
      cases h
      exact ⟨rest, by rw [← hrest, hsplit], hname, rfl⟩
    · cases h
  · rintro ⟨rest, rfl, hname, rfl⟩
    have hcolon : ∀ c ∈ (':' :: rest).head?, isWordChar c = false := by
      rintro c ⟨⟩
      rfl
    obtain ⟨htake, hdrop⟩ := span_append (isWordChar_of_isName hname) hcolon
    rw [splitLabel, hdrop, htake]
    exact if_pos hname

theorem splitLabel_of_word {word rest : Text} (hword : ∀ c ∈ word, isWordChar c = true)
    (hrest : ∀ c ∈ rest.head?, isBlank c = true) : splitLabel (word ++ rest) = none := by
  obtain ⟨-, hdrop⟩ := span_append hword (fun c hc => not_isWordChar_of_isBlank (hrest c hc))
  rw [splitLabel, hdrop]
  split
  · exact absurd (hrest ':' rfl) (by decide)
  · rfl

theorem isAlpha_of_directive {word : Text} (h : word.map Char.toLower = "option".toList) :
    ∀ c ∈ word, c.isAlpha = true := by
  intro c hc
  have hmem : c.toLower ∈ "option".toList := h ▸ List.mem_map_of_mem hc
  have hletters : "option".toList.all Char.isAlpha = true := rfl
  apply isAlpha_of_toLower
  exact List.all_eq_true.mp hletters _ hmem

theorem isDirective?_eq_some_true {t : Text} (ht : Trimmed t) : isDirective? t = some true ↔
    ∃ word rest, t = word ++ rest ∧ word.map Char.toLower = "option".toList ∧
      ∀ c ∈ rest.head?, isBlank c = true := by
  constructor
  · intro h
    have hne : t ≠ [] := by
      rintro rfl
      cases h
    have hsplit : t.takeWhile (!isBlank ·) ++ t.dropWhile (!isBlank ·) = t :=
      List.takeWhile_append_dropWhile
    have hword : ∀ c ∈ t.takeWhile (!isBlank ·), isBlank c = false := by
      intro c hc
      simpa using List.mem_takeWhile_imp hc
    have hrest : ∀ c ∈ (t.dropWhile (!isBlank ·)).head?, isBlank c = true := by
      intro c hc
      have hd := List.head?_dropWhile_not (!isBlank ·) t
      rw [hc] at hd
      simpa using hd
    have hhead : t.takeWhile (!isBlank ·) ≠ [] := by
      obtain ⟨c, u, rfl⟩ := List.exists_cons_of_ne_nil hne
      rw [List.takeWhile_cons_of_pos (by simp [ht.head c rfl])]
      exact List.cons_ne_nil _ _
    have hfirst := head?_words hhead hword hrest
    rw [hsplit] at hfirst
    rw [isDirective?, hfirst, Option.map_some, Option.some.injEq, beq_iff_eq] at h
    exact ⟨_, _, hsplit.symm, h, hrest⟩
  · rintro ⟨word, rest, rfl, hname, hrest⟩
    have hletters := isAlpha_of_directive hname
    have hblank : ∀ c ∈ word, isBlank c = false :=
      fun c hc => not_isBlank_of_isWordChar (isWordChar_of_isAlpha (hletters c hc))
    have hne : word ≠ [] := by
      rintro rfl
      cases hname
    rw [isDirective?, head?_words hne hblank hrest, Option.map_some, lowerAscii, hname]
    rfl

theorem not_directive_of_label {name rest : Text} (hname : isName name = true)
    (ht : Trimmed (name ++ ':' :: rest)) : isDirective? (name ++ ':' :: rest) ≠ some true := by
  intro h
  obtain ⟨word, tail, hsplit, hword, htail⟩ := (isDirective?_eq_some_true ht).mp h
  have hcolon : ∀ c ∈ (':' :: rest).head?, isWordChar c = false := by
    rintro c ⟨⟩
    rfl
  obtain ⟨-, hrest⟩ := span_append (isWordChar_of_isName hname) hcolon
  obtain ⟨-, htail'⟩ := span_append (p := isWordChar)
    (fun c hc => isWordChar_of_isAlpha (isAlpha_of_directive hword c hc))
    (fun c hc => not_isWordChar_of_isBlank (htail c hc))
  rw [← hsplit, hrest] at htail'
  exact absurd (htail ':' (by rw [← htail']; rfl)) (by decide)

section Stated

variable {t : Text} {item : Item} {operands : List Text}

theorem States.first (h : States t item operands) : ∃ word rest, t = word ++ rest ∧
    word.map Char.toUpper = item.name.toList ∧ ∀ c ∈ rest.head?, isBlank c = true := by
  cases h with
  | bare name => exact ⟨t, [], (List.append_nil t).symm, name, by simp⟩
  | operands split name blank =>
    refine ⟨_, _, split, name, ?_⟩
    rintro c ⟨⟩
    exact blank

theorem States.ne_nil (h : States t item operands) : t ≠ [] := by
  obtain ⟨word, rest, rfl, hname, -⟩ := h.first
  intro hnil
  exact ne_nil_of_named hname (List.append_eq_nil_iff.mp hnil).1

theorem States.not_directive (h : States t item operands) (ht : Trimmed t) :
    isDirective? t ≠ some true := by
  intro hd
  obtain ⟨word, rest, hsplit, hname, hrest⟩ := h.first
  obtain ⟨word', rest', hsplit', hname', hrest'⟩ := (isDirective?_eq_some_true ht).mp hd
  have hletters := isAlpha_of_named hname
  obtain ⟨htake, -⟩ := span_append hletters (fun c hc => not_isAlpha_of_isBlank (hrest c hc))
  obtain ⟨htake', -⟩ := span_append (isAlpha_of_directive hname')
    (fun c hc => not_isAlpha_of_isBlank (hrest' c hc))
  rw [← hsplit'] at htake'
  rw [← hsplit, htake'] at htake
  subst htake
  have hlower : lowerAscii item.name.toList = "option".toList := by
    rw [← hname, ← hname', lowerAscii, List.map_map]
    exact List.map_congr_left fun c hc => toLower_toUpper_of_isAlpha (hletters c hc)
  have hundirected := (names_name item).undirected
  rw [hlower] at hundirected
  exact absurd hundirected (by decide)

theorem States.splitLabel_eq (h : States t item operands) : splitLabel t = none := by
  obtain ⟨word, rest, rfl, hname, hrest⟩ := h.first
  exact splitLabel_of_word (fun c hc => isWordChar_of_isAlpha (isAlpha_of_named hname c hc)) hrest

end Stated

inductive Line.Says : Line → Reading → Prop
  | nothing {label : Option Text} : Line.Says ⟨label, .ok none⟩ ⟨label, none⟩
  | statement {label : Option Text} {item : Item} {field : Text} {operands : List Text}
    (split : splitOperands field = .ok operands) :
    Line.Says ⟨label, .ok (some (item, field))⟩ ⟨label, some (item, operands)⟩

theorem says_of_states {t : Text} {item : Item} {operands : List Text} (ht : Trimmed t)
    (h : States t item operands) (label : Option Text) :
    Line.Says ⟨label, (readStatement t).map some⟩ ⟨label, some (item, operands)⟩ := by
  obtain ⟨field, hread, hsplit⟩ := (states_iff ht).mp h
  rw [hread]
  exact .statement hsplit

theorem exists_states {t : Text} {label : Option Text} {r : Reading} (ht : Trimmed t)
    (h : Line.Says ⟨label, (readStatement t).map some⟩ r) :
    ∃ item operands, States t item operands ∧ r = ⟨label, some (item, operands)⟩ := by
  cases hread : readStatement t with
  | error fault =>
    rw [hread] at h
    cases h
  | ok content =>
    rw [hread] at h
    cases h with
    | statement split => exact ⟨_, _, (states_iff ht).mpr ⟨_, hread, split⟩, rfl⟩

theorem readLine_of_skipped {raw : Text}
    (h : stripComment raw = [] ∨ isDirective? (stripComment raw) = some true) :
    readLine raw = ⟨none, .ok none⟩ := by
  simp only [readLine, if_pos h]

theorem readLine_of_label {raw name content : Text}
    (h : ¬(stripComment raw = [] ∨ isDirective? (stripComment raw) = some true))
    (hlabel : splitLabel (stripComment raw) = some (name, content)) :
    readLine raw = if content = [] then ⟨some name, .ok none⟩
      else ⟨some name, (readStatement content).map some⟩ := by
  simp only [readLine, if_neg h, hlabel]
  cases content with
  | nil => rfl
  | cons c content => rfl

theorem readLine_of_unlabelled {raw : Text}
    (h : ¬(stripComment raw = [] ∨ isDirective? (stripComment raw) = some true))
    (hlabel : splitLabel (stripComment raw) = none) :
    readLine raw = ⟨none, (readStatement (stripComment raw)).map some⟩ := by
  simp only [readLine, if_neg h, hlabel]

theorem readLine_of_name {raw name rest : Text} (hsplit : stripComment raw = name ++ ':' :: rest)
    (hname : isName name = true) : readLine raw = if trim rest = [] then ⟨some name, .ok none⟩
      else ⟨some name, (readStatement (trim rest)).map some⟩ := by
  have ht : Trimmed (stripComment raw) := trimmed_trim _
  apply readLine_of_label
  · rintro (hempty | hdirective)
    · rw [hsplit] at hempty
      exact absurd hempty (by simp)
    · rw [hsplit] at ht hdirective
      exact not_directive_of_label hname ht hdirective
  · exact splitLabel_eq_some.mpr ⟨rest, hsplit, hname, rfl⟩

theorem readLine_of_states {raw : Text} {item : Item} {operands : List Text}
    (h : States (stripComment raw) item operands) :
    readLine raw = ⟨none, (readStatement (stripComment raw)).map some⟩ := by
  apply readLine_of_unlabelled
  · rintro (hempty | hdirective)
    · exact h.ne_nil hempty
    · exact h.not_directive (trimmed_trim _) hdirective
  · exact h.splitLabel_eq

theorem says_of_reads {raw : Text} {r : Reading} (h : Reads raw r) : (readLine raw).Says r := by
  have ht : Trimmed (stripComment raw) := trimmed_trim _
  cases h with
  | empty cut =>
    rw [readLine_of_skipped (.inl cut)]
    exact .nothing
  | directive split name ends =>
    have hdirective := (isDirective?_eq_some_true ht).mpr ⟨_, _, split, name, ends⟩
    rw [readLine_of_skipped (.inr hdirective)]
    exact .nothing
  | statement states =>
    rw [readLine_of_states states]
    exact says_of_states ht states none
  | label split named blank =>
    rw [readLine_of_name split named, if_pos blank]
    exact .nothing
  | labelled split named states =>
    rw [readLine_of_name split named, if_neg states.ne_nil]
    exact says_of_states (trimmed_trim _) states _

theorem reads_of_readLine {raw : Text} {r : Reading} (h : (readLine raw).Says r) : Reads raw r := by
  have ht : Trimmed (stripComment raw) := trimmed_trim _
  by_cases hskip : stripComment raw = [] ∨ isDirective? (stripComment raw) = some true
  · rw [readLine_of_skipped hskip] at h
    cases h
    rcases hskip with hempty | hdirective
    · exact .empty hempty
    · obtain ⟨word, rest, hsplit, hname, hrest⟩ := (isDirective?_eq_some_true ht).mp hdirective
      exact .directive hsplit hname hrest
  · cases hlabel : splitLabel (stripComment raw) with
    | none =>
      rw [readLine_of_unlabelled hskip hlabel] at h
      obtain ⟨item, operands, hstates, rfl⟩ := exists_states ht h
      exact .statement hstates
    | some p =>
      obtain ⟨name, content⟩ := p
      obtain ⟨rest, hsplit, hname, rfl⟩ := splitLabel_eq_some.mp hlabel
      rw [readLine_of_label hskip hlabel] at h
      split_ifs at h with hblank
      · cases h
        exact .label hsplit hname hblank
      · obtain ⟨item, operands, hstates, rfl⟩ := exists_states (trimmed_trim rest) h
        exact .labelled hsplit hname hstates

theorem says_readLine_iff {raw : Text} {r : Reading} : (readLine raw).Says r ↔ Reads raw r :=
  ⟨reads_of_readLine, says_of_reads⟩

end Lines

end Chip8.Assembly
