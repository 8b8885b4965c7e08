import Chip8.Editor.Completion
import Chip8.Proofs.LayoutNoise

namespace Chip8.Editor

open Assembly Text

def offered (t : Text) : List String := (completions t).map CompletionItem.label

def statementNames : List String := Mnemonic.all.map Mnemonic.name ++ ["DW", "DB"]

inductive Divides (raw : Text) : Option Text → Text → Text → Prop
  | unlabelled {word field : Text} (label : splitLabel (stripComment raw) = none)
    (statement : splitStatement (stripComment raw) = some (word, field)) :
    Divides raw none word field
  | labelled {name content word field : Text}
    (label : splitLabel (stripComment raw) = some (name, content))
    (statement : splitStatement content = some (word, field)) :
    Divides raw (some name) word field

/-- What stands before the cursor: white space, a label or none, and the start of a statement. -/
inductive Opens (t : Text) : Option Text → Text → Prop
  | unlabelled {gap start : Text} (split : t = gap ++ start)
    (blank : ∀ c ∈ gap, isBlank c = true) : Opens t none start
  | labelled {gap name inner start : Text} (split : t = gap ++ (name ++ ':' :: (inner ++ start)))
    (blank : ∀ c ∈ gap, isBlank c = true) (named : isName name = true)
    (apart : ∀ c ∈ inner, isBlank c = true) : Opens t (some name) start

section Division

variable {t start more word field : Text} {label : Option Text}

theorem Opens.divides (h : Opens t label start) (plain : ';' ∉ t ++ more)
    (trimmed : Trimmed (start ++ more)) (unlabelled : splitLabel (start ++ more) = none)
    (statement : splitStatement (start ++ more) = some (word, field)) :
    Divides (t ++ more) label word field := by
  cases h with
  | @unlabelled gap start split blank =>
    rw [split, List.append_assoc] at plain ⊢
    have hstrip := stripComment_padded blank plain trimmed
    exact .unlabelled (hstrip.symm ▸ unlabelled) (hstrip.symm ▸ statement)
  | @labelled gap name inner start split blank named apart =>
    have hjoin : t ++ more = gap ++ (name ++ ':' :: inner ++ (start ++ more)) := by simp [split]
    have hname : name ≠ [] := by
      rintro rfl
      cases named
    have hmore : start ++ more ≠ [] := by
      intro hnil
      rw [hnil] at statement
      cases statement
    have hwhole : Trimmed (name ++ ':' :: inner ++ (start ++ more)) :=
      (trimmed_of_wordChars (isWordChar_of_isName named)).append trimmed hname hmore _
    have htrim : start ++ more = trim (inner ++ (start ++ more)) := by
      rw [trim, trimStart_append apart, ← trim, trimmed.trim_eq]
    rw [hjoin] at plain ⊢
    refine .labelled (splitLabel_eq_some.mpr ⟨inner ++ (start ++ more), ?_, named, htrim⟩) statement
    rw [stripComment_padded blank plain hwhole, List.append_assoc, List.cons_append]

theorem Opens.divides_word (h : Opens t label start) (plain : ';' ∉ t)
    (letters : ∀ c ∈ start ++ more, c.isAlpha = true) (typed : more ≠ []) :
    Divides (t ++ more) label (start ++ more) [] := by
  have hword : ∀ c ∈ start ++ more, isWordChar c = true :=
    fun c hc => isWordChar_of_isAlpha (letters c hc)
  apply h.divides
  · intro hc
    rcases List.mem_append.mp hc with hc | hc
    · exact plain hc
    · exact absurd (letters _ (List.mem_append_right _ hc)) (by decide)
  · exact trimmed_of_wordChars hword
  · have hnone : splitLabel (start ++ more ++ []) = none := splitLabel_of_word hword (by simp)
    rwa [List.append_nil] at hnone
  · exact splitStatement_eq_some.mpr ⟨by simp [typed], letters, .inl ⟨rfl, rfl⟩⟩

theorem Opens.divides_field {c : Char} (h : Opens t label (word ++ c :: field)) (plain : ';' ∉ t)
    (letters : ∀ c ∈ word, c.isAlpha = true) (nonempty : word ≠ []) (blank : isBlank c = true)
    (typed : more ≠ []) (trimmed : Trimmed more) (uncommented : ';' ∉ more) :
    Divides (t ++ more) label word (trim (field ++ more)) := by
  have hword : ∀ c ∈ word, isWordChar c = true := fun c hc => isWordChar_of_isAlpha (letters c hc)
  have hjoin : word ++ c :: field ++ more = word ++ c :: (field ++ more) := by simp
  apply h.divides
  · simp [plain, uncommented]
  · exact (trimmed_of_wordChars hword).append trimmed nonempty typed (c :: field)
  · rw [hjoin]
    refine splitLabel_of_word hword ?_
    rintro c ⟨⟩
    exact blank
  · exact splitStatement_eq_some.mpr ⟨nonempty, letters, .inr ⟨c, _, hjoin, blank, rfl⟩⟩

end Division

section Offers

variable {t start word field : Text} {label : Option Text} {name : Text}

theorem offered_eq (t : Text) :
    offered t = if ' ' ∈ statementPart t then registerNames else statementNames := by
  rw [offered, completions]
  split_ifs
  · simp [registerItems, Function.comp_def]
  · simp [statementItems, statementNames, dataItems, Function.comp_def]

theorem offered_of_statementPart {last : Option Char} {part : Text}
    (h : statementPart t = if last = some ':' then [] else part) :
    offered t = if ' ' ∈ part ∧ last ≠ some ':' then registerNames else statementNames := by
  rw [offered_eq, h]
  by_cases hlast : last = some ':' <;> simp [hlast]

theorem statementPart_of_not_mem (plain : ';' ∉ t) (h : ':' ∉ trimStart t) :
    statementPart t = trimStart t := by
  have hlast : (trimStart t).getLast? ≠ some ':' := fun hc => h (List.mem_of_mem_getLast? hc)
  simp only [statementPart, List.takeWhile_eq_self_iff.mpr (decide_ne_of_not_mem plain),
    List.dropWhile_eq_nil_iff.mpr (decide_ne_of_not_mem h), if_neg hlast]

theorem statementPart_of_colon {front rest : Text} (plain : ';' ∉ t)
    (split : trimStart t = front ++ ':' :: rest) (first : ':' ∉ front) :
    statementPart t = if rest.getLast? = some ':' then [] else trimStart rest := by
  have hcolon : ∀ c ∈ (':' :: rest).head?, decide (c ≠ ':') = false := by
    rintro c ⟨⟩
    rfl
  obtain ⟨-, hdrop⟩ := span_append (decide_ne_of_not_mem first) hcolon
  simp only [statementPart, List.takeWhile_eq_self_iff.mpr (decide_ne_of_not_mem plain), split, hdrop]
  cases rest with
  | nil => simp [trimStart]
  | cons c rest =>
    rw [List.getLast?_append_of_ne_nil _ (List.cons_ne_nil _ _),
      List.getLast?_cons_of_ne_nil (List.cons_ne_nil _ _)]

theorem Opens.trimStart_eq (h : Opens t none start) (head : ∀ c ∈ start.head?, isBlank c = false) :
    trimStart t = start := by
  cases h with
  | unlabelled split blank => rw [split, trimStart_append blank, trimStart_eq_self head]

theorem Opens.statementPart_eq (h : Opens t (some name) start) (plain : ';' ∉ t)
    (head : ∀ c ∈ start.head?, isBlank c = false) :
    statementPart t = if start.getLast? = some ':' then [] else start := by
  cases h with
  | @labelled gap _ inner start split blank named apart =>
    have hname : ∀ c ∈ name, isWordChar c = true := isWordChar_of_isName named
    have htrimmed := trimmed_of_wordChars hname
    have hhead : ∀ c ∈ (name ++ ':' :: (inner ++ start)).head?, isBlank c = false := by
      cases name with
      | nil => cases named
      | cons d name => exact htrimmed.head
    have htrim : trimStart t = name ++ ':' :: (inner ++ start) := by
      rw [split, trimStart_append blank, trimStart_eq_self hhead]
    have hfirst : ':' ∉ name := fun hc => absurd (hname _ hc) (by decide)
    rw [statementPart_of_colon plain htrim hfirst, trimStart_append apart, trimStart_eq_self head]
    by_cases hstart : start = []
    · simp [hstart]
    · rw [List.getLast?_append_of_ne_nil _ hstart]

theorem Opens.offered_word (h : Opens t label word) (plain : ';' ∉ t)
    (letters : ∀ c ∈ word, c.isAlpha = true) : offered t = statementNames := by
  have htrimmed := trimmed_of_wordChars fun c hc => isWordChar_of_isAlpha (letters c hc)
  have hspace : ' ' ∉ word := fun hc => absurd (letters _ hc) (by decide)
  cases label with
  | none =>
    have hcolon : ':' ∉ word := fun hc => absurd (letters _ hc) (by decide)
    have htrim := h.trimStart_eq htrimmed.head
    rw [offered_eq, statementPart_of_not_mem plain (htrim.symm ▸ hcolon), htrim, if_neg hspace]
  | some name =>
    rw [offered_of_statementPart (h.statementPart_eq plain htrimmed.head), if_neg]
    exact fun hboth => hspace hboth.1

section Fields

variable {c : Char} (letters : ∀ c ∈ word, c.isAlpha = true) (nonempty : word ≠ [])
  (blank : isBlank c = true)

include letters nonempty in
theorem not_isBlank_head? : ∀ d ∈ (word ++ c :: field).head?, isBlank d = false := by
  rw [List.head?_append_of_ne_nil _ nonempty]
  exact (trimmed_of_wordChars fun d hd => isWordChar_of_isAlpha (letters d hd)).head

include blank in
theorem getLast?_eq_colon : (word ++ c :: field).getLast? = some ':' ↔ field.getLast? = some ':' := by
  rw [List.getLast?_append_of_ne_nil _ (List.cons_ne_nil _ _)]
  cases field with
  | nil => simp [ne_of_isBlank (show isBlank ':' = false from rfl) blank]
  | cons d field => rw [List.getLast?_cons_of_ne_nil (List.cons_ne_nil _ _)]

include letters in
theorem mem_append_of_letters {d : Char} (hd : d.isAlpha = false) :
    d ∈ word ++ c :: field ↔ d ∈ c :: field := by
  have hword : d ∉ word := fun hmem => by simp [letters d hmem] at hd
  simp [hword]

include letters nonempty blank

theorem Opens.offered_field (h : Opens t label (word ++ c :: field)) (plain : ';' ∉ t)
    (heeded : label.isSome = true ∨ ':' ∉ field) : offered t =
      if ' ' ∈ c :: field ∧ field.getLast? ≠ some ':' then registerNames else statementNames := by
  have hhead : ∀ d ∈ (word ++ c :: field).head?, isBlank d = false :=
    not_isBlank_head? letters nonempty
  have hpart : statementPart t =
      if field.getLast? = some ':' then [] else word ++ c :: field := by
    cases label with
    | none =>
      have hfield : ':' ∉ field := by simpa using heeded
      have hcolon : ':' ∉ word ++ c :: field := by
        rw [mem_append_of_letters letters rfl, List.mem_cons, not_or]
        exact ⟨(ne_of_isBlank rfl blank).symm, hfield⟩
      have hlast : field.getLast? ≠ some ':' := fun hlast => hfield (List.mem_of_mem_getLast? hlast)
      have htrim := h.trimStart_eq hhead
      rw [statementPart_of_not_mem plain (htrim.symm ▸ hcolon), htrim, if_neg hlast]
    | some name => simp only [h.statementPart_eq plain hhead, getLast?_eq_colon blank]
  have hspace : ' ' ∈ word ++ c :: field ↔ ' ' ∈ c :: field := mem_append_of_letters letters rfl
  simp only [offered_of_statementPart hpart, hspace]

theorem Opens.offered_colon {front rest : Text} (h : Opens t none (word ++ c :: field))
    (plain : ';' ∉ t) (split : field = front ++ ':' :: rest) (first : ':' ∉ front) : offered t =
      if ' ' ∈ trimStart rest ∧ rest.getLast? ≠ some ':' then registerNames else statementNames := by
  have htrim : trimStart t = word ++ c :: front ++ ':' :: rest := by
    rw [h.trimStart_eq (not_isBlank_head? letters nonempty), split, List.append_assoc,
      List.cons_append]
  have hfirst : ':' ∉ word ++ c :: front := by
    rw [mem_append_of_letters letters rfl, List.mem_cons, not_or]
    exact ⟨(ne_of_isBlank rfl blank).symm, first⟩
  exact offered_of_statementPart (statementPart_of_colon plain htrim hfirst)

end Fields

end Offers

/-- Where the assembler reads a label alone or an unfinished word before the cursor, completion
offers the statements. Where it reads operands, completion offers the registers if a space is among
them and no colon ends them; without a label, what stands after their first colon decides. -/
theorem offered_of_opening {t word : Text} {label : Option Text} (plain : ';' ∉ t)
    (letters : ∀ c ∈ word, c.isAlpha = true) :
    (Opens t label word → offered t = statementNames ∧
      ∀ more, more ≠ [] → (∀ c ∈ more, c.isAlpha = true) →
        Divides (t ++ more) label (word ++ more) []) ∧
    ∀ c field, word ≠ [] → isBlank c = true → Opens t label (word ++ c :: field) →
      (∀ more, more ≠ [] → Trimmed more → ';' ∉ more →
        Divides (t ++ more) label word (trim (field ++ more))) ∧
      (label.isSome = true ∨ ':' ∉ field → offered t =
        if ' ' ∈ c :: field ∧ field.getLast? ≠ some ':' then registerNames else statementNames) ∧
      ∀ front rest, label = none → field = front ++ ':' :: rest → ':' ∉ front → offered t =
        if ' ' ∈ trimStart rest ∧ rest.getLast? ≠ some ':' then registerNames
        else statementNames := by
  refine ⟨fun h => ⟨h.offered_word plain letters, fun more typed hmore => ?_⟩,
    fun c field nonempty blank h => ⟨fun more typed trimmed uncommented => ?_, fun heeded => ?_,
      fun front rest unlabelled split first => ?_⟩⟩
  · refine h.divides_word plain (fun d hd => ?_) typed
    rcases List.mem_append.mp hd with hd | hd
    · exact letters d hd
    · exact hmore d hd
  · exact h.divides_field plain letters nonempty blank typed trimmed uncommented
  · exact h.offered_field letters nonempty blank plain heeded
  · subst unlabelled
    exact h.offered_colon letters nonempty blank plain split first

theorem offered_of_opening_labelled : ';' ∉ " L:\tLOAD\t v1:, ".toList ∧
    "LOAD".toList.all Char.isAlpha = true ∧
    Opens " L:\tLOAD\t v1:, ".toList (some "L".toList) ("LOAD".toList ++ '\t' :: " v1:, ".toList) ∧
    (∀ more, more ≠ [] → Trimmed more → ';' ∉ more → Divides (" L:\tLOAD\t v1:, ".toList ++ more)
      (some "L".toList) "LOAD".toList (trim (" v1:, ".toList ++ more))) ∧
    offered " L:\tLOAD\t v1:, ".toList = registerNames := by
  have plain : ';' ∉ " L:\tLOAD\t v1:, ".toList := by simp
  have letters : "LOAD".toList.all Char.isAlpha = true := rfl
  have split : " L:\tLOAD\t v1:, ".toList =
      [' '] ++ ("L".toList ++ ':' :: (['\t'] ++ ("LOAD".toList ++ '\t' :: " v1:, ".toList))) := rfl
  have opens : Opens " L:\tLOAD\t v1:, ".toList (some "L".toList)
      ("LOAD".toList ++ '\t' :: " v1:, ".toList) :=
    .labelled split (List.forall_mem_singleton.mpr rfl) rfl (List.forall_mem_singleton.mpr rfl)
  obtain ⟨-, hfield⟩ := @offered_of_opening _ _ (some "L".toList) plain
    (List.all_eq_true.mp letters)
  obtain ⟨hdivides, hoffered, -⟩ := hfield '\t' " v1:, ".toList (by decide) rfl opens
  exact ⟨plain, letters, opens, hdivides, (hoffered (.inl rfl)).trans (if_pos (by decide))⟩

theorem offered_after_tab : ';' ∉ "LOAD\t".toList ∧ "LOAD".toList.all Char.isAlpha = true ∧
    isBlank '\t' = true ∧ Opens "LOAD\t".toList none ("LOAD".toList ++ '\t' :: []) ∧
    offered "LOAD\t".toList = statementNames ∧ statementNames ≠ registerNames := by
  have split : "LOAD\t".toList = [] ++ ("LOAD".toList ++ '\t' :: []) := rfl
  have hlength : statementNames.length ≠ registerNames.length := by decide
  exact ⟨by simp, rfl, rfl, .unlabelled split (by simp), rfl, ne_of_apply_ne List.length hlength⟩

end Chip8.Editor
