import Chip8.Text.Lines
import Mathlib.Data.List.TakeWhile

namespace Chip8.Text

theorem ne_of_isBlank {a c : Char} (ha : isBlank a = false) (hc : isBlank c = true) : c ≠ a := by
  rintro rfl
  rw [ha] at hc
  cases hc

theorem trimStart_eq_self {t : Text} (h : ∀ c ∈ t.head?, isBlank c = false) : trimStart t = t := by
  cases t with
  | nil => rfl
  | cons c t => simp [trimStart, h c rfl]

theorem trimEnd_eq_self {t : Text} (h : ∀ c ∈ t.getLast?, isBlank c = false) : trimEnd t = t := by
  have hr : trimStart t.reverse = t.reverse := trimStart_eq_self (by simpa using h)
  rw [trimEnd, ← trimStart, hr, List.reverse_reverse]

theorem trim_eq_self {t : Text} (hhead : ∀ c ∈ t.head?, isBlank c = false)
    (hlast : ∀ c ∈ t.getLast?, isBlank c = false) : trim t = t := by
  rw [trim, trimStart_eq_self hhead, trimEnd_eq_self hlast]

theorem not_isBlank_getLast?_trim {t : Text} {c : Char} (h : c ∈ (trim t).getLast?) :
    isBlank c = false := by
  have hd := List.head?_dropWhile_not isBlank (trimStart t).reverse
  rw [trim, trimEnd, List.getLast?_reverse, Option.mem_def] at h
  rw [h] at hd
  simpa using hd

theorem dropFinalFeed_trim (t : Text) : dropFinalFeed (trim t) = trim t := by
  have h : (trim t).getLast? ≠ some '\n' := by
    intro hl
    have := not_isBlank_getLast?_trim hl
    revert this
    decide
  rw [dropFinalFeed, if_neg h]

section Blanks

variable {blanks : Text} (h : ∀ c ∈ blanks, isBlank c = true)

include h

theorem trimStart_of_blanks : trimStart blanks = [] :=
  List.dropWhile_eq_nil_iff.mpr h

theorem trimStart_append (t : Text) : trimStart (blanks ++ t) = trimStart t :=
  List.dropWhile_append_of_pos h

theorem trimEnd_append (t : Text) : trimEnd (t ++ blanks) = trimEnd t := by
  rw [trimEnd, List.reverse_append, List.dropWhile_append_of_pos (by simpa using h), trimEnd]

theorem trim_append (t : Text) : trim (t ++ blanks) = trim t := by
  rw [trim, trim, trimStart, List.dropWhile_append]
  split_ifs with hblank
  · rw [trimStart, List.isEmpty_iff.mp hblank]
    exact congrArg trimEnd (trimStart_of_blanks h)
  · exact trimEnd_append h _

end Blanks

theorem trimEnd_append_of_last {w : Text} (hw : ∀ c ∈ w.getLast?, isBlank c = false) (t : Text) :
    trimEnd (w ++ t) = w ++ trimEnd t := by
  rw [trimEnd, List.reverse_append, List.dropWhile_append]
  split_ifs with hblank
  · rw [trimEnd, List.isEmpty_iff.mp hblank, ← trimEnd, trimEnd_eq_self hw, List.reverse_nil,
      List.append_nil]
  · rw [List.reverse_append, List.reverse_reverse, trimEnd]

theorem exists_append_trimEnd (t : Text) :
    ∃ blanks, t = trimEnd t ++ blanks ∧ ∀ c ∈ blanks, isBlank c = true := by
  refine ⟨(t.reverse.takeWhile isBlank).reverse, ?_, ?_⟩
  · rw [trimEnd, ← List.reverse_append, List.takeWhile_append_dropWhile, List.reverse_reverse]
  · intro c hc
    exact List.mem_takeWhile_imp (List.mem_reverse.mp hc)

theorem head?_trimEnd {t : Text} {c : Char} (h : c ∈ (trimEnd t).head?) : c ∈ t.head? := by
  obtain ⟨blanks, hsplit, -⟩ := exists_append_trimEnd t
  rw [hsplit, List.head?_append, h]
  rfl

theorem not_isBlank_head?_trim {t : Text} {c : Char} (h : c ∈ (trim t).head?) :
    isBlank c = false := by
  obtain ⟨blanks, hsplit, -⟩ := exists_append_trimEnd (trimStart t)
  have hd := List.head?_dropWhile_not isBlank t
  have hhead : (trimStart t).head? = some c := by
    rw [hsplit, List.head?_append, ← trim, h]
    rfl
  rw [trimStart] at hhead
  rw [hhead] at hd
  simpa using hd

theorem decide_ne_of_not_mem {a : Char} {t : Text} (h : a ∉ t) : ∀ c ∈ t, decide (c ≠ a) = true :=
  fun _ hc => decide_eq_true (ne_of_mem_of_not_mem hc h)

theorem span_append {p : Char → Bool} {w rest : Text} (hw : ∀ c ∈ w, p c = true)
    (hrest : ∀ c ∈ rest.head?, p c = false) :
    (w ++ rest).takeWhile p = w ∧ (w ++ rest).dropWhile p = rest := by
  rw [List.takeWhile_append_of_pos hw, List.dropWhile_append_of_pos hw]
  cases rest with
  | nil => exact ⟨List.append_nil w, rfl⟩
  | cons c rest =>
    have hc : ¬p c = true := by
      rw [hrest c rfl]
      exact Bool.false_ne_true
    rw [List.takeWhile_cons_of_neg hc, List.dropWhile_cons_of_neg hc, List.append_nil]
    exact ⟨rfl, rfl⟩

theorem pieces_eq_splitOnP (p : Char → Bool) (t : Text) : pieces p t = t.splitOnP p := by
  induction t with
  | nil => rw [pieces, List.splitOnP_nil]
  | cons c t ih =>
    rw [pieces, ih, List.splitOnP_cons_eq_if_modifyHead]
    split_ifs
    · rfl
    · cases h : t.splitOnP p with
      | nil => exact absurd h (List.splitOnP_ne_nil p t)
      | cons w ws => rfl

theorem pieces_of_forall_not {p : Char → Bool} {t : Text} (h : ∀ c ∈ t, p c = false) :
    pieces p t = [t] := by
  rw [pieces_eq_splitOnP, List.splitOnP_eq_singleton h]

theorem pieces_append_cons {p : Char → Bool} {w : Text} {c : Char} (t : Text)
    (h : ∀ c ∈ w, p c = false) (hc : p c = true) : pieces p (w ++ c :: t) = w :: pieces p t := by
  rw [pieces_eq_splitOnP, List.splitOnP_append_cons w t hc, List.splitOnP_eq_singleton h,
    pieces_eq_splitOnP, List.singleton_append]

theorem pieces_ne_nil (p : Char → Bool) (t : Text) : pieces p t ≠ [] := by
  rw [pieces_eq_splitOnP]
  exact List.splitOnP_ne_nil p t

theorem not_of_mem_pieces {p : Char → Bool} {t w : Text} (h : w ∈ pieces p t) :
    ∀ c ∈ w, p c = false := by
  induction t generalizing w with
  | nil =>
    rw [pieces, List.mem_singleton] at h
    simp [h]
  | cons d t ih =>
    rw [pieces] at h
    split_ifs at h with hd
    · rcases List.mem_cons.mp h with rfl | h
      · simp
      · exact ih h
    · obtain ⟨v, vs, hv⟩ := List.exists_cons_of_ne_nil (pieces_ne_nil p t)
      simp only [hv] at h
      rcases List.mem_cons.mp h with rfl | h
      · intro c hc
        rcases List.mem_cons.mp hc with rfl | hc
        · simpa using hd
        · exact ih (by simp [hv]) c hc
      · exact ih (by simp [hv, h])

theorem head?_words {word rest : Text} (hne : word ≠ []) (hword : ∀ c ∈ word, isBlank c = false)
    (hrest : ∀ c ∈ rest.head?, isBlank c = true) : (words (word ++ rest)).head? = some word := by
  have hempty : word.isEmpty = false := by simpa using hne
  cases rest with
  | nil =>
    rw [List.append_nil, words, pieces_of_forall_not hword]
    simp [hempty]
  | cons c rest =>
    rw [words, pieces_append_cons rest hword (hrest c rfl)]
    simp [hempty]

theorem lines_cons {c : Char} (h : isBreak c = false) (t : Text) :
    lines (c :: t) = (c :: (lines t).headD []) :: (lines t).tail := by
  have hr : c ≠ '\r' := by
    rintro rfl
    revert h
    decide
  rw [lines]
  · cases lines t <;> simp [h]
  · rintro _ rfl
    exact absurd rfl hr

theorem lines_of_forall_not {l : Text} (hne : l ≠ []) (h : ∀ c ∈ l, isBreak c = false) :
    lines l = [l] := by
  induction l with
  | nil => exact absurd rfl hne
  | cons c l ih =>
    rw [lines_cons (h c (by simp))]
    cases l with
    | nil => rfl
    | cons d l => rw [ih (by simp) (fun c hc => h c (by simp [hc]))]; rfl

theorem lines_append_feed {l : Text} (t : Text) (h : ∀ c ∈ l, isBreak c = false) :
    lines (l ++ '\n' :: t) = l :: lines t := by
  induction l with
  | nil => simp [lines, isBreak]
  | cons c l ih =>
    rw [List.cons_append, lines_cons (h c (by simp)), ih (fun c hc => h c (by simp [hc]))]
    rfl

theorem lines_ne_nil {t : Text} (h : t ≠ []) : lines t ≠ [] := by
  fun_cases lines t with
  | case1 => exact absurd rfl h
  | case2 t => exact List.cons_ne_nil _ _
  | case3 c t _ hc => exact List.cons_ne_nil _ _
  | case4 c t _ hc hl => exact List.cons_ne_nil _ _
  | case5 c t _ hc l ls hl => exact List.cons_ne_nil _ _

theorem lines_break {c : Char} {t : Text} (hc : isBreak c = true)
    (h : c = '\r' → t.head? ≠ some '\n') : lines (c :: t) = [] :: lines t := by
  rw [lines, if_pos hc]
  rintro u hu rfl
  exact h hu rfl

theorem lines_append_feed_append (t u : Text) : ∃ blanks : List Text, (∀ l ∈ blanks, l = []) ∧
    lines (t ++ '\n' :: u) = lines t ++ blanks ++ lines u := by
  induction t using lines.induct with
  | case1 => exact ⟨[[]], by simp, lines_break rfl (by simp)⟩
  | case2 t ih =>
    obtain ⟨blanks, hblanks, ih⟩ := ih
    refine ⟨blanks, hblanks, ?_⟩
    rw [List.cons_append, List.cons_append, lines, ih, lines, List.cons_append, List.cons_append]
  | case3 c t hreturn hc ih =>
    have hhead : c = '\r' → t.head? ≠ some '\n' := by
      intro hc hfeed
      obtain ⟨v, rfl⟩ := List.head?_eq_some_iff.mp hfeed
      exact hreturn v hc rfl
    rw [lines_break hc hhead]
    by_cases hjoin : c = '\r' ∧ t = []
    · -- the return and the feed after it are one break
      obtain ⟨rfl, rfl⟩ := hjoin
      exact ⟨[], by simp, by rw [List.singleton_append, lines]; rfl⟩
    · obtain ⟨blanks, hblanks, ih⟩ := ih
      refine ⟨blanks, hblanks, ?_⟩
      rw [List.cons_append, lines_break hc, ih, List.cons_append, List.cons_append]
      intro hc hfeed
      cases t with
      | nil => exact hjoin ⟨hc, rfl⟩
      | cons d t => exact hhead hc hfeed
  | case4 c t hreturn hc hl ih =>
    have hc : isBreak c = false := by simpa using hc
    cases t with
    | nil =>
      have hfeed : lines ([c] ++ '\n' :: u) = [c] :: lines u :=
        lines_append_feed u (by simpa using hc)
      exact ⟨[], by simp, by rw [hfeed, lines_cons hc]; rfl⟩
    | cons d t => exact absurd hl (lines_ne_nil (List.cons_ne_nil d t))
  | case5 c t hreturn hc l ls hl ih =>
    have hc : isBreak c = false := by simpa using hc
    obtain ⟨blanks, hblanks, ih⟩ := ih
    refine ⟨blanks, hblanks, ?_⟩
    rw [List.cons_append, lines_cons hc, lines_cons hc, ih, hl]
    rfl

theorem lines_intercalate {ls : List Text} (hne : ∀ l ∈ ls, l ≠ [])
    (h : ∀ l ∈ ls, ∀ c ∈ l, isBreak c = false) : lines (['\n'].intercalate ls) = ls := by
  induction ls with
  | nil => rfl
  | cons l ls ih =>
    cases ls with
    | nil =>
      rw [List.intercalate_singleton]
      exact lines_of_forall_not (hne l (by simp)) (h l (by simp))
    | cons l' ls =>
      have ih := ih (fun l hl => hne l (by simp [hl])) (fun l hl => h l (by simp [hl]))
      rw [List.intercalate_cons_cons, List.append_assoc, List.singleton_append,
        lines_append_feed _ (h l (by simp)), ih]

end Chip8.Text
