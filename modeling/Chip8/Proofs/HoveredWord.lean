import Chip8.Editor.Server
import Chip8.Proofs.SequencePositions
import Mathlib.Data.List.Basic

namespace Chip8.Editor

open Text

structure Touches (t : Text) (i : Nat) (w : Text) : Prop where
  wordly : ∀ c ∈ w, isWordChar c = true
  placed : ∃ before after, t = before ++ w ++ after ∧ before.length ≤ i ∧ i ≤ before.length + w.length

structure LongestAt (t : Text) (i : Nat) (w : Text) : Prop where
  touches : Touches t i w
  longest : ∀ v, Touches t i v → v.length ≤ w.length

structure Enclosed (t : Text) (i : Nat) (before w after : Text) : Prop where
  split : t = before ++ w ++ after
  start : before.length ≤ i
  stop : i ≤ before.length + w.length
  wordly : ∀ c ∈ w, isWordChar c = true
  left : ∀ c ∈ before.getLast?, isWordChar c = false
  right : ∀ c ∈ after.head?, isWordChar c = false

namespace Enclosed

variable {t before w after : Text} {i : Nat}

theorem touches (h : Enclosed t i before w after) : Touches t i w :=
  ⟨h.wordly, before, after, h.split, h.start, h.stop⟩

theorem length_le (h : Enclosed t i before w after) {b v a : Text} (hsplit : t = b ++ v ++ a)
    (hwordly : ∀ c ∈ v, isWordChar c = true) (hstart : b.length ≤ i)
    (hstop : i ≤ b.length + v.length) :
    before.length ≤ b.length ∧ b.length + v.length ≤ before.length + w.length := by
  have hv (k : Nat) (hk : b.length ≤ k) (hk' : k < b.length + v.length) (c : Char)
      (hc : t[k]? = some c) : isWordChar c = true := by
    rw [hsplit, List.append_assoc, List.getElem?_append_right hk,
      List.getElem?_append_left (by omega)] at hc
    exact hwordly c (List.mem_of_getElem? hc)
  constructor
  · by_contra hlt
    have hlast : t[before.length - 1]? = before.getLast? := by
      rw [h.split, List.append_assoc, List.getElem?_append_left (by omega), List.getLast?_eq_getElem?]
    have hne : before ≠ [] := by
      rintro rfl
      exact hlt (Nat.zero_le _)
    obtain ⟨c, hc⟩ : ∃ c, before.getLast? = some c := ⟨_, List.getLast?_eq_some_getLast hne⟩
    have hword := hv (before.length - 1) (by omega) (by have := h.start; omega) c (hlast.trans hc)
    rw [h.left c hc] at hword
    cases hword
  · by_contra hlt
    have hfirst : t[before.length + w.length]? = after.head? := by
      rw [h.split, ← List.length_append, List.getElem?_append_right (Nat.le_refl _), Nat.sub_self,
        List.head?_eq_getElem?]
    have hbound : before.length + w.length < t.length := by
      rw [hsplit, List.length_append, List.length_append]
      omega
    obtain ⟨c, hc⟩ : ∃ c, t[before.length + w.length]? = some c :=
      ⟨_, List.getElem?_eq_getElem hbound⟩
    have hword := hv (before.length + w.length) (by have := h.stop; omega) (by omega) c hc
    rw [h.right c (hfirst.symm.trans hc)] at hword
    cases hword

theorem longestAt (h : Enclosed t i before w after) : LongestAt t i w := by
  refine ⟨h.touches, ?_⟩
  rintro v ⟨hwordly, b, a, hsplit, hstart, hstop⟩
  obtain ⟨hleft, hright⟩ := h.length_le hsplit hwordly hstart hstop
  omega

theorem unique (h : Enclosed t i before w after) {v : Text} (hv : LongestAt t i v) : v = w := by
  obtain ⟨⟨hwordly, b, a, hsplit, hstart, hstop⟩, hlongest⟩ := hv
  obtain ⟨hleft, hright⟩ := h.length_le hsplit hwordly hstart hstop
  have hlength := hlongest w h.touches
  have hb : b.length = before.length := by omega
  have hjoin : b ++ (v ++ a) = before ++ (w ++ after) := by
    rw [← List.append_assoc, ← hsplit, ← List.append_assoc, ← h.split]
  obtain ⟨-, hrest⟩ := List.append_inj hjoin hb
  exact (List.append_inj hrest (by omega)).1

end Enclosed

section Scans

variable {t : Text} {i : Nat}

theorem wordStart_eq (h : i ≤ t.length) : ∃ before left, t.take i = before ++ left ∧
    (∀ c ∈ left, isWordChar c = true) ∧ (∀ c ∈ before.getLast?, isWordChar c = false) ∧
    wordStart t i = some before.length := by
  induction i with
  | zero => exact ⟨[], [], by simp, by simp, by simp, rfl⟩
  | succ i ih =>
    obtain ⟨before, left, htake, hleft, hbefore, hstart⟩ := ih (Nat.le_of_succ_le h)
    have hc : t[i]? = some t[i] := List.getElem?_eq_getElem h
    have hnext : t.take (i + 1) = t.take i ++ [t[i]] := by
      rw [List.take_add_one, hc]
      rfl
    by_cases hword : isWordChar t[i] = true
    · refine ⟨before, left ++ [t[i]], ?_, ?_, hbefore, ?_⟩
      · rw [hnext, htake, List.append_assoc]
      · simpa [or_imp, forall_and] using ⟨hleft, hword⟩
      · simp only [wordStart, hc, hword, if_true, hstart]
    · refine ⟨t.take (i + 1), [], by simp, by simp, ?_, ?_⟩
      · rw [hnext, List.getLast?_concat]
        rintro c ⟨⟩
        exact Bool.eq_false_iff.mpr hword
      · simp only [wordStart, hc, hword, List.length_take, Nat.min_eq_left h]
        rfl

theorem wordStart_eq_none (h : t.length < i) : wordStart t i = none := by
  cases i with
  | zero => exact absurd h (Nat.not_lt_zero _)
  | succ i => rw [wordStart, List.getElem?_eq_none (Nat.le_of_lt_succ h)]

theorem wordEnd_eq {n : Nat} (h : n = t.length - i) : ∃ right after, t.drop i = right ++ after ∧
    (∀ c ∈ right, isWordChar c = true) ∧ (∀ c ∈ after.head?, isWordChar c = false) ∧
    wordEnd t n i = some ((i + right.length : Nat) : Int) := by
  induction n generalizing i with
  | zero => exact ⟨[], [], by simpa using Nat.le_of_sub_eq_zero h.symm, by simp, by simp, rfl⟩
  | succ n ih =>
    have hi : i < t.length := by omega
    have hi' : (i : Int) < t.length := Int.ofNat_lt.mpr hi
    have hdrop : t.drop i = t[i] :: t.drop (i + 1) := List.drop_eq_getElem_cons hi
    rw [wordEnd, if_pos hi', pick_natCast hi]
    by_cases hword : isWordChar t[i] = true
    · obtain ⟨right, after, hsplit, hright, hafter, hend⟩ := @ih (i + 1) (by omega)
      refine ⟨t[i] :: right, after, by rw [hdrop, hsplit]; rfl, ?_, hafter, ?_⟩
      · simpa using ⟨hword, hright⟩
      · have hcast : (i : Int) + 1 = (i + 1 : Nat) := rfl
        simp only [hword, if_true, hcast, hend, List.length_cons]
        congr 2
        omega
    · refine ⟨[], t.drop i, rfl, by simp, ?_, ?_⟩
      · rw [hdrop]
        rintro c ⟨⟩
        exact Bool.eq_false_iff.mpr hword
      · simp [hword]

theorem wordAt_natCast (t : Text) (i : Nat) : wordAt t i = (wordStart t i).bind fun start =>
    (wordEnd t ((t.length : Int) - i).toNat i).map (slice t start) := by
  rw [wordAt]
  generalize wordEnd t ((t.length : Int) - i).toNat i = stop
  cases i with
  | zero =>
    have hzero : ((0 : Nat) : Int) ≤ 0 := Int.le_refl 0
    rw [if_pos hzero]
    cases stop <;> rfl
  | succ i =>
    rw [if_neg (by omega), Int.toNat_natCast]
    cases wordStart t (i + 1) <;> cases stop <;> rfl

theorem wordAt_eq (h : i ≤ t.length) :
    ∃ before w after, Enclosed t i before w after ∧ wordAt t i = some w := by
  obtain ⟨before, left, htake, hleft, hbefore, hstart⟩ := wordStart_eq h
  obtain ⟨right, after, hdrop, hright, hafter, hend⟩ :=
    @wordEnd_eq t i ((t.length : Int) - i).toNat (by omega)
  have hlength : before.length + left.length = i := by
    rw [← List.length_append, ← htake, List.length_take, Nat.min_eq_left h]
  have hsplit : t = before ++ (left ++ right) ++ after := by
    rw [← List.append_assoc, ← htake, List.append_assoc, ← hdrop, List.take_append_drop]
  have hstop : i + right.length = before.length + (left ++ right).length := by
    rw [List.length_append]
    omega
  have hslice := slice_append before (left ++ right) after
  rw [← hsplit, ← hstop] at hslice
  refine ⟨before, left ++ right, after, ⟨hsplit, by omega, by omega, ?_, hbefore, hafter⟩, ?_⟩
  · intro c hc
    rcases List.mem_append.mp hc with hc | hc
    · exact hleft c hc
    · exact hright c hc
  · rw [wordAt_natCast, hstart, Option.bind_some, hend, Option.map_some, hslice]

theorem wordAt_eq_none (h : t.length < i) : wordAt t i = none := by
  rw [wordAt_natCast, wordStart_eq_none h]
  rfl

end Scans

namespace Server

variable {s : Server} {uri : String} {document line : Text} {cursor : Cursor}

theorem line?_eq (stored : s.text? uri = some document) (n : Nat) :
    s.line? uri n = (documentLines document)[n]? := by
  rw [line?, stored]
  rfl

theorem hover_within (there : s.line? uri cursor.line = some line)
    (h : cursor.character ≤ line.length) : ∃ before w after,
      Enclosed line cursor.character before w after ∧ s.hover uri cursor = .ok (hoverText w) := by
  obtain ⟨before, w, after, henclosed, hword⟩ := wordAt_eq h
  refine ⟨before, w, after, henclosed, ?_⟩
  simp only [hover, there, hword]

theorem hover_beyond (there : s.line? uri cursor.line = some line)
    (h : line.length < cursor.character) : s.hover uri cursor = .error .outside := by
  simp only [hover, there, wordAt_eq_none h]

/-- Completion answers for every place in a document. So does hovering, with what there is to say
about the longest word at the place, but for places beyond the end of a line. -/
theorem cursor_answered (stored : s.text? uri = some document) (cursor : Cursor) :
    ((documentLines document).length ≤ cursor.line →
      s.completion uri cursor = [] ∧ s.hover uri cursor = .ok none) ∧
    ∀ line, (documentLines document)[cursor.line]? = some line →
      (∃ before after, line = before ++ after ∧
        before.length = min cursor.character line.length ∧
        s.completion uri cursor = completions before) ∧
      (s.hover uri cursor = .error .outside ↔ line.length < cursor.character) ∧
      (cursor.character ≤ line.length → ∃ w, LongestAt line cursor.character w ∧
        (∀ v, LongestAt line cursor.character v → v = w) ∧
        s.hover uri cursor = .ok (hoverText w)) := by
  rw [← line?_eq stored]
  refine ⟨fun habsent => ?_, fun line there => ⟨?_, ⟨fun hfails => ?_, hover_beyond there⟩,
    fun hwithin => ?_⟩⟩
  · have hnone : s.line? uri cursor.line = none := by
      rw [line?_eq stored, List.getElem?_eq_none habsent]
    simp only [completion, hover, hnone, and_self]
  · refine ⟨line.take cursor.character, line.drop cursor.character,
      (List.take_append_drop _ _).symm, List.length_take, ?_⟩
    simp only [completion, there]
  · by_contra hwithin
    obtain ⟨_, w, _, -, hok⟩ := hover_within there (Nat.not_lt.mp hwithin)
    rw [hok] at hfails
    cases hfails
  · obtain ⟨before, w, after, henclosed, hok⟩ := hover_within there hwithin
    exact ⟨w, henclosed.longestAt, fun _ => henclosed.unique, hok⟩

theorem cursor_answered_touching :
    (put {} "a" "L: SKRNE v1\n".toList).text? "a" = some "L: SKRNE v1\n".toList ∧
      LongestAt "L: SKRNE v1".toList 8 "SKRNE".toList ∧
      (put {} "a" "L: SKRNE v1\n".toList).hover "a" ⟨0, 8⟩ = .ok (hoverText "SKRNE".toList) := by
  have stored : (put {} "a" "L: SKRNE v1\n".toList).text? "a" = some "L: SKRNE v1\n".toList := rfl
  have hword : "SKRNE".toList.all isWordChar = true := rfl
  have henclosed : Enclosed "L: SKRNE v1".toList 8 "L: ".toList "SKRNE".toList " v1".toList := by
    refine ⟨rfl, by decide, by decide, List.all_eq_true.mp hword, ?_, ?_⟩
    · rintro c ⟨⟩
      rfl
    · rintro c ⟨⟩
      rfl
  obtain ⟨-, answered⟩ := cursor_answered stored ⟨0, 8⟩
  obtain ⟨-, -, hwithin⟩ := answered "L: SKRNE v1".toList rfl
  obtain ⟨w, -, hunique, hok⟩ := hwithin (by decide)
  rw [← hunique _ henclosed.longestAt] at hok
  exact ⟨stored, henclosed.longestAt, hok⟩

theorem hover_beyond_line : (put {} "a" "RTS".toList).text? "a" = some "RTS".toList ∧
    (documentLines "RTS".toList)[0]? = some "RTS".toList ∧
    LongestAt "RTS".toList (min 4 "RTS".toList.length) "RTS".toList ∧
    (hoverText "RTS".toList).isSome = true ∧
    (put {} "a" "RTS".toList).hover "a" ⟨0, 4⟩ = .error .outside := by
  have hword : "RTS".toList.all isWordChar = true := rfl
  have henclosed : Enclosed "RTS".toList 3 [] "RTS".toList [] :=
    ⟨rfl, by decide, by decide, List.all_eq_true.mp hword, by simp, by simp⟩
  exact ⟨rfl, rfl, henclosed.longestAt, by rfl, rfl⟩

end Server

end Chip8.Editor
