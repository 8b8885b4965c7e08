import Chip8.Proofs.DocumentEvents
import Chip8.Proofs.FirstFault
import Chip8.Proofs.SequencePositions

namespace Chip8

open Text

namespace Editor

structure Diagnostic.Marks (d : Diagnostic) (t : Text) (r : Assembly.Report) (k : Nat)
    (line : Text) : Prop where
  number : r.lineNumber = some (k + 1 : Nat)
  reported : r.line = some line
  edited : (documentLines t)[k]? = some line
  start : d.line = k
  stop : d.stop = line.length
  code : d.code = r.kind.code
  message : r.message = s!"Line {k + 1}: {d.message} [" ++ String.ofList (trim line) ++ "]"

theorem lines_prefix_documentLines (t : Text) : lines t <+: documentLines t := by
  simp only [documentLines]
  split
  · exact List.prefix_append _ _
  · exact List.prefix_refl _

theorem getElem?_documentLines {t line : Text} {k : Nat} (h : (lines t)[k]? = some line) :
    (documentLines t)[k]? = some line := by
  obtain ⟨hk, -⟩ := List.getElem?_eq_some_iff.mp h
  obtain ⟨rest, hrest⟩ := lines_prefix_documentLines t
  rw [← hrest, List.getElem?_append_left hk, h]

theorem ofReport_marks {t line : Text} {k : Nat} (fault : Assembly.Fault)
    (h : (lines t)[k]? = some line) :
    (Diagnostic.ofReport t (fault.report (k + 1 : Nat) line)).Marks t
      (fault.report (k + 1 : Nat) line) k line := by
  have hline := getElem?_documentLines h
  obtain ⟨hk, hget⟩ := List.getElem?_eq_some_iff.mp hline
  have hstart : ((k + 1 : Nat) : Int) - 1 = k := by omega
  refine ⟨rfl, rfl, hline, hstart, ?_, rfl, rfl⟩
  simp only [Diagnostic.ofReport, Assembly.Fault.report, Option.getD_some, hstart]
  rw [if_pos (by omega), pick_natCast hk, Option.getD_some, hget]

theorem exists_report {t : Text} {r : Assembly.Report}
    (h : (assemble Memory.programStart t).rom = .error (.error r)) :
    ∃ k line, ∃ fault : Assembly.Fault,
      (lines t)[k]? = some line ∧ r = fault.report (k + 1 : Nat) line := by
  obtain ⟨above, raw, below, i, hlines, -, hr⟩ := rom_eq_error.mp h
  cases i with
  | endlessNumeral digits => cases hr
  | error fault =>
    cases hr
    exact ⟨above.length, raw, fault, by simp [hlines], rfl⟩

theorem diagnose_marks {t : Text} (h : Diagnosable t) : ∃ diagnostics,
    (diagnose t).found = .ok diagnostics ∧
      (diagnostics = [] ↔ ∃ rom, (assemble Memory.programStart t).rom = .ok rom) ∧
      (diagnostics ≠ [] → ∃ d r k line, diagnostics = [d] ∧
        (assemble Memory.programStart t).rom = .error (.error r) ∧ d.Marks t r k line) := by
  rw [diagnose]
  rcases h with ⟨rom, hrom⟩ | ⟨r, hrom⟩
  · simp only [hrom]
    exact ⟨[], rfl, ⟨fun _ => ⟨rom, rfl⟩, fun _ => rfl⟩, fun hne => absurd rfl hne⟩
  · obtain ⟨k, line, fault, hline, rfl⟩ := exists_report hrom
    simp only [hrom]
    refine ⟨[.ofReport t (fault.report (k + 1 : Nat) line)], rfl, ⟨fun hnil => ?_, ?_⟩, fun _ => ?_⟩
    · exact absurd hnil (List.cons_ne_nil _ _)
    · rintro ⟨rom, hok⟩
      cases hok
    · exact ⟨_, _, k, line, rfl, rfl, ofReport_marks fault hline⟩

def brokenSource : Text := "CLR\x0b; c\r\nRTS\u2028 FROB \r".toList

theorem diagnose_marks_broken : ∃ d r line, (diagnose brokenSource).found = .ok [d] ∧
    d.Marks brokenSource r 3 line ∧ line = " FROB ".toList ∧
    (documentLines brokenSource).length = 5 := by
  have hreport : Diagnosable brokenSource := .inr ⟨_, by rfl⟩
  obtain ⟨diagnostics, hfound, -, hmarks⟩ := diagnose_marks hreport
  have hlines : (diagnose brokenSource).found.map (·.map Diagnostic.line) = .ok [3] := by rfl
  rw [hfound] at hlines
  obtain ⟨d, r, k, line, rfl, -, hd⟩ := hmarks fun hnil => by
    rw [hnil] at hlines
    cases hlines
  obtain rfl : k = 3 := by
    have hstart := hd.start
    have hthree : [d.line] = [3] := Except.ok.inj hlines
    rw [List.singleton_inj.mp hthree] at hstart
    omega
  have hedited : some " FROB ".toList = some line := hd.edited
  exact ⟨d, r, line, hfound, hd, (Option.some.inj hedited).symm, rfl⟩

end Editor

end Chip8
