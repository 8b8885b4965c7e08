import Chip8.Proofs.DebuggerLoading

namespace Chip8.Debugger.Session

open Time Storage

variable {κ τ : Type} {s t : Session κ τ} {files : Files} {request : Request}
  {r : Session κ τ × Answer} {moments : List Moment}

def Succeeds (r : Session κ τ × Answer) : Prop := r.1.machine.isSome = true ∧ r.2.failure = none

instance (r : Session κ τ × Answer) : Decidable (Succeeds r) := instDecidableAnd

def amend (keeping : Bool) (s : Session κ τ) (marks : Finset Int) (request : Request)
    (r : Session κ τ × Answer) : Finset Int :=
  match s.wanted request with
  | none => if s.machine.isSome then request.edit marks else marks
  | some _ => if Succeeds r then request.carry marks else if keeping then marks else ∅

variable [Measure τ]

theorem Idle.marks_eq (h : s.Idle request t) :
    t.marks = if s.machine.isSome then request.edit s.marks else s.marks := by
  have hmachine := h.machine
  generalize ht : t.machine = machine at hmachine
  cases hs : s.machine with
  | none =>
    rw [hs] at hmachine
    cases hmachine
    rw [marks_of_none ht, marks_of_none hs]
    rfl
  | some m =>
    rw [hs] at hmachine
    cases hmachine with
    | some hobeys =>
      rw [marks_of_some ht, marks_of_some hs]
      exact hobeys.marks

theorem Loads.marks_eq {name : Text} {marks : Finset Int} (h : s.Loads files name marks r)
    (seeded : s.seedless = false) : r.1.marks = if Succeeds r then marks else ∅ := by
  cases h with
  | launched _ _ machine _ marked _ answered =>
    rw [marks_of_some machine, marked]
    exact (if_pos ⟨by rw [machine]; rfl, answered⟩).symm
  | refused _ machine =>
    rw [marks_of_none machine]
    refine (if_neg ?_).symm
    rintro ⟨hsome, -⟩
    rw [machine] at hsome
    cases hsome
  | escaped _ _ machine _ unmarked _ failed =>
    rw [marks_of_some machine, unmarked]
    refine (if_neg ?_).symm
    rintro ⟨-, hnone⟩
    rw [failed] at hnone
    cases hnone
  | valueless seedless =>
    rw [seeded] at seedless
    cases seedless

theorem Loads.of_succeeds {name : Text} {marks : Finset Int} (h : s.Loads files name marks r)
    (hsucceeds : Succeeds r) : s.seedless = false ∧ r.1.program = some name := by
  obtain ⟨hsome, hnone⟩ := hsucceeds
  cases h with
  | launched seeded _ _ _ _ program => exact ⟨seeded, program⟩
  | refused _ machine =>
    rw [machine] at hsome
    cases hsome
  | escaped _ _ _ _ _ _ failed => cases failed.symm.trans hnone
  | valueless _ _ _ failed => cases failed.symm.trans hnone

theorem Serves.marks_eq (h : s.Serves files request r) (seeded : s.seedless = false) :
    r.1.marks = s.amend false s.marks request r := by
  cases h with
  | idle unwanted idle =>
    rw [amend, unwanted]
    exact idle.marks_eq
  | load wanted named loads =>
    rw [amend, wanted]
    exact loads.marks_eq seeded

variable [Clock κ τ]

def tally (keeping : Bool) (s : Session κ τ) (marks : Finset Int) : List Moment → Finset Int
  | [] => marks
  | e :: rest =>
    match s.perform e.files e.fuel e.request with
    | none => marks
    | some r => r.1.tally keeping (s.amend keeping marks e.request r) rest

def unfailing (s : Session κ τ) : List Moment → Bool
  | [] => true
  | e :: rest =>
    match s.perform e.files e.fuel e.request with
    | none => true
    | some r => ((s.wanted e.request).isNone || decide (Succeeds r)) && r.1.unfailing rest

theorem tally_of_unfailing (h : s.unfailing moments = true) (marks : Finset Int) :
    s.tally false marks moments = s.tally true marks moments := by
  induction moments generalizing s marks with
  | nil => rfl
  | cons e rest ih =>
    rw [unfailing] at h
    rw [tally, tally]
    cases hperform : s.perform e.files e.fuel e.request with
    | none => rfl
    | some r =>
      simp only [hperform, Bool.and_eq_true, Bool.or_eq_true, decide_eq_true_eq] at h
      obtain ⟨hsucceeds, hrest⟩ := h
      have hamend : s.amend false marks e.request r = s.amend true marks e.request r := by
        rw [amend, amend]
        cases hwanted : s.wanted e.request with
        | none => rfl
        | some name =>
          rw [hwanted] at hsucceeds
          have hsucceeds : Succeeds r := hsucceeds.resolve_left Bool.false_ne_true
          exact (if_pos hsucceeds).trans (if_pos hsucceeds).symm
      simp only [hamend]
      exact ih hrest _

theorem marks_after (seeded : s.seedless = false) (hprogram : s.program ≠ some [])
    (hafter : s.after moments = some t) : t.seedless = false ∧ t.program ≠ some [] ∧
      t.marks = s.tally false s.marks moments := by
  induction moments generalizing s with
  | nil =>
    cases hafter
    exact ⟨seeded, hprogram, rfl⟩
  | cons e rest ih =>
    obtain ⟨u, answer, hperform, hrest⟩ := after_cons hafter
    have hserves := serves_perform hprogram hperform
    obtain ⟨hseedless, hnamed⟩ := hserves.kept hprogram
    simp only [tally, hperform]
    rw [← hserves.marks_eq seeded]
    exact ih (hseedless.trans seeded) hnamed hrest

theorem marks_reload (seeded : s.seedless = false) (hprogram : s.program ≠ some [])
    (hsucceeds : Succeeds (s.reload files)) : (s.reload files).1.marks = s.marks := by
  cases held : s.program with
  | none => simp only [reload, held]
  | some name =>
    have hname : name ≠ [] := by
      rintro rfl
      exact hprogram held
    obtain ⟨hloads, -, -⟩ := loads_reload held files hname
    exact (hloads.marks_eq seeded).trans (if_pos hsucceeds)

/-- A reload that succeeds leaves the breakpoints asked for since the load before it, but for those
asked for before a load that failed. -/
theorem reload_marks {s₀ : Session κ τ} {files₀ : Files} {name : Text} (hname : name ≠ [])
    (hload : s = (s₀.load files₀ name).1) (hloaded : Succeeds (s₀.load files₀ name))
    (hafter : s.after moments = some t) (hreloaded : Succeeds (t.reload files)) :
    (t.reload files).1.marks = s.tally false ∅ moments ∧
      (s.unfailing moments = true →
        (t.reload files).1.marks = s.tally true ∅ moments) := by
  obtain ⟨hloads, -, hseedless⟩ := s₀.loads_load files₀ hname
  obtain ⟨seeded, hprogram⟩ := hloads.of_succeeds hloaded
  have hmarks := (hloads.marks_eq seeded).trans (if_pos hloaded)
  rw [← hload] at hseedless hprogram hmarks
  have hnamed : s.program ≠ some [] := by
    rw [hprogram]
    exact fun h => hname (Option.some.inj h)
  obtain ⟨hseeded, hnamed, hkept⟩ := marks_after (hseedless.trans seeded) hnamed hafter
  have hreload := (marks_reload hseeded hnamed hreloaded).trans hkept
  rw [hmarks] at hreload
  refine ⟨hreload, fun hunfailing => ?_⟩
  rw [hreload, tally_of_unfailing hunfailing]

theorem reload_marks_edited : ∃ r t,
    r = (new (some 7) (.start 0 0) default : Session (VirtualClock Float) Float).load
      [([['a']], .file [0x12, 0x00])] ['a'] ∧ Succeeds r ∧
    r.1.after [⟨[], 0, .command .mark "$200".toList⟩,
      ⟨[([['a']], .file [0x12, 0x00])], 0, .command .reload []⟩,
      ⟨[], 0, .command .mark "516".toList⟩, ⟨[], 0, .command .delete "0x200".toList⟩] = some t ∧
    Succeeds (t.reload [([['a']], .file [0x00, 0xE0])]) ∧
    (t.reload [([['a']], .file [0x00, 0xE0])]).1.marks = {0x204} := by
  let files : Files := [([['a']], .file [0x12, 0x00])]
  let r := (new (some 7) (.start 0 0) default : Session (VirtualClock Float) Float).load files ['a']
  let moments : List Moment :=
    [⟨[], 0, .command .mark "$200".toList⟩, ⟨files, 0, .command .reload []⟩,
      ⟨[], 0, .command .mark "516".toList⟩, ⟨[], 0, .command .delete "0x200".toList⟩]
  have hreloads : (r.1.after moments).any
      (fun t => decide (Succeeds (t.reload [([['a']], .file [0x00, 0xE0])]))) = true := by
    decide +kernel
  obtain ⟨t, ht, hreloaded⟩ := (Option.any_eq_true _ _).mp hreloads
  have hreloaded := of_decide_eq_true hreloaded
  have hloaded : Succeeds r := by decide +kernel
  have hunfailing : r.1.unfailing moments = true := by decide +kernel
  have htally : r.1.tally true ∅ moments = {0x204} := by decide +kernel
  obtain ⟨-, hmarks⟩ := reload_marks (by decide) rfl hloaded ht hreloaded
  exact ⟨r, t, rfl, hloaded, ht, hreloaded, (hmarks hunfailing).trans htally⟩

theorem reload_forgets : ∃ r,
    r = (new (some 7) (.start 0 0) default : Session (VirtualClock Float) Float).load
      [([['a']], .file [0x12, 0x00])] ['a'] ∧ Succeeds r ∧
    (r.1.after [⟨[], 0, .command .mark "$200".toList⟩, ⟨[], 0, .command .reload []⟩]).map
      (fun t => (decide (Succeeds (t.reload [([['a']], .file [0x12, 0x00])])),
        (t.reload [([['a']], .file [0x12, 0x00])]).1.marks)) = some (true, ∅) ∧
    r.1.tally true ∅ [⟨[], 0, .command .mark "$200".toList⟩, ⟨[], 0, .command .reload []⟩] =
      {0x200} :=
  ⟨_, rfl, by decide +kernel, by decide +kernel, by decide +kernel⟩

end Chip8.Debugger.Session
