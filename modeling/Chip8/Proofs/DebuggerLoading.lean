import Chip8.Proofs.DebuggerHistory
import Chip8.Proofs.FilePrograms

namespace Chip8

open Time Storage

namespace Debugger.Session

variable {κ τ : Type} {s t : Session κ τ} {files : Files} {name : Text}

def marks (s : Session κ τ) : Finset Int := (s.machine.map Machine.marks).getD ∅

theorem marks_of_some {m : Machine κ τ} (h : s.machine = some m) : s.marks = m.marks := by
  rw [marks, h]
  rfl

theorem marks_of_none (h : s.machine = none) : s.marks = ∅ := by
  rw [marks, h]
  rfl

variable [Measure τ]

/-- What a load of a file leads to: the program of the file at its start, or no machine, or a
failure that leaves a machine without a program. An unseeded machine draws for itself and again for
the start of the program. What a load prints is taken to be printed. -/
inductive Loads (s : Session κ τ) (files : Files) (name : Text) (marks : Finset Int) :
    Session κ τ × Answer → Prop
  | launched {t : Session κ τ} {answer : Answer} {m : Machine κ τ} {rom : List UInt8}
    (seeded : s.seedless = false) (holds : files.Holds (.parse name) rom)
    (machine : t.machine = some m)
    (launched : m.Launched rom s.seed true (s.currentEntropy.pick s.seed).2)
    (marked : m.marks = marks) (program : t.program = some name) (answered : answer.failure = none) :
    Loads s files name marks (t, answer)
  | refused {t : Session κ τ} {answer : Answer} (unheld : ∀ rom, ¬files.Holds (.parse name) rom)
    (machine : t.machine = none) (program : t.program = s.program)
    (answered : answer.failure = none) : Loads s files name marks (t, answer)
  | escaped {t : Session κ τ} {answer : Answer} {m : Machine κ τ} {e : Failure}
    (seeded : s.seedless = false) (escapes : files.Escapes (.parse name) e)
    (machine : t.machine = some m)
    (launched : m.Launched [] s.seed true s.currentEntropy) (unmarked : m.marks = ∅)
    (program : t.program = s.program) (failed : answer.failure = some e) :
    Loads s files name marks (t, answer)
  | valueless {t : Session κ τ} {answer : Answer} (seedless : s.seedless = true)
    (machine : t.machine = s.machine) (program : t.program = s.program)
    (failed : answer.failure = some .valueless) : Loads s files name marks (t, answer)

theorem Loads.program_ne {marks : Finset Int} {r : Session κ τ × Answer}
    (h : s.Loads files name marks r) (hname : name ≠ []) (hs : s.program ≠ some []) :
    r.1.program ≠ some [] := by
  cases h with
  | launched _ _ _ _ _ program =>
    rw [program]
    exact fun h => hname (Option.some.inj h)
  | refused _ _ program => exact program ▸ hs
  | escaped _ _ _ _ _ program => exact program ▸ hs
  | valueless _ _ program => exact program ▸ hs

inductive Serves (s : Session κ τ) (files : Files) (request : Request) :
    Session κ τ × Answer → Prop
  | idle {r : Session κ τ × Answer} (unwanted : s.wanted request = none)
    (idle : s.Idle request r.1) : Serves s files request r
  | load {r : Session κ τ × Answer} {name : Text} (wanted : s.wanted request = some name)
    (named : name ≠ []) (loads : s.Loads files name (request.carry s.marks) r)
    (settings : r.1.settings = s.settings) (seedless : r.1.seedless = s.seedless) :
    Serves s files request r

theorem Serves.kept {request : Request} {r : Session κ τ × Answer} (h : s.Serves files request r)
    (hs : s.program ≠ some []) : r.1.seedless = s.seedless ∧ r.1.program ≠ some [] := by
  cases h with
  | idle _ idle => exact ⟨idle.seedless, idle.program ▸ hs⟩
  | load _ named loads _ seedless => exact ⟨seedless, loads.program_ne named hs⟩

structure Origin where
  files : Files
  name : Text
  failure : Option Failure
  deriving DecidableEq

structure Stems (last : Option Origin) (s : Session κ τ) : Prop where
  program : s.program ≠ some []
  seedless : s.seedless = true → s.machine = none
  machine {m : Machine κ τ} : s.machine = some m → ∃ o rom, last = some o ∧
    m.processor.Running rom s.settings.seed true ∧
    (o.failure = none ∧ s.program = some o.name ∧ o.files.Holds (.parse o.name) rom ∨
      ∃ e, o.failure = some e ∧ o.files.Escapes (.parse o.name) e ∧ rom = [])

theorem Stems.idle {last : Option Origin} {request : Request} (h : Stems last s)
    (hidle : s.Idle request t) : Stems last t where
  program := hidle.program ▸ h.program
  seedless hseedless := by
    have hmachine := hidle.machine
    rw [h.seedless (hidle.seedless ▸ hseedless)] at hmachine
    generalize t.machine = machine at hmachine ⊢
    cases hmachine
    rfl
  machine {n} hn := by
    have hmachine := hidle.machine
    rw [hn] at hmachine
    cases hs : s.machine with
    | none => rw [hs] at hmachine; cases hmachine
    | some m =>
      rw [hs] at hmachine
      cases hmachine with
      | some hobeys =>
        obtain ⟨o, rom, hlast, hrunning, horigin⟩ := h.machine hs
        rw [hidle.settings, hidle.program]
        exact ⟨o, rom, hlast, hobeys.running hrunning, horigin⟩

theorem Stems.load {last : Option Origin} {marks : Finset Int} {r : Session κ τ × Answer}
    (h : Stems last s) (hname : name ≠ []) (hloads : s.Loads files name marks r)
    (hsettings : r.1.settings = s.settings) (hseedless : r.1.seedless = s.seedless) :
    Stems (some ⟨files, name, r.2.failure⟩) r.1 := by
  have hprogram := hloads.program_ne hname h.program
  have hrunning {m : Machine κ τ} {rom : List UInt8} {e : Entropy}
      (h : m.Launched rom s.seed true e) : m.processor.Running rom r.1.settings.seed true := by
    rw [h.processor, hsettings]
    exact .powerOn _
  cases hloads with
  | @launched t answer m rom seeded holds machine launched _ program answered =>
    refine ⟨hprogram, fun h => ?_, fun hn => ?_⟩
    · rw [hseedless, seeded] at h
      cases h
    · cases machine.symm.trans hn
      exact ⟨_, rom, rfl, hrunning launched, .inl ⟨answered, program, holds⟩⟩
  | refused _ machine =>
    refine ⟨hprogram, fun _ => machine, fun hn => ?_⟩
    cases machine.symm.trans hn
  | @escaped t answer m e seeded escapes machine launched _ _ failed =>
    refine ⟨hprogram, fun h => ?_, fun hn => ?_⟩
    · rw [hseedless, seeded] at h
      cases h
    · cases machine.symm.trans hn
      exact ⟨_, [], rfl, hrunning launched, .inr ⟨e, failed, escapes, rfl⟩⟩
  | @valueless t _ seedless machine =>
    have hnone : t.machine = none := machine.trans (h.seedless seedless)
    refine ⟨hprogram, fun _ => hnone, fun hn => ?_⟩
    cases hnone.symm.trans hn

variable [Clock κ τ]

theorem exists_new (s : Session κ τ) (clock : κ) (entropy : Entropy) :
    ∃ m : Machine κ τ, Machine.new s.settings clock entropy = .ok m ∧
      m.Fresh s.settings entropy := by
  have hspeed : Settings.minSpeed ≤ s.settings.speed ∧ s.settings.speed ≤ Settings.maxSpeed :=
    ⟨show (1 : Int) ≤ 5 by decide, show (5 : Int) ≤ 10 by decide⟩
  obtain ⟨m, hm⟩ : ∃ m : Machine κ τ, Machine.new s.settings clock entropy = .ok m := by
    rw [Machine.new, if_pos hspeed]
    exact ⟨_, rfl⟩
  exact ⟨m, hm, Machine.fresh_of_new hm⟩

theorem loads_load (s : Session κ τ) (files : Files) (hname : name ≠ []) :
    s.Loads files name ∅ (s.load files name) ∧
      (s.load files name).1.settings = s.settings ∧
      (s.load files name).1.seedless = s.seedless := by
  obtain ⟨k, hnew, hfresh⟩ := s.exists_new s.currentClock s.currentEntropy
  have hloads := hfresh.loads files name
  have hnew : Machine.new { s with clock := s.currentClock, entropy := s.currentEntropy }.settings
      s.currentClock s.currentEntropy = .ok k := hnew
  rw [load, if_neg hname]
  simp only [hnew]
  split_ifs with hseedless
  · exact ⟨.valueless hseedless rfl rfl rfl, rfl, rfl⟩
  · have hseeded : s.seedless = false := Bool.eq_false_iff.mpr hseedless
    generalize k.loadProgram files name = r at hloads
    cases hloads with
    | @launched m rom holds launched breakpoints =>
      have marked : m.marks = ∅ := by rw [Machine.marks, breakpoints, List.toFinset_nil]
      exact ⟨.launched hseeded holds rfl { launched with } marked rfl rfl, rfl, rfl⟩
    | refused unheld reported =>
      simp only [reported]
      exact ⟨.refused unheld rfl rfl rfl, rfl, trivial⟩
    | @escaped m e escapes fresh =>
      have unmarked : m.marks = ∅ := by rw [Machine.marks, fresh.breakpoints, List.toFinset_nil]
      simp only [escapes.unreported]
      exact ⟨.escaped hseeded escapes rfl { fresh.launched with } unmarked rfl rfl, rfl, trivial⟩

theorem loads_reload (held : s.program = some name) (files : Files) (hname : name ≠ []) :
    s.Loads files name s.marks (s.reload files) ∧
      (s.reload files).1.settings = s.settings ∧
      (s.reload files).1.seedless = s.seedless := by
  obtain ⟨hloads, hsettings, hseedless⟩ := s.loads_load files hname
  simp only [reload, held]
  generalize s.load files name = r at hloads hsettings hseedless
  cases hloads with
  | @launched t answer m rom seeded holds machine launched marked program answered =>
    obtain ⟨breakpoints, hfold, hbreakpoints⟩ :=
      Machine.foldl_setBreakpoint ((s.machine.map Machine.breakpoints).getD []) m
    have hmarks : ({ m with breakpoints } : Machine κ τ).marks = s.marks := by
      rw [marked, Finset.empty_union] at hbreakpoints
      rw [Machine.marks, hbreakpoints]
      cases hs : s.machine with
      | none => exact (marks_of_none hs).symm
      | some k => exact (marks_of_some hs).symm
    simp only [answered, machine, Option.map_some, hfold]
    exact ⟨.launched seeded holds rfl { launched with } hmarks program answered, hsettings,
      hseedless⟩
  | refused unheld machine program answered =>
    simp only [answered, machine]
    exact ⟨.refused unheld rfl program answered, hsettings, hseedless⟩
  | escaped seeded escapes machine launched unmarked program failed =>
    simp only [failed]
    exact ⟨.escaped seeded escapes machine launched unmarked program failed, hsettings, hseedless⟩
  | valueless seedless machine program failed =>
    simp only [failed]
    exact ⟨.valueless seedless machine program failed, hsettings, hseedless⟩

theorem loads_perform {request : Request} (wanted : s.wanted request = some name)
    (hname : name ≠ []) (files : Files) (fuel : Nat) :
    ∃ r, s.perform files fuel request = some r ∧ s.Loads files name (request.carry s.marks) r ∧
      r.1.settings = s.settings ∧ r.1.seedless = s.seedless := by
  cases request with
  | nothing | unknown => cases wanted
  | command verb argument =>
    cases verb with
    | load =>
      obtain rfl : argument = name := by
        simp only [Session.wanted] at wanted
        split_ifs at wanted
        exact Option.some.inj wanted
      exact ⟨_, rfl, s.loads_load files hname⟩
    | reload =>
      have held : s.program = some name := wanted
      exact ⟨_, rfl, loads_reload held files hname⟩
    | _ => cases wanted

theorem serves_perform {request : Request} {fuel : Nat} {r : Session κ τ × Answer}
    (h : s.program ≠ some []) (performed : s.perform files fuel request = some r) :
    s.Serves files request r := by
  cases hwanted : s.wanted request with
  | none => exact .idle hwanted (idle_perform hwanted performed)
  | some name =>
    have hname := wanted_ne_nil h hwanted
    obtain ⟨r', hr, hloads, hsettings, hseedless⟩ := loads_perform hwanted hname files fuel
    cases performed.symm.trans hr
    exact .load hwanted hname hloads hsettings hseedless

def origin (s : Session κ τ) (last : Option Origin) : List Moment → Option Origin
  | [] => last
  | e :: rest =>
    match s.perform e.files e.fuel e.request with
    | none => last
    | some (t, answer) =>
      t.origin (((s.wanted e.request).map fun name => ⟨e.files, name, answer.failure⟩).or last) rest

theorem Stems.after {last : Option Origin} {moments : List Moment} (h : Stems last s)
    (hafter : s.after moments = some t) : Stems (s.origin last moments) t := by
  induction moments generalizing s last with
  | nil =>
    cases hafter
    exact h
  | cons e rest ih =>
    obtain ⟨u, answer, hperform, hrest⟩ := after_cons hafter
    rw [origin, hperform]
    apply ih _ hrest
    cases serves_perform h.program hperform with
    | idle unwanted idle =>
      rw [unwanted]
      exact h.idle idle
    | load wanted named loads settings seedless =>
      rw [wanted]
      exact h.load named loads settings seedless

/-- Any load of a file is answered, with the program of the file at its start or with no machine,
but for files that escape it, which leave a machine without a program. What the machine of a session
runs comes from the last load. -/
theorem load_outcomes :
    (∀ (s : Session κ τ) (request : Request) (name : Text) (files : Files) (fuel : Nat),
      s.wanted request = some name → name ≠ [] →
        ∃ r, s.perform files fuel request = some r ∧
          s.Loads files name (request.carry s.marks) r) ∧
    ∀ (seed : Option Int) (seedless : Bool) (clock : κ) (entropy : Entropy) (moments : List Moment)
      (t : Session κ τ), { new seed clock entropy with seedless }.after moments = some t →
        Stems ({ new seed clock entropy with seedless }.origin none moments) t := by
  constructor
  · intro s request name files fuel hwanted hname
    obtain ⟨r, hr, hloads, -, -⟩ := loads_perform hwanted hname files fuel
    exact ⟨r, hr, hloads⟩
  · intro seed seedless clock entropy moments t hafter
    have hstart : Stems none ({ new seed clock entropy with seedless } : Session κ τ) := by
      refine ⟨(Option.some_ne_none _).symm, fun _ => rfl, fun hm => ?_⟩
      cases hm
    exact hstart.after hafter

theorem load_outcomes_image : ∃ s t : Session (VirtualClock Float) Float,
    s = new (some 7) (.start 0 0) default ∧ s.wanted (.command .load ['a']) = some ['a'] ∧
    (∃ r, s.perform [([['a']], .file [0x12, 0x00])] 0 (.command .load ['a']) = some r ∧
      s.Loads [([['a']], .file [0x12, 0x00])] ['a'] ∅ r) ∧
    s.after [⟨[([['a']], .file [0x12, 0x00])], 0, .command .load ['a']⟩,
      ⟨[], 0, .command .step []⟩] = some t ∧ t.machine.isSome = true ∧
    Stems (some ⟨[([['a']], .file [0x12, 0x00])], ['a'], none⟩) t := by
  let s : Session (VirtualClock Float) Float := new (some 7) (.start 0 0) default
  let files : Files := [([['a']], .file [0x12, 0x00])]
  let moments : List Moment :=
    [⟨files, 0, .command .load ['a']⟩, ⟨[], 0, .command .step []⟩]
  obtain ⟨hload, hstems⟩ := load_outcomes (κ := VirtualClock Float) (τ := Float)
  have hheld : ((s.after moments).bind Session.machine).isSome = true := by decide +kernel
  obtain ⟨m, hm⟩ := Option.isSome_iff_exists.mp hheld
  obtain ⟨t, ht, hmachine⟩ := Option.bind_eq_some_iff.mp hm
  have horigin : s.origin none moments = some ⟨files, ['a'], none⟩ := by decide +kernel
  have hstems := hstems (some 7) false (.start 0 0) default moments t ht
  refine ⟨s, t, rfl, rfl, hload s _ _ files 0 rfl (by decide), ht, ?_, ?_⟩
  · rw [hmachine]
    rfl
  · rw [← horigin]
    exact hstems

theorem load_escapes :
    ((new (some 7) (.start 0 0) default : Session (VirtualClock Float) Float).after
        [⟨[([['a']], .file [0x12, 0x00])], 0, .command .load ['a']⟩]).bind
      (fun s => (s.perform [([['b', '.', 's']], .file [0xFF])] 0
        (.command .load ['b', '.', 's'])).map
          fun r => (r.2.failure, r.1.program, r.1.machine.map fun m => m.processor.rom)) =
    some (some (.storage .badText), some ['a'], some []) := by
  decide +kernel

end Debugger.Session

end Chip8
