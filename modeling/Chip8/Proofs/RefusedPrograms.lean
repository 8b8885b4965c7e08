import Chip8.Proofs.FilePrograms

namespace Chip8

open Time Storage

def Failure.named (name : Text) : Failure → Failure
  | load cause => machine (.loading name cause)
  | e => e

inductive SourceFails (source : Text) : Failure → Prop
  | unassembled {report : Assembly.Report}
    (refused : (assemble Memory.programStart source).rom = .error (.error report)) :
    SourceFails source (.load (.assembly report))
  | endlessNumeral {digits : Nat}
    (endless : (assemble Memory.programStart source).rom = .error (.endlessNumeral digits)) :
    SourceFails source .endlessNumeral
  | oversized {rom : List UInt8} (assembled : (assemble Memory.programStart source).rom = .ok rom)
    (large : 3232 < rom.length) : SourceFails source (.load (.tooLarge ⟨rom.length, 3232⟩))

inductive FileFails (files : Files) (path : Path) : Failure → Prop
  | unread {fault : Fault} (named : Machine.namesSource path = false)
    (read : files.read path.render = .error fault) : FileFails files path (.storage fault)
  | oversized {rom : List UInt8} (named : Machine.namesSource path = false)
    (read : files.read path.render = .ok rom) (large : 3232 < rom.length) :
    FileFails files path (.load (.tooLarge ⟨rom.length, 3232⟩))
  | unreadText {fault : Fault} (named : Machine.namesSource path = true)
    (read : files.readText path.render = .error fault) : FileFails files path (.storage fault)
  | source {text : Text} {e : Failure} (named : Machine.namesSource path = true)
    (read : files.readText path.render = .ok text) (fails : SourceFails text e) :
    FileFails files path e

namespace Machine

variable {κ τ : Type} {files : Files} {path : Path} {e : Failure}

inductive Attempts (m : Machine κ τ) : Machine κ τ × Except Failure Unit → Prop
  | done (n : Machine κ τ) : Attempts m (n, .ok ())
  | failed (entries : List LogEntry) (e : Failure) : Attempts m (m.logAll entries, .error e)

theorem Attempts.of_error {m : Machine κ τ} {r : Machine κ τ × Except Failure Unit}
    (h : m.Attempts r) (failed : r.2 = .error e) : ∃ entries, r.1 = m.logAll entries := by
  cases h with
  | done n => cases failed
  | failed entries e => exact ⟨entries, rfl⟩

variable [Measure τ]

theorem exists_loadRom_eq_ok (m : Machine κ τ) {rom : List UInt8} (h : rom.length ≤ 3232) :
    ∃ n, m.loadRom rom = (n, .ok ()) := by
  rw [loadRom, Processor.loadRom_eq_ok.mpr ⟨h, rfl⟩]
  exact ⟨_, rfl⟩

theorem loadRom_snd_eq_error (m : Machine κ τ) (rom : List UInt8) :
    (m.loadRom rom).2 = .error e ↔
      3232 < rom.length ∧ e = .load (.tooLarge ⟨rom.length, 3232⟩) := by
  by_cases hsize : rom.length ≤ 3232
  · obtain ⟨n, hload⟩ := m.exists_loadRom_eq_ok hsize
    rw [hload]
    constructor
    · intro h
      cases h
    · exact fun h => absurd h.1 (Nat.not_lt.mpr hsize)
  · have hlarge := Nat.not_le.mp hsize
    rw [loadRom_eq_error m hlarge]
    constructor
    · intro h
      cases h
      exact ⟨hlarge, rfl⟩
    · rintro ⟨-, rfl⟩
      rfl

theorem loadRom_of_error {m : Machine κ τ} {rom : List UInt8} (h : (m.loadRom rom).2 = .error e) :
    (m.loadRom rom).1 = m := by
  rw [loadRom_eq_error m ((m.loadRom_snd_eq_error rom).mp h).1]

theorem attempts_loadRom (m : Machine κ τ) (entries : List LogEntry) (rom : List UInt8) :
    m.Attempts ((m.logAll entries).loadRom rom) := by
  by_cases hsize : rom.length ≤ 3232
  · obtain ⟨n, hload⟩ := (m.logAll entries).exists_loadRom_eq_ok hsize
    rw [hload]
    exact .done n
  · rw [loadRom_eq_error _ (Nat.not_le.mp hsize)]
    exact .failed entries _

theorem attempts_loadSource (m : Machine κ τ) (source : Text) :
    m.Attempts (m.loadSource source) := by
  simp only [loadSource]
  split
  · exact m.attempts_loadRom _ _
  · exact .failed _ _
  · exact .failed _ _

theorem loadSource_snd_eq_error (m : Machine κ τ) (source : Text) :
    (m.loadSource source).2 = .error e ↔ SourceFails source e := by
  constructor
  · intro h
    rw [loadSource] at h
    cases hrom : (assemble Memory.programStart source).rom with
    | ok rom =>
      simp only [hrom] at h
      obtain ⟨hlarge, rfl⟩ := (loadRom_snd_eq_error _ rom).mp h
      exact .oversized hrom hlarge
    | error interruption =>
      cases interruption with
      | error report =>
        simp only [hrom] at h
        cases h
        exact .unassembled hrom
      | endlessNumeral digits =>
        simp only [hrom] at h
        cases h
        exact .endlessNumeral hrom
  · intro h
    cases h with
    | unassembled refused => simp only [loadSource, refused]
    | endlessNumeral endless => simp only [loadSource, endless]
    | @oversized rom assembled large =>
      simp only [loadSource, assembled]
      exact (loadRom_snd_eq_error _ rom).mpr ⟨large, rfl⟩

theorem attempts_loadNamed (m : Machine κ τ) (files : Files) (path : Path) :
    m.Attempts (m.loadNamed files path) := by
  rw [loadNamed]
  split_ifs
  · split
    · exact m.attempts_loadSource _
    · exact .failed [] _
  · split
    · exact m.attempts_loadRom [] _
    · exact .failed [] _

theorem loadNamed_snd_eq_error (m : Machine κ τ) (files : Files) (path : Path) :
    (m.loadNamed files path).2 = .error e ↔ FileFails files path e := by
  constructor
  · intro h
    cases hnamed : namesSource path with
    | false =>
      cases hread : files.read path.render with
      | error fault =>
        rw [loadNamed, if_neg (Bool.eq_false_iff.mp hnamed), hread] at h
        cases h
        exact .unread hnamed hread
      | ok rom =>
        rw [m.loadNamed_of_read hnamed hread] at h
        obtain ⟨hlarge, rfl⟩ := (m.loadRom_snd_eq_error rom).mp h
        exact .oversized hnamed hread hlarge
    | true =>
      cases hread : files.readText path.render with
      | error fault =>
        rw [loadNamed, if_pos hnamed, hread] at h
        cases h
        exact .unreadText hnamed hread
      | ok source =>
        rw [m.loadNamed_of_readText hnamed hread] at h
        exact .source hnamed hread ((m.loadSource_snd_eq_error source).mp h)
  · intro h
    cases h with
    | unread named read => rw [loadNamed, if_neg (Bool.eq_false_iff.mp named), read]
    | @oversized rom named read large =>
      rw [m.loadNamed_of_read named read]
      exact (m.loadRom_snd_eq_error rom).mpr ⟨large, rfl⟩
    | unreadText named read => rw [loadNamed, if_pos named, read]
    | @source text _ named read fails =>
      rw [m.loadNamed_of_readText named read]
      exact (m.loadSource_snd_eq_error text).mpr fails

theorem attempts_loadProgram (m : Machine κ τ) (files : Files) (name : Text) :
    m.Attempts (m.loadProgram files name) := by
  have hnamed := m.attempts_loadNamed files (.parse name)
  simp only [loadProgram]
  generalize m.loadNamed files (.parse name) = r at hnamed
  cases hnamed with
  | done n => exact .done _
  | failed entries e => cases e <;> exact .failed entries _

theorem loadProgram_snd (m : Machine κ τ) (files : Files) (name : Text) :
    (m.loadProgram files name).2 =
      (m.loadNamed files (.parse name)).2.mapError (Failure.named name) := by
  simp only [loadProgram]
  rcases m.loadNamed files (.parse name) with ⟨n, e | ⟨⟩⟩
  · cases e <;> rfl
  · rfl

/-- A load that fails leaves the machine as it was, up to the log. An image is refused if and only
if it is too large. What is wrong with the source or the image in a file comes out as a failure of
the machine that names the file, and never as it is. -/
theorem refused_load_keeps (m : Machine κ τ) :
    (∀ rom e, (m.loadRom rom).2 = .error e ↔
      3232 < rom.length ∧ e = .load (.tooLarge ⟨rom.length, 3232⟩)) ∧
    (∀ rom e, (m.loadRom rom).2 = .error e → (m.loadRom rom).1 = m) ∧
    (∀ source e, (m.loadSource source).2 = .error e ↔ SourceFails source e) ∧
    (∀ source e, (m.loadSource source).2 = .error e →
      ∃ entries, (m.loadSource source).1 = m.logAll entries) ∧
    (∀ files name e, (m.loadProgram files name).2 = .error e ↔
      ∃ cause, FileFails files (.parse name) cause ∧ cause.named name = e) ∧
    (∀ files name cause, (m.loadProgram files name).2 ≠ .error (.load cause)) ∧
    ∀ files name e, (m.loadProgram files name).2 = .error e →
      ∃ entries, (m.loadProgram files name).1 = m.logAll entries := by
  refine ⟨fun rom e => m.loadRom_snd_eq_error rom, fun rom e => loadRom_of_error,
    fun source e => m.loadSource_snd_eq_error source,
    fun source e => (m.attempts_loadSource source).of_error, ?_, ?_,
    fun files name e => (m.attempts_loadProgram files name).of_error⟩
  · intro files name e
    simp only [loadProgram_snd, Except.mapError_eq_error, loadNamed_snd_eq_error]
  · intro files name cause h
    rw [loadProgram_snd, Except.mapError_eq_error] at h
    obtain ⟨e, -, he⟩ := h
    cases e <;> cases he

theorem refused_load_keeps_running : ∃ m : Machine (VirtualClock Float) Float,
    m.processor.rom = [0x12, 0x00] ∧
    (m.loadRom (List.replicate 3233 0)).1 = m ∧
    (∃ entries, (m.loadSource ['X']).1 = m.logAll entries) ∧
    (∃ entries, (m.loadProgram [] ['a', '.', 's']).1 = m.logAll entries) ∧
    (m.loadProgram [([['a', '.', 's']], .file [0x58])] ['a', '.', 's']).2 =
      .error (.machine (.loading ['a', '.', 's']
        (.assembly ((Assembly.Fault.unknownInstruction ['X']).report 1 ['X'])))) := by
  let f : Machine (VirtualClock Float) Float :=
    (new { windowed := false, seed := some 7 } (.start 0 0) default).toOption.get rfl
  let m := (f.loadRom [0x12, 0x00]).1
  let files : Files := [([['a', '.', 's']], .file [0x58])]
  obtain ⟨hlarge, hrom, hunknown, hsource, hcause, -, hprogram⟩ := refused_load_keeps m
  have hlarge := (hlarge (List.replicate 3233 0) _).mpr
    ⟨by rw [List.length_replicate]; decide, rfl⟩
  have hfails : SourceFails ['X']
      (.load (.assembly ((Assembly.Fault.unknownInstruction ['X']).report 1 ['X']))) :=
    .unassembled (by decide +kernel)
  have hread : files.readText (Path.parse ['a', '.', 's']).render = .ok ['X'] := by decide +kernel
  have habsent : (m.loadProgram [] ['a', '.', 's']).2 =
      .error (.storage (.refused .notFound ['a', '.', 's'])) := by decide +kernel
  exact ⟨m, rfl, hrom _ _ hlarge, hsource _ _ ((hunknown _ _).mpr hfails), hprogram _ _ _ habsent,
    (hcause files _ _).mpr ⟨_, .source (by decide +kernel) hread hfails, rfl⟩⟩

end Machine

end Chip8
