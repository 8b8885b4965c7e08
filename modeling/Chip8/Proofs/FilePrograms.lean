import Chip8.Proofs.ForgottenHistory

namespace Chip8

open Time Storage

namespace Storage.Files

variable {files : Files} {path : Path} {t : Text} {fault : Fault} {rom rom' : List UInt8}

theorem read_eq_error (h : files.read t = .error fault) :
    (∃ cause, fault = .refused cause t) ∨ fault = .badName ∧ '\x00' ∈ t := by
  rw [read] at h
  split_ifs at h with hnull
  · cases h
    exact .inr ⟨rfl, hnull⟩
  · split at h
    · cases h
      exact .inl ⟨_, rfl⟩
    · cases h
      exact .inl ⟨_, rfl⟩
    · cases h

theorem readText_eq_error (h : files.readText t = .error fault) :
    files.read t = .error fault ∨ fault = .badText ∧
      ∃ bytes, files.read t = .ok bytes ∧ String.fromUTF8? ⟨bytes.toArray⟩ = none := by
  rw [readText, Except.bind_eq_error] at h
  rcases h with h | ⟨bytes, hread, h⟩
  · exact .inl h
  · split at h
    · rename_i hinvalid
      cases h
      exact .inr ⟨rfl, bytes, hread, hinvalid⟩
    · cases h

inductive Spells (files : Files) (path : Path) (rom : List UInt8) : Prop
  | image (named : Machine.namesSource path = false) (read : files.read path.render = .ok rom)
  | source {source : Text} (named : Machine.namesSource path = true)
    (read : files.readText path.render = .ok source)
    (assembled : (assemble Memory.programStart source).rom = .ok rom)

def Holds (files : Files) (path : Path) (rom : List UInt8) : Prop :=
  files.Spells path rom ∧ rom.length ≤ 3232

inductive Escapes (files : Files) (path : Path) : Failure → Prop
  | badName (null : '\x00' ∈ path.render) : Escapes files path (.storage .badName)
  | badText {bytes : List UInt8} (named : Machine.namesSource path = true)
    (read : files.read path.render = .ok bytes)
    (invalid : String.fromUTF8? ⟨bytes.toArray⟩ = none) : Escapes files path (.storage .badText)
  | endlessNumeral {source : Text} {digits : Nat} (named : Machine.namesSource path = true)
    (read : files.readText path.render = .ok source)
    (endless : (assemble Memory.programStart source).rom = .error (.endlessNumeral digits)) :
    Escapes files path .endlessNumeral

theorem Escapes.unreported {e : Failure} (h : files.Escapes path e) :
    Debugger.Session.reported? e = none := by
  cases h <;> rfl

theorem escapes_of_read (h : files.read path.render = .error fault) :
    (∃ cause t, fault = .refused cause t) ∨ files.Escapes path (.storage fault) := by
  rcases read_eq_error h with ⟨cause, rfl⟩ | ⟨rfl, hnull⟩
  · exact .inl ⟨cause, _, rfl⟩
  · exact .inr (.badName hnull)

theorem escapes_of_readText (hnamed : Machine.namesSource path = true)
    (h : files.readText path.render = .error fault) :
    (∃ cause t, fault = .refused cause t) ∨ files.Escapes path (.storage fault) := by
  rcases readText_eq_error h with hread | ⟨rfl, bytes, hread, hinvalid⟩
  · exact escapes_of_read hread
  · exact .inr (.badText hnamed hread hinvalid)

namespace Spells

theorem read_eq (h : files.Spells path rom) (hnamed : Machine.namesSource path = false) :
    files.read path.render = .ok rom := by
  cases h with
  | image _ read => exact read
  | source named => cases hnamed.symm.trans named

theorem readText_eq (h : files.Spells path rom) (hnamed : Machine.namesSource path = true) :
    ∃ source, files.readText path.render = .ok source ∧
      (assemble Memory.programStart source).rom = .ok rom := by
  cases h with
  | image named => cases hnamed.symm.trans named
  | source _ read assembled => exact ⟨_, read, assembled⟩

theorem unique (h : files.Spells path rom) (h' : files.Spells path rom') : rom' = rom := by
  cases h with
  | image named read => exact Except.ok.inj ((h'.read_eq named).symm.trans read)
  | source named read assembled =>
    obtain ⟨source', read', assembled'⟩ := h'.readText_eq named
    cases read'.symm.trans read
    exact Except.ok.inj (assembled'.symm.trans assembled)

end Spells

end Storage.Files

namespace Machine

variable {κ τ : Type} [Measure τ] {settings : Settings} {entropy : Entropy} {m : Machine κ τ}
  {files : Files} {path : Path}

structure Fresh (settings : Settings) (entropy : Entropy) (m : Machine κ τ) : Prop where
  configured : m.Configured settings
  launched : m.Launched [] settings.seed settings.advancing entropy
  breakpoints : m.breakpoints = []

inductive Loads (settings : Settings) (entropy : Entropy) (files : Files) (path : Path) :
    Machine κ τ × Except Failure Unit → Prop
  | launched {m : Machine κ τ} {rom : List UInt8} (holds : files.Holds path rom)
    (launched : m.Launched rom settings.seed settings.advancing (entropy.pick settings.seed).2)
    (breakpoints : m.breakpoints = []) : Loads settings entropy files path (m, .ok ())
  | refused {m : Machine κ τ} {e : Failure} {message : String}
    (unheld : ∀ rom, ¬files.Holds path rom)
    (reported : Debugger.Session.reported? e = some message) :
    Loads settings entropy files path (m, .error e)
  | escaped {m : Machine κ τ} {e : Failure} (escapes : files.Escapes path e)
    (fresh : m.Fresh settings entropy) : Loads settings entropy files path (m, .error e)

theorem loadNamed_of_read (m : Machine κ τ) {rom : List UInt8} (named : namesSource path = false)
    (read : files.read path.render = .ok rom) : m.loadNamed files path = m.loadRom rom := by
  rw [loadNamed, if_neg (Bool.eq_false_iff.mp named), read]

theorem loadNamed_of_readText (m : Machine κ τ) {source : Text} (named : namesSource path = true)
    (read : files.readText path.render = .ok source) :
    m.loadNamed files path = m.loadSource source := by
  rw [loadNamed, if_pos named, read]

theorem Fresh.logAll (h : m.Fresh settings entropy) (entries : List LogEntry) :
    (m.logAll entries).Fresh settings entropy :=
  ⟨⟨h.configured.configured, h.configured.processor⟩, { h.launched with }, h.breakpoints⟩

theorem breakpoints_loadRom (m : Machine κ τ) (rom : List UInt8) :
    (m.loadRom rom).1.breakpoints = m.breakpoints := by
  rw [loadRom]
  cases m.processor.loadRom rom with
  | error e => rfl
  | ok q => rfl

theorem Fresh.loads_of_loadRom (h : m.Fresh settings entropy) {k : Machine κ τ} {name : Text}
    {rom : List UInt8} (spells : files.Spells (.parse name) rom)
    (hload : k.loadNamed files (.parse name) = m.loadRom rom) :
    Loads settings entropy files (.parse name) (k.loadProgram files name) := by
  simp only [loadProgram, hload]
  by_cases hsize : rom.length ≤ Memory.maxRom
  · obtain ⟨hresult, hlaunched⟩ := h.configured.loadRom hsize
    have hbreakpoints := (m.breakpoints_loadRom rom).trans h.breakpoints
    generalize m.loadRom rom = r at hresult hlaunched hbreakpoints
    obtain ⟨n, result⟩ := r
    cases hresult
    rw [h.launched.entropy] at hlaunched
    exact .launched ⟨spells, hsize⟩ { hlaunched with } hbreakpoints
  · rw [loadRom_eq_error m (Nat.not_le.mp hsize)]
    apply Loads.refused
    · intro rom' hholds
      rw [hholds.1.unique spells] at hsize
      exact hsize hholds.2
    · rfl

theorem Fresh.loads_of_fault (h : m.Fresh settings entropy) {name : Text} {fault : Fault}
    (hload : m.loadNamed files (.parse name) = (m, .error (.storage fault)))
    (unspelt : ∀ rom, ¬files.Spells (.parse name) rom)
    (hfault : (∃ cause t, fault = .refused cause t) ∨
      files.Escapes (.parse name) (.storage fault)) :
    Loads settings entropy files (.parse name) (m.loadProgram files name) := by
  simp only [loadProgram, hload]
  rcases hfault with ⟨cause, t, rfl⟩ | hescapes
  · exact .refused (fun rom h => unspelt rom h.1) rfl
  · exact .escaped hescapes h

theorem Fresh.loads_image (h : m.Fresh settings entropy) {name : Text}
    (hnamed : namesSource (.parse name) = false) :
    Loads settings entropy files (.parse name) (m.loadProgram files name) := by
  cases hread : files.read (Path.parse name).render with
  | ok rom => exact h.loads_of_loadRom (.image hnamed hread) (m.loadNamed_of_read hnamed hread)
  | error fault =>
    have hload : m.loadNamed files (.parse name) = (m, .error (.storage fault)) := by
      rw [loadNamed, if_neg (Bool.eq_false_iff.mp hnamed), hread]
    refine h.loads_of_fault hload ?_ (Files.escapes_of_read hread)
    intro rom hspells
    cases hread.symm.trans (hspells.read_eq hnamed)

theorem Fresh.loads_text (h : m.Fresh settings entropy) {name source : Text}
    (hnamed : namesSource (.parse name) = true)
    (hread : files.readText (Path.parse name).render = .ok source)
    (hload : m.loadNamed files (.parse name) = m.loadSource source) :
    Loads settings entropy files (.parse name) (m.loadProgram files name) := by
  have hlogged := h.logAll (assemble Memory.programStart source).logEntries
  cases hrom : (assemble Memory.programStart source).rom with
  | ok rom =>
    simp only [loadSource, hrom] at hload
    exact hlogged.loads_of_loadRom (.source hnamed hread hrom) hload
  | error interruption =>
    cases interruption with
    | error report =>
      simp only [loadSource, hrom] at hload
      simp only [loadProgram, hload]
      apply Loads.refused
      · intro rom hholds
        obtain ⟨source', read, assembled⟩ := hholds.1.readText_eq hnamed
        cases hread.symm.trans read
        cases hrom.symm.trans assembled
      · rfl
    | endlessNumeral digits =>
      simp only [loadSource, hrom] at hload
      simp only [loadProgram, hload]
      exact .escaped (.endlessNumeral hnamed hread hrom) hlogged

theorem Fresh.loads_source (h : m.Fresh settings entropy) {name : Text}
    (hnamed : namesSource (.parse name) = true) :
    Loads settings entropy files (.parse name) (m.loadProgram files name) := by
  cases hread : files.readText (Path.parse name).render with
  | ok source => exact h.loads_text hnamed hread (m.loadNamed_of_readText hnamed hread)
  | error fault =>
    have hload : m.loadNamed files (.parse name) = (m, .error (.storage fault)) := by
      rw [loadNamed, if_pos hnamed, hread]
    refine h.loads_of_fault hload ?_ (Files.escapes_of_readText hnamed hread)
    intro rom hspells
    obtain ⟨source, read, -⟩ := hspells.readText_eq hnamed
    cases hread.symm.trans read

theorem Fresh.loads (h : m.Fresh settings entropy) (files : Files) (name : Text) :
    Loads settings entropy files (.parse name) (m.loadProgram files name) := by
  cases hnamed : namesSource (.parse name) with
  | false => exact h.loads_image hnamed
  | true => exact h.loads_source hnamed

theorem fresh_of_new [Clock κ τ] {clock : κ} (made : new settings clock entropy = .ok m) :
    m.Fresh settings entropy := by
  have hconfigured := (Configured.stable settings).new made
  rw [new] at made
  split at made
  · cases made
    exact ⟨hconfigured, ⟨rfl, rfl, rfl, rfl, rfl⟩, rfl⟩
  · cases made

end Machine

end Chip8
