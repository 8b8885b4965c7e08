import Chip8.Machine.State

namespace Chip8

open Time

def Assembly.logEntries (a : Assembly) : List LogEntry :=
  a.warnings.map (fun w => ⟨.warning, .assembler, w.message⟩) ++
    match a.rom with
    | .ok rom => [⟨.debug, .assembler, s!"Assembled {rom.length} bytes, {a.labels.length} labels"⟩]
    | .error _ => []

namespace Machine

variable {κ τ : Type} [Measure τ]

def loadRom (m : Machine κ τ) (rom : List UInt8) : Machine κ τ × Except Failure Unit :=
  match m.processor.loadRom rom with
  | .error e => (m, .error (.load (.tooLarge e)))
  | .ok processor => (({ m with processor }.log (Processor.loadedEntry rom)).reset none, .ok ())

def loadSource (m : Machine κ τ) (source : Text) : Machine κ τ × Except Failure Unit :=
  let assembly := assemble Memory.programStart source
  let m := m.logAll assembly.logEntries
  match assembly.rom with
  | .ok rom => m.loadRom rom
  | .error (.error report) => (m, .error (.load (.assembly report)))
  | .error (.endlessNumeral _) => (m, .error .endlessNumeral)

def sourceSuffixes : List String := [".asm", ".src", ".s", ".c8s"]

def namesSource (path : Storage.Path) : Bool :=
  sourceSuffixes.any (fun suffix => suffix.toList == Text.lowerAscii path.suffix)

def loadNamed (m : Machine κ τ) (files : Storage.Files) (path : Storage.Path) :
    Machine κ τ × Except Failure Unit :=
  if namesSource path then
    match files.readText path.render with
    | .ok source => m.loadSource source
    | .error fault => (m, .error (.storage fault))
  else
    match files.read path.render with
    | .ok rom => m.loadRom rom
    | .error fault => (m, .error (.storage fault))

def loadProgram (m : Machine κ τ) (files : Storage.Files) (name : Text) :
    Machine κ τ × Except Failure Unit :=
  let path := Storage.Path.parse name
  match m.loadNamed files path with
  | (m, .ok ()) =>
    (m.log ⟨.info, .machine, "Loaded program " ++ String.ofList path.render⟩, .ok ())
  | (m, .error (.load cause)) => (m, .error (.machine (.loading name cause)))
  | (m, .error e) => (m, .error e)

end Machine

end Chip8
