import Chip8.CommandLine.Assembling
import Chip8.CommandLine.Console
import Chip8.CommandLine.Debugging
import Chip8.CommandLine.Emulating
import Chip8.CommandLine.Serving

namespace Chip8.CommandLine

open Storage

/-! The tools on stored files, the terminal and a clock that keeps the time of day. -/

abbrev LiveMachine := Machine (VirtualClock Float) Float

abbrev LiveRun := Run (VirtualClock Float) Float

abbrev LiveSession := Debugger.Session (VirtualClock Float) Float

/-! Files -/

def readNode (files : Files) (names : List Text) (path : String) : IO Files := do
  match ← (IO.FS.readBinFile path).toBaseIO with
  | .ok bytes => return files.put names bytes.toList
  | .error (.inappropriateType ..) => return (names, .directory) :: files
  | .error _ => return files

def readSteps (files : Files) (names : List Text) (path : String) : List Text → IO Files
  | [] => return files
  | name :: rest => do
    match files.enter names name with
    | .error _ => return files
    | .ok names =>
      let path := path ++ String.ofList name
      let files ← if Files.isLandmark names then pure files else readNode files names path
      readSteps files names (path ++ "/") rest

def readPaths (files : Files) (paths : List Path) : IO Files :=
  paths.foldlM (fun files path =>
    readSteps files (if path.root = [] then [] else [Files.rootName]) (String.ofList path.root)
      path.names) files

def writeChanges (before after : Files) : IO Unit :=
  after.forM (fun (names, node) =>
    match node with
    | .directory => pure ()
    | .file bytes =>
      if before.lookup names = some node then pure ()
      else IO.FS.writeBinFile (String.ofList (List.intercalate ['/'] names)) ⟨bytes.toArray⟩)

/-! The terminal -/

def exitCode : Exit → IO UInt32
  | .code n | .atOnce n => return UInt32.ofNat n
  | .failure e => do
    IO.eprintln e.message
    return 1
  | .unfinished => return 1

def deliver (before : Files) (o : Outcome) : IO UInt32 := do
  writeChanges before o.files
  IO.eprint (String.join (o.logged.map renderEntry))
  IO.print (String.join (o.printed.map renderItem) ++ o.output)
  (← IO.getStdout).flush
  IO.eprint o.errors
  exitCode o.exit

/-! The clock -/

def presentClock (tick : Float) : IO (VirtualClock Float) := do
  let nanoseconds ← IO.monoNanosNow
  return ⟨nanoseconds.toFloat / 1e9, tick, 0, []⟩

def pause (seconds : Float) : IO Unit := IO.sleep (seconds * 1000).toUInt32

/-! Entropy -/

def presentEntropy : IO Entropy := do
  let bytes ← IO.getRandomBytes 8
  let start := mkStdGen (bytes.toList.foldl (fun n b => n * 256 + b.toNat) 0)
  let generator (n : Nat) := n.repeat (fun g => (stdSplit g).2) start
  return ⟨fun n => Fin.ofNat _ (randNat (generator n) 0 2147483646).1⟩

/-! The tools -/

def assemblerMain (arguments : List Text) : IO UInt32 := do
  let files ← readPaths [] (Assembling.paths arguments)
  deliver files (Assembling.run files arguments)

partial def keepTime (max : Option Int) (level : Level) (r : LiveRun) :
    IO (LiveMachine × Except Failure Unit) := do
  let clock ← presentClock 0
  match ({ r with machine := { r.machine with clock } } : LiveRun).turn max true with
  | .stopped m _ => return (m, .ok ())
  | .failed m fault => return (m, .error (.step fault))
  | .going r =>
    let (entries, m) := r.machine.takeLog
    IO.eprint (String.join ((entries.filter (·.reaches level)).map renderEntry))
    r.machine.clock.waits.forM pause
    keepTime max level { r with machine := m }

def emulatorMain (arguments : List Text) : IO UInt32 := do
  let files ← readPaths [] (Emulating.paths arguments)
  match Emulating.prepare files arguments (← presentClock 0) (← presentEntropy) with
  | .error outcome => deliver files outcome
  | .ok ⟨p, m⟩ =>
    let max := p.int? "max-steps"
    let finish (r : LiveMachine × Except Failure Unit) :=
      deliver files (Emulating.conclude files p r.1 r.2)
    -- there is no screen to open a window on
    if m.window.isSome then
      match m.start 0 max { screen := false } with
      | none => exitCode .unfinished
      | some r => finish r
    else
      let r : LiveRun := Run.start m
      let deadline := (← presentClock 0).now
      finish (← keepTime max (Emulating.levelOf p) { r with deadline })

def sessionFuel : Nat := 1000000000000000

def debuggerTick : Float := 1e-5

partial def answerLines (files : Files) (s : LiveSession) : IO UInt32 := do
  IO.print Debugging.prompt
  (← IO.getStdout).flush
  let line ← (← IO.getStdin).getLine
  let text := Text.dropFinalFeed line.toList
  let files ← readPaths files (Debugging.pathsOf s text)
  let s := s.withClock (← presentClock debuggerTick)
  let input : Debugging.Input := if line.isEmpty then .interrupt else .line text
  let (s, o, more) := Debugging.respond sessionFuel s { files } input
  let code ← deliver files o
  if more then answerLines files s else return code

def debuggerMain (arguments : List Text) : IO UInt32 := do
  let files ← readPaths [] (Debugging.paths arguments)
  match Debugging.opening files arguments (← presentClock debuggerTick) (← presentEntropy) with
  | .error o => deliver files o
  | .ok (s, o) =>
    let _ ← deliver files o
    answerLines [] s

def serverMain (arguments : List Text) : IO UInt32 := deliver [] (Serving.run [] arguments false)

def toolNames : String := "c8asm, c8emu, c8-debug or c8-language-server"

end Chip8.CommandLine

open Chip8.CommandLine in
def main : List String → IO UInt32
  | "c8asm" :: arguments => assemblerMain (arguments.map String.toList)
  | "c8emu" :: arguments => emulatorMain (arguments.map String.toList)
  | "c8-debug" :: arguments => debuggerMain (arguments.map String.toList)
  | "c8-language-server" :: arguments => serverMain (arguments.map String.toList)
  | _ => do
    IO.eprintln ("name a tool: " ++ toolNames)
    return 2
