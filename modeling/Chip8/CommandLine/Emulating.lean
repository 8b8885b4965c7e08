import Chip8.CommandLine.Outcome

namespace Chip8.CommandLine.Emulating

open Storage Time

def runGrammar : Grammar :=
  { rules :=
      [helpRule,
       ⟨"speed", ["--speed", "-s"], .value (isIntWithin Settings.minSpeed Settings.maxSpeed)⟩,
       ⟨"debug", ["--debug", "-d"], .flag⟩,
       ⟨"perfmon", ["--perfmon", "-p"], .flag⟩,
       ⟨"keep-open", ["--keep-open", "-ko"], .flag⟩,
       ⟨"headless", ["--headless"], .flag⟩,
       ⟨"scale", ["--scale"], .value isInt⟩,
       ⟨"seed", ["--seed"], .value isInt⟩,
       ⟨"max-steps", ["--max-steps"], .value isInt⟩]
    most := 1
    least := 1 }

def grammar : CommandGrammar := { rules := [helpRule], commands := [("run", runGrammar)] }

def settingsOf (p : Parsed) : Settings :=
  let usual : Settings := {}
  { speed := (p.int? "speed").getD usual.speed
    windowed := !p.has "headless"
    scale := (p.int? "scale").getD usual.scale
    tracing := p.has "debug"
    metered := p.has "perfmon"
    keepOpen := p.has "keep-open"
    seed := p.int? "seed" }

def levelOf (p : Parsed) : Level :=
  if p.has "debug" then .debug else if p.has "perfmon" then .info else .warning

variable {κ τ : Type} [Measure τ] [Clock κ τ]

structure Prepared (κ τ : Type) where
  options : Parsed
  machine : Machine κ τ

def said (m : Machine κ τ) : String :=
  String.join (m.effects.toList.filterMap (fun
    | .say line => some (line ++ "\n")
    | _ => none))

def reported? : Failure → Option String
  | .storage (.refused .notFound path) =>
    some ("File not found - " ++ (Storage.Fault.refused .notFound path).message)
  | .machine error => some error.message
  | .load cause => some cause.message
  | .step fault => if fault.isProgramFault then some fault.message else none
  | _ => none

def failed (files : Files) (e : Failure) : Outcome :=
  match reported? e with
  | some message => { files, exit := .code 1, errors := "Error: " ++ message ++ "\n" }
  | none => { files, exit := .failure e }

def summary (headless : Bool) (m : Machine κ τ) : String :=
  let finished :=
    if m.processor.finished then
      "Program finished at PC=0x" ++ Text.hex 3 m.processor.pc ++
        s!" after {m.processor.executed} instructions\n"
    else ""
  let picture := if headless then renderRows "#" "." m.processor.screen.rows ++ "\n" else ""
  finished ++ picture

def conclude (files : Files) (p : Parsed) (m : Machine κ τ) (result : Except Failure Unit) : Outcome :=
  let outcome : Outcome :=
    match result with
    | .ok () => { files, output := summary (p.has "headless") m }
    | .error e => failed files e
  { outcome with output := said m ++ outcome.output, logged := m.takeLog.1 }.atLevel (levelOf p)

def paths (arguments : List Text) : List Path :=
  match grammar.parse arguments with
  | .error _ => []
  | .ok (_, _, p) => p.plain.map Path.parse

def prepare (files : Files) (arguments : List Text) (clock : κ) (entropy : Entropy) :
    Except Outcome (Prepared κ τ) := do
  let (_, _, p) ← (grammar.parse arguments).mapError (Outcome.ofEnding files)
  if p.lacks "speed" || p.lacks "seed" then throw (failed files .valueless)
  let m ← (Machine.new (settingsOf p) clock entropy).mapError (fun e => failed files (.machine e))
  match m.loadProgram files (p.plain.headD []) with
  | (m, .ok ()) =>
    if p.lacks "max-steps" then throw (conclude files p m (.error .valueless))
    else return ⟨p, m⟩
  | (m, .error e) => throw (conclude files p m (.error e))

def run (files : Files) (arguments : List Text) (clock : κ) (entropy : Entropy) (fuel : Nat)
    (viewing : Viewing) : Outcome :=
  match prepare files arguments clock entropy with
  | .error outcome => outcome
  | .ok ⟨p, m⟩ =>
    match m.start fuel (p.int? "max-steps") viewing with
    | none => { files, exit := .unfinished }
    | some (m, result) => conclude files p m result

end Chip8.CommandLine.Emulating
