import Chip8.CommandLine.Outcome

namespace Chip8.CommandLine.Debugging

open Debugger Storage Time

def grammar : Grammar :=
  { rules :=
      [helpRule, ⟨"seed", ["--seed"], .value isInt⟩,
       ⟨"version", ["--version"], .leave "CHIP-8 Debugger v0.1.0\n"⟩]
    most := 1
    least := 0 }

inductive Input where
  | line (text : Text)
  | interrupt
  deriving DecidableEq, Repr

def prompt : String := "(c8-debug) "

def intro : String := "CHIP-8 Interactive Debugger v0.1.0\nType 'help' or '?' for commands.\n\n"

def greeting : List Item :=
  [boxed "bold blue" "CHIP-8 Interactive Debugger",
   .line "Load a ROM or source file with 'load <filename>' to start debugging.\n"]

def warnings (entries : List LogEntry) : String :=
  String.join ((entries.filter (·.reaches .warning)).map (·.message ++ "\n"))

def addAnswer (o : Outcome) (a : Answer) : Outcome :=
  { o with
    output := o.output ++ a.written
    errors := o.errors ++ warnings a.logged
    printed := o.printed ++ a.printed }

variable {κ τ : Type} [Measure τ] [Clock κ τ]

def respond (fuel : Nat) (s : Session κ τ) (o : Outcome) : Input → Session κ τ × Outcome × Bool
  | .interrupt => (s, { o with output := o.output ++ "\nGoodbye!\n" }, false)
  | .line t =>
    match s.perform o.files fuel (Request.parse t) with
    | none => (s, { o with exit := .unfinished }, false)
    | some (s, a) =>
      match a.failure with
      | some e => (s, { addAnswer o a with exit := .failure e }, false)
      | none => (s, addAnswer o a, !a.quits)

def converse (fuel : Nat) : Session κ τ → Outcome → List Input → Outcome
  | _, o, [] => { o with exit := .unfinished }
  | s, o, input :: rest =>
    match respond fuel s { o with output := o.output ++ prompt } input with
    | (s, o, true) => converse fuel s o rest
    | (_, o, false) => o

def programName (argument : Text) : Text := Text.trim (Path.parse argument).render

def opening (files : Files) (arguments : List Text) (clock : κ) (entropy : Entropy) :
    Except Outcome (Session κ τ × Outcome) := do
  let p ← (grammar.parse arguments).mapError (Outcome.ofEnding files)
  let s : Session κ τ := { Session.new (p.int? "seed") clock entropy with seedless := p.lacks "seed" }
  let (s, a) := (p.plain.head?.map (fun name => s.load files (programName name))).getD (s, {})
  let o := addAnswer { files } a
  match a.failure with
  | some e => throw { o with exit := .failure e }
  | none => return (s, { o with output := o.output ++ intro, printed := o.printed ++ greeting })

def run (files : Files) (arguments : List Text) (input : List Input) (clock : κ) (entropy : Entropy)
    (fuel : Nat) : Outcome :=
  match (opening files arguments clock entropy : Except Outcome (Session κ τ × Outcome)) with
  | .error o => o
  | .ok (s, o) => converse fuel s o input

def paths (arguments : List Text) : List Path :=
  match grammar.parse arguments with
  | .error _ => []
  | .ok p => p.plain.map (fun name => Path.parse (programName name))

def pathsOf (s : Session κ τ) (t : Text) : List Path :=
  match Request.parse t with
  | .command .load name => [Path.parse name]
  | .command .reload _ => s.program.toList.map Path.parse
  | _ => []

end Chip8.CommandLine.Debugging
