import Chip8.CommandLine.Outcome

namespace Chip8.CommandLine.Serving

open Storage

def grammar : Grammar :=
  { rules :=
      [helpRule, ⟨"tcp", ["--tcp"], .flag⟩, ⟨"port", ["--port"], .value isInt⟩,
       ⟨"host", ["--host"], .value (fun _ => true)⟩, ⟨"verbose", ["--verbose", "-v"], .flag⟩,
       ⟨"version", ["--version"], .leave "CHIP-8 Language Server v0.1.0\n"⟩]
    most := 0
    least := 0 }

def shown {α : Type} (text : α → String) : Option α → String
  | some a => text a
  | none => "[]"

def run (files : Files) (arguments : List Text) (interrupted : Bool) : Outcome :=
  match grammar.parse arguments with
  | .error ending => .ofEnding files ending
  | .ok p =>
    if p.has "tcp" then
      let host := if p.lacks "host" then none else (p.value? "host").getD "localhost".toList
      let port := if p.lacks "port" then none else (p.int? "port").getD 2087
      { files, started := [.tcp host port]
        output := "Starting CHIP-8 Language Server on TCP " ++ shown String.ofList host ++ ":" ++
          shown toString port ++ "\n" }
    else
      let message := "Starting CHIP-8 Language Server on stdio\n"
      if interrupted then
        { files, started := [.io], exit := .code 1
          errors := message ++ "\nServer interrupted by user\n" }
      else { files, started := [.io], errors := message }

end Chip8.CommandLine.Serving
