import Chip8.CommandLine.Outcome

namespace Chip8.CommandLine.Assembling

open Storage

def grammar : CommandGrammar :=
  { rules := [helpRule, ⟨"verbose", ["-v", "--verbose"], .flag⟩]
    commands :=
      [("assemble", ⟨[helpRule, ⟨"output", ["-o", "--output"], .value (fun _ => true)⟩], 1, 1⟩),
       ("disassemble", ⟨[helpRule], 1, 1⟩)] }

def romSuffix : Text := ".ROM".toList

def shown (p : Path) : String := String.ofList p.render

def fail (files : Files) (message : String) : Outcome :=
  { files, exit := .code 1, errors := message ++ "\n" }

def sourcePath (p : Parsed) : Path := Path.parse (p.plain.headD [])

def imagePath (p : Parsed) : Except Failure Path :=
  if p.lacks "output" then .error .valueless
  else .ok (((p.value? "output").map Path.parse).getD ((sourcePath p).withSuffix romSuffix))

def writeImage (files : Files) (source output : Path) (rom : List UInt8) : Outcome :=
  match files.write output.render rom with
  | .error e => { files, exit := .failure (.storage e) }
  | .ok files =>
    { files
      output := s!"Assembled {rom.length} bytes: " ++ shown source ++ " -> " ++ shown output ++ "\n" }

def assembleText (files : Files) (source : Path) (output : Except Failure Path) (text : Text) :
    Outcome :=
  let assembly := assemble Memory.programStart text
  let outcome : Outcome :=
    match assembly.rom with
    | .error (.endlessNumeral _) => { files, exit := .failure .endlessNumeral }
    | .error (.error report) => fail files ("Assembly Error: " ++ report.message)
    | .ok rom =>
      match output with
      | .error e => { files, exit := .failure e }
      | .ok output => writeImage files source output rom
  { outcome with logged := assembly.logEntries }

def withFile {α : Type} (files : Files) (path : Path) (missing : String)
    (read : Text → Except Fault α) (use : α → Outcome) : Outcome :=
  match files.has path.render with
  | .error e => { files, exit := .failure (.storage e) }
  | .ok false => fail files ("Error: " ++ missing ++ " '" ++ shown path ++ "' not found")
  | .ok true =>
    match read path.render with
    | .error e => { files, exit := .failure (.storage e) }
    | .ok a => use a

def assembleFile (files : Files) (source : Path) (output : Except Failure Path) : Outcome :=
  withFile files source "Input file" files.readText (assembleText files source output)

def listingRow (l : ListingLine) : List String :=
  let width := if l.text.startsWith "DB" then 2 else 4
  [Debugger.address l.address, Text.hex width l.opcode, l.text]

def listingTable (title : String) (rom : List UInt8) : Debugger.Item :=
  .table title ["Address", "Opcode", "Instruction"]
    ((disassemble Memory.programStart rom).map listingRow)

def disassembleFile (files : Files) (rom : Path) : Outcome :=
  withFile files rom "ROM file" files.read (fun bytes =>
    { files, printed := [listingTable (shown rom) bytes] })

def paths (arguments : List Text) : List Path :=
  match grammar.parse arguments with
  | .error _ => []
  | .ok (_, _, p) => sourcePath p :: (imagePath p).toOption.toList

def run (files : Files) (arguments : List Text) : Outcome :=
  match grammar.parse arguments with
  | .error ending => .ofEnding files ending
  | .ok (top, command, p) =>
    let outcome :=
      if command = "assemble" then assembleFile files (sourcePath p) (imagePath p)
      else disassembleFile files (sourcePath p)
    outcome.atLevel (if top.has "verbose" then .debug else .warning)

end Chip8.CommandLine.Assembling
