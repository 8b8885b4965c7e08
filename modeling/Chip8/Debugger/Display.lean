import Chip8.Machine.State

namespace Chip8.Debugger

open Text

inductive Item where
  | line (text : String)
  | table (title : String) (columns : List String) (rows : List (List String))
  | panel (title : String) (subtitle : Option String) (text : String)
  deriving DecidableEq, Repr

def boxed (color text : String) : Item := .line ("[" ++ color ++ "]" ++ text ++ "[/" ++ color ++ "]")

def red : String → Item := boxed "red"

def green : String → Item := boxed "green"

def yellow : String → Item := boxed "yellow"

def address (n : Int) : String := "0x" ++ hex 3 n

def byte (n : Int) : String := "0x" ++ hex 2 n

def truth (b : Bool) : String := if b then "True" else "False"

variable {κ τ : Type} [Time.Measure τ]

def statusPanel (m : Machine κ τ) : Item :=
  let p := m.processor
  let field (name value : String) := "[bold]" ++ name ++ ":[/bold] " ++ value
  .panel "VM Status" none ("\n".intercalate
    [field "PC" (address p.pc ++ "  " ++ p.current),
     field "I" (address p.index),
     field "Instructions" (toString p.executed),
     field "Call depth" (toString p.depth),
     field "Delay timer" (toString p.timer.value),
     field "Finished" (truth p.finished)])

def registerRow (name : String) (value : Int) : List String := [name, address value, toString value, ""]

def registerTable (m : Machine κ τ) : Item :=
  let p := m.processor
  let rows := p.registers.toList.zipIdx.map (fun (v, i) =>
    ["V" ++ hex 1 i, byte v, toString v, binary 8 v])
  .table "Registers" ["Reg", "Hex", "Dec", "Bin"]
    (rows ++ [registerRow "I" p.index, registerRow "PC" p.pc, registerRow "SP" p.sp])

def stackLines (m : Machine κ τ) : List Item :=
  match m.processor.stack with
  | [] => []
  | addresses =>
    [.line ("[bold]Stack:[/bold] " ++ ", ".intercalate (addresses.map (fun (a : Nat) => address a)))]

def memoryTable (m : Machine κ τ) (start count : Int) : Item :=
  .table ("Memory (" ++ address start ++ ")") ["Address", "Hex", "Dec", "Bin", "Region"]
    ((m.processor.memory.dump start count).map (fun (a, b) =>
      [address a, byte b.toNat, toString b.toNat, binary 8 b.toNat, (Memory.Region.ofAddress a).name]))

def wordAddresses (start count : Int) : List Int :=
  let stop := min (start + count * 2) (Memory.size - 1)
  (List.range ((stop - start + 1) / 2).toNat).map (fun (i : Nat) => start + 2 * i)

def programTable (m : Machine κ τ) (start count : Int) : Item :=
  .table "Program" ["Address", "Opcode", "Instruction", "PC"]
    ((wordAddresses start count).map (fun a =>
      let word := m.processor.memory.readWord a
      let arrow := if a = m.processor.pc then ">>>" else ""
      let star := if a ∈ m.breakpoints then "*" else ""
      [address a, hex 4 word, renderOpcode word, arrow ++ " " ++ star]))

def breakpointTable (m : Machine κ τ) : Item :=
  if m.breakpoints = [] then yellow "No breakpoints set"
  else .table "Breakpoints" ["Address"] (m.breakpoints.map (fun a => [address a]))

def screenPanel (m : Machine κ τ) : Item :=
  let screen := m.processor.screen
  .panel "Display" (some s!"{screen.lit} pixels lit") (renderRows "#" "." screen.rows)

def helpPanel : Item :=
  .panel "Help" none ("\n".intercalate
    ["[bold]CHIP-8 Debugger Commands[/bold]",
     "",
     "[green]File Operations:[/green]",
     "  load <file>       - Load ROM or assembly source",
     "  reload            - Reload current program",
     "",
     "[green]Execution Control:[/green]",
     "  run [steps]       - Run until finished or breakpoint",
     "  continue          - Same as run",
     "  step [count]      - Execute instruction(s)",
     "  reset [seed]      - Reset VM",
     "",
     "[green]Breakpoints:[/green]",
     "  break [addr]      - Set/list breakpoints",
     "  delete <addr>     - Delete breakpoint",
     "  clear             - Clear all breakpoints",
     "",
     "[green]Information:[/green]",
     "  status            - Show VM status",
     "  registers         - Show registers and stack",
     "  memory [addr] [n] - Show memory",
     "  program [addr]    - Disassemble program",
     "  screen            - Show the display",
     "",
     "[green]Modification:[/green]",
     "  set reg <Vx|I> <v> - Set register",
     "  set mem <a> <v>    - Set memory byte",
     "",
     "[green]Other:[/green]",
     "  help [cmd]        - Show help",
     "  quit/exit         - Exit debugger"])

end Chip8.Debugger
