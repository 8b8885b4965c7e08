import Chip8.Text.Quoted

namespace Chip8.Debugger

open Text

inductive Verb where
  | load | reload | run | resume | step | reset | mark | delete | clear | status | registers | memory
  | program | screen | set | quit | exit | help
  deriving DecidableEq, Repr

namespace Verb

def all : List Verb :=
  [load, reload, run, resume, step, reset, mark, delete, clear, status, registers, memory, program,
   screen, set, quit, exit, help]

def word : Verb → String
  | load => "load"
  | reload => "reload"
  | run => "run"
  | resume => "continue"
  | step => "step"
  | reset => "reset"
  | mark => "break"
  | delete => "delete"
  | clear => "clear"
  | status => "status"
  | registers => "registers"
  | memory => "memory"
  | program => "program"
  | screen => "screen"
  | set => "set"
  | quit => "quit"
  | exit => "exit"
  | help => "help"

def explanation : Verb → String
  | load => "Load a ROM or assembly source: load <filename>"
  | reload => "Reload the current program from disk"
  | run => "Run until finished or a breakpoint: run [max_steps]"
  | resume => "Continue execution: continue"
  | step => "Execute instructions: step [count]"
  | reset => "Reset the virtual machine: reset [seed]"
  | mark => "Set breakpoint: break <address>"
  | delete => "Delete breakpoint: delete <address>"
  | clear => "Clear all breakpoints: clear"
  | status => "Show VM status: status"
  | registers => "Show V0-VF, I, PC and the stack: registers"
  | memory => "Show memory: memory [address] [count]"
  | program => "Disassemble around PC: program [address] [count]"
  | screen => "Show the frame buffer: screen"
  | set => "Set register or memory: set reg <Vx|I> <value> | set mem <addr> <value>"
  | quit => "Quit the debugger: quit"
  | exit => "Exit the debugger: exit"
  | help => "Show help: help [command]"

def ofWord (t : Text) : Option Verb := all.find? (fun v => v.word.toList = t)

end Verb

inductive Request where
  | nothing
  | unknown (line : Text)
  | command (verb : Verb) (argument : Text)
  deriving DecidableEq, Repr

def Request.parse (line : Text) : Request :=
  match trim line with
  | [] => .nothing
  | '?' :: rest => .command .help (trim rest)
  | line =>
    match Verb.ofWord (line.takeWhile isWordChar) with
    | some verb => .command verb (trim (line.dropWhile isWordChar))
    | none => .unknown line

def readAddress (t : Text) : Except String Int :=
  let numeral (base : Nat) (t : Text) := (readInt base t).mapError (·.message base t)
  match t with
  | '$' :: rest => numeral 16 rest
  | '0' :: x :: _ => if x = 'x' ∨ x = 'X' then numeral 16 t else numeral 10 t
  | _ => numeral 10 t

def readSpan (words : List Text) (address count : Int) : Except String (Int × Int) :=
  match words with
  | [] => .ok (address, count)
  | [a] => do return (← readAddress a, count)
  | a :: n :: _ => do
    let address ← readAddress a
    let count ← (readInt 10 n).mapError (·.message 10 n)
    return (address, count)

end Chip8.Debugger
