import Chip8.CommandLine.Arguments
import Chip8.Debugger.Session
import Chip8.Machine.Start

namespace Chip8.CommandLine

inductive Exit where
  | code (n : Nat)
  | atOnce (n : Nat)
  | failure (error : Failure)
  | unfinished
  deriving DecidableEq, Repr

inductive Transport where
  | io
  | tcp (host : Option Text) (port : Option Int)
  deriving DecidableEq, Repr

structure Outcome where
  exit : Exit := .code 0
  files : Storage.Files
  output : String := ""
  errors : String := ""
  logged : List LogEntry := []
  printed : List Debugger.Item := []
  started : List Transport := []

namespace Outcome

def ofEnding (files : Storage.Files) : Ending → Outcome
  | .refused => { files, exit := .atOnce 2 }
  | .left text => { files, exit := .atOnce 0, output := text }

def atLevel (o : Outcome) (level : Level) : Outcome :=
  { o with logged := o.logged.filter (·.reaches level) }

end Outcome

end Chip8.CommandLine
