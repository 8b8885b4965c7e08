namespace Chip8

inductive Level where
  | debug
  | info
  | warning
  | error
  deriving DecidableEq, Repr

namespace Level

def name : Level → String
  | debug => "DEBUG"
  | info => "INFO"
  | warning => "WARNING"
  | error => "ERROR"

def rank : Level → Nat
  | debug => 0
  | info => 1
  | warning => 2
  | error => 3

end Level

inductive Channel where
  | assembler
  | processor
  | machine
  | window
  deriving DecidableEq, Repr

def Channel.name : Channel → String
  | assembler => "assembler.assembler"
  | processor => "vm.emulator"
  | machine => "vm.virtual_machine"
  | window => "vm.display"

structure LogEntry where
  level : Level
  channel : Channel
  message : String
  deriving DecidableEq, Repr

def LogEntry.reaches (e : LogEntry) (level : Level) : Bool := level.rank ≤ e.level.rank

end Chip8
