import Chip8.Assembly.Image
import Chip8.Memory
import Chip8.Position

namespace Chip8.Editor

open Text

def documentLines (t : Text) : List Text :=
  let ls := lines t
  if ls = [] ∨ t.getLast? = some '\n' ∨ t.getLast? = some '\r' then ls ++ [[]] else ls

inductive PlaceFault where
  | notCarried
  | outside
  deriving DecidableEq, Repr

structure Cursor where
  line : Nat
  character : Nat
  deriving DecidableEq, Repr

namespace Cursor

def maxCoordinate : Nat := 2147483647

def isCarried (i : Int) : Bool := 0 ≤ i && i ≤ maxCoordinate

def ofInts (line character : Int) : Except PlaceFault Cursor :=
  if isCarried line && isCarried character then .ok ⟨line.toNat, character.toNat⟩
  else .error .notCarried

end Cursor

structure Diagnostic where
  line : Int
  stop : Nat
  message : String
  code : String
  deriving DecidableEq, Repr

namespace Diagnostic

def source : String := "c8asm"

def severity : Nat := 1

def ofReport (t : Text) (r : Assembly.Report) : Diagnostic :=
  let line := r.lineNumber.getD 1 - 1
  let stop := if line < (documentLines t).length then ((pick (documentLines t) line).getD []).length else 0
  ⟨line, stop, r.detail, r.kind.code⟩

end Diagnostic

/-- The first error of a document that does not assemble, unless a numeral in it is beyond all
reading; and the warnings of its assembly. -/
structure Diagnosis where
  found : Except Nat (List Diagnostic)
  warnings : List String := []

def diagnose (t : Text) : Diagnosis :=
  let assembly := assemble Memory.programStart t
  { found :=
      match assembly.rom with
      | .ok _ => .ok []
      | .error (.error report) => .ok [.ofReport t report]
      | .error (.endlessNumeral digits) => .error digits
    warnings := assembly.warnings.map Assembly.Warning.message }

def wordStart (t : Text) : Nat → Option Nat
  | 0 => some 0
  | n + 1 =>
    match t[n]? with
    | none => none
    | some c => if isWordChar c then wordStart t n else some (n + 1)

def wordEnd (t : Text) : Nat → Int → Option Int
  | 0, i => some i
  | n + 1, i =>
    if i < t.length then
      match pick t i with
      | none => none
      | some c => if isWordChar c then wordEnd t n (i + 1) else some i
    else some i

def wordAt (t : Text) (character : Int) : Option Text := do
  let start : Int ← if character ≤ 0 then some character else (wordStart t character.toNat).map (↑·)
  let stop ← wordEnd t (t.length - character).toNat character
  return slice t start stop

end Chip8.Editor
