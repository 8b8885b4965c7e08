import Chip8.Assembly.Operand
import Chip8.Text.Lines

namespace Chip8.Assembly

open Text

def stripComment (t : Text) : Text := trim (t.takeWhile (· ≠ ';'))

def isDirective? (t : Text) : Option Bool :=
  (words t).head?.map (fun w => lowerAscii w == "option".toList)

def Item.ofName (word : Text) : Option Item :=
  let name := upper word
  if name = "DW".toList then some .word
  else if name = "DB".toList then some .bits
  else (Mnemonic.ofName word).map .instruction

def splitLabel (t : Text) : Option (Text × Text) :=
  match t.dropWhile isWordChar with
  | ':' :: rest =>
    if isName (t.takeWhile isWordChar) then some (t.takeWhile isWordChar, trim rest) else none
  | _ => none

def splitStatement (t : Text) : Option (Text × Text) :=
  match t.takeWhile Char.isAlpha, t.dropWhile Char.isAlpha with
  | [], _ => none
  | word, [] => some (word, [])
  | word, c :: rest => if isBlank c then some (word, trim rest) else none

def readStatement (t : Text) : Except Fault (Item × Text) :=
  match splitStatement t with
  | none => .error (.unreadableLine t)
  | some (word, operands) =>
    match Item.ofName word with
    | none => .error (.unknownInstruction word)
    | some item => .ok (item, operands)

structure Line where
  label : Option Text
  content : Except Fault (Option (Item × Text))

def readLine (raw : Text) : Line :=
  let t := stripComment raw
  if t = [] ∨ isDirective? t = some true then ⟨none, .ok none⟩
  else
    match splitLabel t with
    | some (name, []) => ⟨some name, .ok none⟩
    | some (name, rest) => ⟨some name, (readStatement rest).map some⟩
    | none => ⟨none, (readStatement t).map some⟩

end Chip8.Assembly
