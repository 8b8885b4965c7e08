import Chip8.Editor.Document

namespace Chip8.Editor

open Text

inductive ItemKind where
  | keyword
  | register
  deriving DecidableEq, Repr

def ItemKind.number : ItemKind → Nat
  | keyword => 14
  | register => 6

structure CompletionItem where
  label : String
  kind : ItemKind
  detail : String
  documentation : Option String
  deriving DecidableEq, Repr

def dataItems : List (String × String × String) :=
  [("DW", "DW #HHHH", "Emit a 16-bit word, high byte first"),
   ("DB", "DB $bbbbbbbb", "Emit one byte from 8 bits of 0, 1 or . (MSB first)")]

def registerNames : List String := (List.range 16).map (fun (i : Nat) => "V" ++ hex 1 i)

def statementItems : List CompletionItem :=
  Mnemonic.all.map (fun m =>
    ⟨m.name, .keyword, m.usage ++ "  (" ++ m.template ++ ")", some m.description⟩) ++
  dataItems.map (fun (name, usage, description) => ⟨name, .keyword, usage, some description⟩)

def registerItems : List CompletionItem :=
  registerNames.map (fun name =>
    ⟨name, .register, if name = "VF" then "Register (flags)" else "Register", none⟩)

def statementPart (t : Text) : Text :=
  let code := trimStart (t.takeWhile (· ≠ ';'))
  if code.getLast? = some ':' then []
  else
    match code.dropWhile (· ≠ ':') with
    | _ :: rest => trimStart rest
    | [] => code

def completions (t : Text) : List CompletionItem :=
  if ' ' ∈ statementPart t then registerItems else statementItems

def hoverText (word : Text) : Option String :=
  match Mnemonic.ofName word with
  | some m => some ("**" ++ m.usage ++ "**\n\nOpcode \x60" ++ m.template ++ "\x60\n\n" ++ m.description)
  | none =>
    let name := String.ofList (upper word)
    match dataItems.find? (fun (item, _) => item == name) with
    | some (_, usage, description) => some ("**" ++ usage ++ "**\n\n" ++ description)
    | none =>
      if name = "VF" then
        some "**VF**\n\nFlag register: carry, borrow, shifted-out bit and draw collision"
      else if name ∈ registerNames then
        some ("**" ++ name ++ "**\n\nGeneral purpose 8-bit register")
      else none

end Chip8.Editor
