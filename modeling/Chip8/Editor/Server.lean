import Chip8.Editor.Completion

namespace Chip8.Editor

open Text

structure Server where
  documents : List (String × Text) := []
  deriving DecidableEq, Repr

structure Notice where
  published : Except Nat (String × List Diagnostic)
  warnings : List String := []

structure Change where
  text : Text
  range : Option (Cursor × Cursor) := none
  deriving DecidableEq, Repr

namespace Server

def text? (s : Server) (uri : String) : Option Text := s.documents.lookup uri

def put (s : Server) (uri : String) (text : Text) : Server :=
  ⟨(uri, text) :: s.documents.filter (·.1 ≠ uri)⟩

def diagnosis (s : Server) (uri : String) : Diagnosis := diagnose ((s.text? uri).getD [])

def refresh (s : Server) (uri : String) (warnings : List String) : Notice :=
  let diagnosis := s.diagnosis uri
  { published := diagnosis.found.map (uri, ·), warnings := warnings ++ diagnosis.warnings }

def didOpen (s : Server) (uri : String) (text : Text) : Server × Notice :=
  let s := s.put uri text
  (s, s.refresh uri [])

def applyChange (uri : String) (s : Server) (change : Change) : Server :=
  -- a change of a part is ignored
  if change.range.isSome then s else s.put uri change.text

def ignored (uri : String) (changes : List Change) : List String :=
  (changes.filter (·.range.isSome)).map (fun _ => "Incremental change ignored for " ++ uri)

def didChange (s : Server) (uri : String) (changes : List Change) : Server × Notice :=
  let s := changes.foldl (applyChange uri) s
  (s, s.refresh uri (ignored uri changes))

def didClose (s : Server) (uri : String) : Server × Notice :=
  (⟨s.documents.filter (·.1 ≠ uri)⟩, { published := .ok (uri, []) })

def line? (s : Server) (uri : String) (line : Nat) : Option Text := do
  (documentLines (← s.text? uri))[line]?

def completion (s : Server) (uri : String) (cursor : Cursor) : List CompletionItem :=
  match s.line? uri cursor.line with
  | none => []
  | some text => completions (text.take cursor.character)

def hover (s : Server) (uri : String) (cursor : Cursor) : Except PlaceFault (Option String) :=
  match s.line? uri cursor.line with
  | none => .ok none
  | some text =>
    match wordAt text cursor.character with
    | none => .error .outside
    | some word => .ok (hoverText word)

end Server

end Chip8.Editor
