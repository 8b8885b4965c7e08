import Chip8.CommandLine.Outcome

namespace Chip8.CommandLine

open Text

def afterBracket (t : Text) : Text :=
  if t.head?.any (fun c => c.isLower || c == '/') ∧ ']' ∈ t then (t.dropWhile (· ≠ ']')).drop 1
  else '[' :: t

def unstyled (s : String) : String :=
  match pieces (· == '[') s.toList with
  | [] => ""
  | first :: rest => String.ofList (first ++ rest.flatMap afterBracket)

def padRight (width : Nat) (s : String) : String :=
  s ++ String.ofList (List.replicate (width - s.length) ' ')

def columnWidths (rows : List (List String)) (columns : Nat) : List Nat :=
  (List.range columns).map (fun i =>
    rows.foldl (fun width row => max width ((row[i]?).getD "").length) 0)

def renderTable (columns : List String) (rows : List (List String)) : List String :=
  let all := columns :: rows
  let widths := columnWidths all columns.length
  all.map (fun row => "  ".intercalate (widths.zipWith padRight row))

def renderItem : Debugger.Item → String
  | .line t => unstyled t ++ "\n"
  | .table title columns rows => "\n".intercalate (title :: renderTable columns rows) ++ "\n"
  | .panel title subtitle t =>
    "\n".intercalate (("-- " ++ title ++ " --") :: unstyled t :: subtitle.toList) ++ "\n"

def renderEntry (e : LogEntry) : String := padRight 8 e.level.name ++ " " ++ e.message ++ "\n"

end Chip8.CommandLine
