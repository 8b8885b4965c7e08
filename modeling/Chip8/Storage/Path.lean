import Chip8.Text.Basic

namespace Chip8.Storage

structure Path where
  root : Text
  names : List Text
  deriving DecidableEq, Repr

namespace Path

def parse (t : Text) : Path :=
  let root : Text :=
    match t with
    -- two slashes in front are kept, and any more are as one
    | '/' :: '/' :: '/' :: _ => ['/']
    | '/' :: '/' :: _ => ['/', '/']
    | '/' :: _ => ['/']
    | _ => []
  ⟨root, (Text.pieces (· == '/') t).filter (fun n => n ≠ [] ∧ n ≠ ['.'])⟩

def render (p : Path) : Text :=
  if p.root = [] ∧ p.names = [] then ['.'] else p.root ++ List.intercalate ['/'] p.names

def name (p : Path) : Text := p.names.getLast?.getD []

def splitSuffix (name : Text) : Text × Text :=
  let tail := (name.reverse.takeWhile (· ≠ '.')).reverse
  let stem := name.take (name.length - tail.length - 1)
  if '.' ∈ name ∧ tail ≠ [] ∧ stem ≠ [] then (stem, '.' :: tail) else (name, [])

def suffix (p : Path) : Text := (splitSuffix p.name).2

def withSuffix (p : Path) (suffix : Text) : Path :=
  { p with names := p.names.dropLast ++ [(splitSuffix p.name).1 ++ suffix] }

end Path

end Chip8.Storage
