import Chip8.Storage.Path
import Chip8.Text.Lines
import Chip8.Text.Quoted

namespace Chip8.Storage

inductive Node where
  | file (bytes : List UInt8)
  | directory
  deriving DecidableEq, Repr

/-- Files and directories under the names that lead to them: from the working directory, after the
name `..` for every step above it, or after the name `/` from the root. -/
abbrev Files := List (List Text × Node)

inductive Cause where
  | notFound
  | taken
  | notADirectory
  | isDirectory
  | nameTooLong
  deriving DecidableEq, Repr

def Cause.text : Cause → String
  | notFound => "[Errno 2] No such file or directory"
  | taken => "[Errno 17] File exists"
  | notADirectory => "[Errno 20] Not a directory"
  | isDirectory => "[Errno 21] Is a directory"
  | nameTooLong => "[Errno 36] File name too long"

inductive Fault where
  | refused (cause : Cause) (path : Text)
  | badName
  | badText
  deriving DecidableEq, Repr

def Fault.message : Fault → String
  | refused cause path => cause.text ++ ": " ++ Text.quote path
  | badName => "embedded null byte"
  | badText => "not valid UTF-8"

namespace Files

def rootName : Text := ['/']

def parentName : Text := ['.', '.']

def parent (names : List Text) : List Text :=
  match names.getLast? with
  | none => [parentName]
  | some last =>
    if last = rootName then names
    else if last = parentName then names ++ [parentName]
    else names.dropLast

def isLandmark (names : List Text) : Bool := names = [rootName] || names.all (· == parentName)

def node? (fs : Files) (names : List Text) : Option Node :=
  if isLandmark names then some .directory
  else
    match fs.lookup names with
    | some node => some node
    | none =>
      if fs.any (fun (other, _) => names.isPrefixOf other) then some .directory else none

def maxNameBytes : Nat := 255

def maxPathBytes : Nat := 4095

def byteLength (t : Text) : Nat := (String.ofList t).utf8ByteSize

def requireDirectory (fs : Files) (names : List Text) : Except Cause Unit :=
  match fs.node? names with
  | none => .error .notFound
  | some (.file _) => .error .notADirectory
  | some .directory => .ok ()

def enter (fs : Files) (names : List Text) (name : Text) : Except Cause (List Text) := do
  fs.requireDirectory names
  if name = [] ∨ name = ['.'] then return names
  else if name = parentName then return parent names
  else if maxNameBytes < byteLength name then throw .nameTooLong
  else return names ++ [name]

def resolve (fs : Files) (t : Text) : Except Cause (List Text) :=
  if t = [] then .error .notFound
  else if maxPathBytes < byteLength t then .error .nameTooLong
  else
    (Text.pieces (· == '/') t).foldlM fs.enter (if t.head? = some '/' then [rootName] else [])

def find (fs : Files) (t : Text) : Except Cause Node := do
  match fs.node? (← fs.resolve t) with
  | none => throw .notFound
  | some node => return node

def has (fs : Files) (t : Text) : Except Fault Bool :=
  if '\x00' ∈ t then .ok false
  else
    match fs.find t with
    | .ok _ => .ok true
    | .error .nameTooLong => .error (.refused .nameTooLong t)
    | .error _ => .ok false

def read (fs : Files) (t : Text) : Except Fault (List UInt8) :=
  if '\x00' ∈ t then .error .badName
  else
    match fs.find t with
    | .error cause => .error (.refused cause t)
    | .ok .directory => .error (.refused .isDirectory t)
    | .ok (.file bytes) => .ok bytes

def readText (fs : Files) (t : Text) : Except Fault Text := do
  let bytes ← fs.read t
  match String.fromUTF8? ⟨bytes.toArray⟩ with
  | none => .error .badText
  | some s => .ok (Text.unifyBreaks s.toList)

def put (fs : Files) (names : List Text) (bytes : List UInt8) : Files :=
  if fs.any (fun (other, _) => other = names) then
    fs.map (fun (other, node) => (other, if other = names then .file bytes else node))
  else fs ++ [(names, .file bytes)]

def write (fs : Files) (t : Text) (bytes : List UInt8) : Except Fault Files :=
  if '\x00' ∈ t then .error .badName
  else
    match fs.resolve t with
    | .error cause => .error (.refused cause t)
    | .ok names =>
      match fs.node? names with
      | some .directory => .error (.refused .isDirectory t)
      | _ => .ok (fs.put names bytes)

def makeDirectory (fs : Files) (t : Text) : Except Fault Files :=
  if '\x00' ∈ t then .error .badName
  else
    match fs.resolve t with
    | .error cause => .error (.refused cause t)
    | .ok names =>
      match fs.node? names with
      | some _ => .error (.refused .taken t)
      | none => .ok (fs ++ [(names, .directory)])

end Files

end Chip8.Storage
