import Chip8.Text.Numeral

namespace Chip8.CommandLine

open Text

inductive RuleKind where
  | flag
  | value (accepts : Text → Bool)
  | leave (text : String)

structure Rule where
  key : String
  names : List String
  kind : RuleKind

structure Grammar where
  rules : List Rule
  most : Nat
  least : Nat

def helpRule : Rule := ⟨"help", ["-h", "--help"], .leave ""⟩

inductive Token where
  | plain (argument : Text)
  | dashes
  | option (rule : Rule) (name : Text) (explicit : Option Text)
  | stranger

def Grammar.names (g : Grammar) : List (Text × Rule) :=
  g.rules.flatMap (fun r => r.names.map (fun n => (n.toList, r)))

def splitEquals (t : Text) : Text × Option Text :=
  match t.dropWhile (· ≠ '=') with
  | _ :: rest => (t.takeWhile (· ≠ '='), some rest)
  | [] => (t, none)

def Grammar.candidates (g : Grammar) (t : Text) : List Token :=
  if t.take 2 = ['-', '-'] then
    let (start, explicit) := splitEquals t
    (g.names.filter (fun (n, _) => start.isPrefixOf n)).map (fun (n, r) =>
      .option r n explicit)
  else
    g.names.filterMap (fun (n, r) =>
      if n = t.take 2 then some (.option r n (some (t.drop 2)))
      else if t.isPrefixOf n then some (.option r n none)
      else none)

def isDecimal (c : Char) : Bool := (decimalValue c).isSome

def looksNegative : Text → Bool
  | '-' :: t =>
    let t := dropFinalFeed t
    let digits := fun (u : Text) => u ≠ [] && u.all isDecimal
    digits t ||
      match t.dropWhile isDecimal with
      | '.' :: rest => digits rest
      | _ => false
  | _ => false

inductive Ending where
  | refused
  | left (text : String)
  deriving DecidableEq, Repr

def Grammar.token (g : Grammar) (t : Text) : Except Ending Token :=
  if t.head? ≠ some '-' then .ok (.plain t)
  else if t = ['-', '-'] then .ok .dashes
  else
    match g.names.lookup t with
    | some r => .ok (.option r t none)
    | none =>
      if t.length = 1 then .ok (.plain t)
      else
        match splitEquals t, g.names.lookup (splitEquals t).1 with
        | (name, some value), some r => .ok (.option r name (some value))
        | _, _ =>
          match g.candidates t with
          | [token] => .ok token
          | _ :: _ => .error .refused
          | [] => .ok (if looksNegative t || ' ' ∈ t then .plain t else .stranger)

def Grammar.tokens (g : Grammar) : List Text → Except Ending (List Token)
  | [] => .ok []
  | t :: rest => do
    match ← g.token t with
    | .dashes => return .dashes :: rest.map Token.plain
    | token => return token :: (← g.tokens rest)

structure Parsed where
  options : List (String × List Text) := []
  plain : List Text := []
  deriving DecidableEq, Repr

namespace Parsed

def has (p : Parsed) (key : String) : Bool := p.options.any (·.1 == key)

def values? (p : Parsed) (key : String) : Option (List Text) := p.options.reverse.lookup key

def lacks (p : Parsed) (key : String) : Bool := p.values? key == some []

def value? (p : Parsed) (key : String) : Option Text := (p.values? key).bind List.head?

def int? (p : Parsed) (key : String) : Option Int :=
  (p.value? key).bind (fun t => (readInt 10 t).toOption)

end Parsed

def isInt (t : Text) : Bool := (readInt 10 t).toBool

def isIntWithin (low high : Int) (t : Text) : Bool :=
  match readInt 10 t with
  | .ok n => low ≤ n && n ≤ high
  | .error _ => false

structure Cluster where
  flags : List Rule
  last : Rule
  value : Option Text

def RuleKind.needsValue : RuleKind → Bool
  | value _ => true
  | _ => false

def Grammar.cluster (g : Grammar) (r : Rule) (name : Text) : Text → Except Ending Cluster
  | [] => if r.kind.needsValue then .ok ⟨[], r, some []⟩ else .error .refused
  | c :: rest =>
    if r.kind.needsValue then .ok ⟨[], r, some (c :: rest)⟩
    else if name[1]? = some '-' then .error .refused
    else
      match g.names.lookup ['-', c] with
      | none => .error .refused
      | some next =>
        if rest.isEmpty then .ok ⟨[r], next, none⟩
        else (g.cluster next ['-', c] rest).map (fun k => { k with flags := r :: k.flags })

def Token.isPlain : Token → Bool
  | plain _ => true
  | _ => false

structure Progress where
  parsed : Parsed := {}
  excess : Bool := false
  adjacent : Bool := false
  pending : Option (String × (Text → Bool)) := none

namespace Progress

def record (p : Progress) (key : String) (values : List Text) : Progress :=
  { p with
    parsed := { p.parsed with options := p.parsed.options ++ [(key, values)] }
    adjacent := false
    pending := none }

def store (p : Progress) (key : String) (accepts : Text → Bool) (value : Text) :
    Except Ending Progress :=
  if accepts value then .ok (p.record key [value]) else .error .refused

def storeWritten (p : Progress) (key : String) (accepts : Text → Bool) (value : Text) :
    Except Ending Progress :=
  -- two dashes in the argument of the option itself leave it without a value
  if value = ['-', '-'] then .ok (p.record key []) else p.store key accepts value

def meet (p : Progress) (r : Rule) : Except Ending Progress :=
  match r.kind with
  | .flag => .ok (p.record r.key [])
  | .value accepts => .ok { p with pending := some (r.key, accepts) }
  | .leave text => .error (.left text)

def plain (p : Progress) (g : Grammar) (t : Text) : Progress :=
  if p.parsed.plain.length < g.most then
    { p with parsed := { p.parsed with plain := p.parsed.plain ++ [t] }, adjacent := true }
  else { p with excess := true, adjacent := false }

def dashes (p : Progress) (g : Grammar) (next : Bool) : Progress :=
  if p.adjacent ∨ p.parsed.plain.length < g.most ∧ (next ∨ g.least = 0) then p
  else { p with excess := true }

def cluster (p : Progress) (k : Cluster) (next : Option Token) : Except Ending Progress := do
  if k.last.kind.needsValue ∧ k.value.isNone ∧ !next.any Token.isPlain then throw .refused
  let p ← k.flags.foldlM meet p
  match k.last.kind, k.value with
  | .value accepts, some value => p.storeWritten k.last.key accepts value
  | _, _ => p.meet k.last

def take (p : Progress) (g : Grammar) (next : Option Token) (token : Token) :
    Except Ending Progress :=
  match p.pending, token with
  | some (key, accepts), .plain t => p.store key accepts t
  | some _, _ => .error .refused
  | none, .plain t => .ok (p.plain g t)
  | none, .dashes => .ok (p.dashes g next.isSome)
  | none, .stranger => .ok { p with excess := true, adjacent := false }
  | none, .option r _ none => p.cluster ⟨[], r, none⟩ next
  | none, .option r name (some t) => do p.cluster (← g.cluster r name t) next

end Progress

def Grammar.use (g : Grammar) : Progress → List Token → Except Ending Progress
  | p, [] => .ok p
  | p, token :: rest => do g.use (← p.take g rest.head? token) rest

def Grammar.parse (g : Grammar) (arguments : List Text) : Except Ending Parsed := do
  let p ← g.use {} (← g.tokens arguments)
  if p.excess ∨ p.parsed.plain.length < g.least then .error .refused
  else return p.parsed

structure CommandGrammar where
  rules : List Rule
  commands : List (String × Grammar)

def splitCommand : List Token → List Text → List Token × List Text
  | .plain _ :: _, arguments => ([], arguments)
  | token :: tokens, _ :: arguments =>
    let (before, rest) := splitCommand tokens arguments
    (token :: before, rest)
  | _, _ => ([], [])

def isDashes : Token → Bool
  | .dashes => true
  | _ => false

def CommandGrammar.parse (g : CommandGrammar) (arguments : List Text) :
    Except Ending (Parsed × String × Parsed) := do
  let top : Grammar := ⟨g.rules, 0, 0⟩
  let (before, rest) := splitCommand (← top.tokens arguments) arguments
  let p ← top.use {} (before.filter (!isDashes ·))
  match rest with
  | [] => .error .refused
  | command :: rest =>
    if before.any isDashes then .error .refused
    else
      match g.commands.find? (fun (name, _) => name.toList = command) with
      | none => .error .refused
      | some (name, grammar) =>
        let parsed ← grammar.parse rest
        if p.excess then .error .refused else return (p.parsed, name, parsed)

end Chip8.CommandLine
