namespace Chip8

/-- A subtractive generator of 31-bit numbers with lags 55 and 34. Entry 0 of the table is unused;
`near` and `far` are the entries last combined. -/
structure LaggedGenerator where
  seed : Int
  table : Vector Int 56
  near : Fin 56
  far : Fin 56
  deriving DecidableEq

namespace LaggedGenerator

def modulus : Int := 2147483647

def origin : Int := 161803398

def wrap (n : Int) : Int := if n < 0 then n + modulus else n

def scatter : List (Fin 56) → Vector Int 56 → Int → Int → Vector Int 56
  | [], table, _, _ => table
  | i :: rest, table, previous, current =>
    scatter rest (table.set i current) current (wrap (previous - current))

def scatterOrder : List (Fin 56) := (List.range' 1 54).map (fun i => ⟨21 * i % 55, by omega⟩)

def mixOnce (table : Vector Int 56) : Vector Int 56 :=
  (List.range' 1 55).foldl (fun t i =>
    let i : Fin 56 := Fin.ofNat 56 i
    let j : Fin 56 := ⟨1 + (i.val + 30) % 55, by omega⟩
    t.set i (wrap (t[i] - t[j]))) table

def magnitude (seed : Int) : Int := if seed = -modulus - 1 then modulus else seed.natAbs

def ofSeed (seed : Int) : LaggedGenerator :=
  let first := origin - magnitude seed
  let table := scatter scatterOrder ((Vector.replicate 56 0).set 55 first) first 1
  ⟨seed, mixOnce (mixOnce (mixOnce (mixOnce table))), 0, 21⟩

def following (i : Fin 56) : Fin 56 := if h : i.val + 1 < 56 then ⟨i.val + 1, h⟩ else 1

def reduce (n : Int) : Int := wrap (if n = modulus then n - 1 else n)

def next (g : LaggedGenerator) : Int × LaggedGenerator :=
  let near := following g.near
  let far := following g.far
  let value := reduce (g.table[near] - g.table[far])
  (value, { g with table := g.table.set near value, near, far })

def nextByte (g : LaggedGenerator) : Int × LaggedGenerator :=
  let (value, g) := g.next
  (value % 256, g)

end LaggedGenerator

/-- The seeds of generators that are given none, each drawn once. -/
structure Entropy where
  draws : Nat → Fin 2147483647
  deriving Inhabited

namespace Entropy

def head (e : Entropy) : Int := (e.draws 0).val

def rest (e : Entropy) : Entropy := ⟨fun n => e.draws (n + 1)⟩

def pick (e : Entropy) : Option Int → Int × Entropy
  | some seed => (seed, e)
  | none => (e.head, e.rest)

end Entropy

end Chip8
