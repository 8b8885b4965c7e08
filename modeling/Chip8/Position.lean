namespace Chip8

def position (n : Nat) (i : Int) : Option (Fin n) :=
  if h : 0 ≤ i ∧ i < n then some ⟨i.toNat, by omega⟩
  else if h : -(n : Int) ≤ i ∧ i < 0 then some ⟨(i + n).toNat, by omega⟩
  else none

def pick {α : Type} (xs : List α) (i : Int) : Option α := (position xs.length i).map (xs[·])

def cut (n : Nat) (i : Int) : Nat := min n (if i < 0 then (i + n).toNat else i.toNat)

def slice {α : Type} (xs : List α) (start stop : Int) : List α :=
  (xs.take (cut xs.length stop)).drop (cut xs.length start)

end Chip8
