import Chip8.Bits
import Chip8.Position

namespace Chip8

structure Bitmap (width height : Nat) where
  pixels : Vector (Vector Bool width) height
  deriving DecidableEq

namespace Bitmap

variable {width height : Nat}

def blank : Bitmap width height := ⟨Vector.replicate height (Vector.replicate width false)⟩

def ofSize? (width height : Int) : Option (Bitmap width.toNat height.toNat) :=
  -- without rows no width is wrong
  if width < 0 ∧ 0 < height then none else some blank

def rows (b : Bitmap width height) : List (List Bool) := b.pixels.toList.map Vector.toList

def lit (b : Bitmap width height) : Nat := b.rows.flatten.count true

def at? {α : Type} (x y : Int) (f : Fin width → Fin height → α) : Option α := do
  return f (← position width x) (← position height y)

def get (b : Bitmap width height) (x : Fin width) (y : Fin height) : Bool := b.pixels[y][x]

def get? (b : Bitmap width height) (x y : Int) : Option Bool := at? x y b.get

def put (b : Bitmap width height) (x : Fin width) (y : Fin height) (on : Bool) :
    Bitmap width height :=
  ⟨b.pixels.set y (b.pixels[y].set x on)⟩

def set? (b : Bitmap width height) (x y : Int) (on : Bool) : Option (Bitmap width height) :=
  at? x y (b.put · · on)

def toggle? (b : Bitmap width height) (x y : Int) : Option (Bitmap width height × Bool) :=
  at? x y (fun x y => (b.put x y !b.get x y, b.get x y))

/-- What drawing leaves: the picture, and whether a lit pixel went out unless the drawing left the
picture at the top or the left. -/
abbrev Drawn (width height : Nat) := Bitmap width height × Option Bool

def drawRow (b : Bitmap width height) (x y row : Int) (hit : Bool) : List Nat → Drawn width height
  | [] => (b, some hit)
  | bit :: rest =>
    if width ≤ x + bit then (b, some hit)
    else if Bits.test row (7 - bit) then
      match b.toggle? (x + bit) y with
      | none => (b, none)
      | some (b, out) => b.drawRow x y row (hit || out) rest
    else b.drawRow x y row hit rest

def drawAbove (bottom : Int) (b : Bitmap width height) (x y : Int) (hit : Bool) :
    List Int → Drawn width height
  | [] => (b, some hit)
  | row :: rest =>
    if bottom ≤ y then (b, some hit)
    else if (position height y).isNone then (b, none)
    else
      match b.drawRow x y row hit (List.range 8) with
      | (b, none) => (b, none)
      | (b, some hit) => b.drawAbove bottom x (y + 1) hit rest

def draw (b : Bitmap width height) (x y : Int) (hit : Bool) (sprite : List Int) :
    Drawn width height :=
  b.drawAbove height x y hit sprite

end Bitmap

def renderRows (on off : String) (rows : List (List Bool)) : String :=
  "\n".intercalate (rows.map (fun row => String.join (row.map (fun p => if p then on else off))))

end Chip8
