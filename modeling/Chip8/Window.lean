import Chip8.Log

namespace Chip8

structure Frame where
  rows : List (List Bool)
  sound : Bool
  sequence : Int
  deriving DecidableEq, Repr

inductive Color where
  | on
  | off
  deriving DecidableEq, Repr

inductive DrawCall where
  | boot
  | size (width height : Int)
  | caption (text : String)
  | fill (color : Color)
  | square (color : Color) (x y side : Int)
  | flip
  | tick (fps : Int)
  | quit
  deriving DecidableEq, Repr

inductive WindowEvent where
  | close
  | keyDown (key : Option String)
  | other
  deriving DecidableEq, Repr

def WindowEvent.ends : WindowEvent → Bool
  | close => true
  | keyDown key => key == some "q"
  | other => false

structure Window where
  scale : Int := 10
  fps : Int := 60
  isOpen : Bool := false
  drawn : Nat := 0
  shown : Int := -1
  soundShown : Bool := false
  deriving DecidableEq, Repr

namespace Window

def title : String := "CHIP-8"

def captionFor (sound : Bool) : String := if sound then title ++ " [sound]" else title

def openOn (w : Window) (screen : Bool) : Window × List DrawCall × Bool :=
  if screen then
    ({ w with isOpen := true },
      [.boot, .size (64 * w.scale) (32 * w.scale), .caption title, .fill .off, .flip], true)
  else (w, [.boot], false)

def failure : LogEntry :=
  ⟨.error, .window, "Failed to initialize display: No available video device"⟩

def shutdown (w : Window) : Window × List DrawCall :=
  if w.isOpen then ({ w with isOpen := false }, [.quit]) else (w, [])

def squares (w : Window) (rows : List (List Bool)) : List DrawCall :=
  rows.zipIdx.flatMap (fun (row, y) => row.zipIdx.filterMap (fun (pixel, x) =>
    if pixel then some (.square .on (x * w.scale) (y * w.scale) w.scale) else none))

def captions (w : Window) (sound : Bool) : List DrawCall :=
  if sound ≠ w.soundShown then [.caption (captionFor sound)] else []

def present (w : Window) : Option Frame → Window × List DrawCall
  | none => (w, [])
  | some frame =>
    if frame.sequence = w.shown then (w, [])
    else
      ({ w with shown := frame.sequence, soundShown := frame.sound, drawn := w.drawn + 1 },
        .fill .off :: w.squares frame.rows ++ w.captions frame.sound ++ [.flip])

def update (w : Window) (events : List WindowEvent) (frame : Option Frame) :
    Window × List DrawCall × Bool :=
  if !w.isOpen || events.any WindowEvent.ends then (w, [], false)
  else
    let (w, calls) := w.present frame
    (w, calls ++ [.tick w.fps], true)

end Window

end Chip8
