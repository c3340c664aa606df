import Chip8.Display.Device
import Chip8.Journal

/-!
# The window

A frame buffer shown in a window, with the left side of a keyboard as its keypad. A frame buffer pixel is a square of
`scale` window pixels; without a scale, lengths in the window are left blank. The window system is seen from this side
only: `calls` are the calls made to it, and `pending` are the batches of events it will deliver, followed by requests
to quit for ever. Main statements: `render_closed` and `render_clean`, the two cases in which rendering makes no call.
-/

namespace Chip8

/-- A colour: red, green, blue. -/
structure Colour where
  red : Nat
  green : Nat
  blue : Nat
  deriving DecidableEq, Repr

/-- A length in window pixels, or a blank. -/
abbrev Length : Type := Option Int

/-- A rectangle: left edge, top edge, width, height. -/
structure Rectangle where
  left : Length
  top : Length
  width : Length
  height : Length
  deriving DecidableEq, Repr

/-- A call to the window system. Without a rectangle a fill paints the whole surface. -/
inductive WindowCall where
  | init
  | caption (title : String)
  | setMode (width height : Length)
  | fill (colour : Colour) (area : Option Rectangle)
  | flip
  | quit
  deriving DecidableEq, Repr

/-- An event from the window system. -/
inductive Event where
  | quit
  | keyDown (key : String)
  | keyUp (key : String)
  | other
  deriving DecidableEq, Repr

/-- The window and what it has seen. -/
structure Window where
  screen : FrameBuffer := .standard
  /-- Window pixels along the side of a frame buffer pixel. -/
  scale : Length := some 10
  title : String := "CHIP-8"
  quitRequested : Bool := false
  isOpen : Bool := false
  calls : Array WindowCall := #[]
  pending : List (List Event) := []
  journal : Array Note := #[]
  deriving Repr

namespace Window

/-- Colour of a lit pixel. -/
def litColour : Colour := ⟨255, 255, 255⟩

/-- Colour of a dark pixel. -/
def darkColour : Colour := ⟨0, 0, 0⟩

/-- The keys of the keyboard and the keypad keys they stand for. -/
def keyLayout : List (String × Nat) :=
  [("1", 0x1), ("2", 0x2), ("3", 0x3), ("4", 0xC),
   ("q", 0x4), ("w", 0x5), ("e", 0x6), ("r", 0xD),
   ("a", 0x7), ("s", 0x8), ("d", 0x9), ("f", 0xE),
   ("z", 0xA), ("x", 0x0), ("c", 0xB), ("v", 0xF)]

/-- The key that asks to quit. -/
def escapeKey : String := "escape"

/-! ## Opening and closing -/

/-- Makes calls to the window system. -/
def call (w : Window) (calls : List WindowCall) : Window := { w with calls := w.calls ++ calls.toArray }

/-- A number of frame buffer pixels in window pixels. -/
def scaled (scale : Length) (n : Int) : Length := scale.map (n * ·)

/-- What there is to report of a window of this size. A blank size cannot be reported. -/
def openingNotes : Length → Length → Array Note
  | some width, some height => #[.windowOpened width height]
  | _, _ => #[]

/-- Opens the window. -/
def openWindow (w : Window) : Window :=
  let width := scaled w.scale w.screen.width
  let height := scaled w.scale w.screen.height
  { w.call [.init, .caption w.title, .setMode width height] with
    isOpen := true
    screen := { w.screen with dirty := true }
    journal := w.journal ++ openingNotes width height }

/-- Closes the window if it is open. -/
def close (w : Window) : Window := if w.isOpen then { w.call [.quit] with isOpen := false } else w

/-! ## Keys and events -/

/-- The keypad key of a keyboard key. Names are compared in lower case; no letter outside the basic alphabet has a
lower case in the layout. -/
def keyOf? (name : String) : Option Nat := keyLayout.lookup (name.map Char.toLower)

/-- Applies a keyboard key to the keypad, and tells which keypad key it is. -/
def handleKey (w : Window) (name : String) (down : Bool) : Option Nat × Window :=
  match keyOf? name with
  | none => (none, w)
  | some key =>
    let keypad := if down then w.screen.keypad.pressed key else w.screen.keypad.released key
    (some key, { w with screen := { w.screen with keypad } })

/-- Applies one event. -/
def handleEvent (w : Window) : Event → Window
  | .quit => { w with quitRequested := true }
  | .keyDown key => if key = escapeKey then { w with quitRequested := true } else (w.handleKey key true).2
  | .keyUp key => (w.handleKey key false).2
  | .other => w

/-- The next batch of events, and the batches after it. -/
def nextBatch : List (List Event) → List Event × List (List Event)
  | [] => ([.quit], [])
  | batch :: rest => (batch, rest)

/-- Applies the next batch of events if the window is open, and tells whether to go on. -/
def processEvents (w : Window) : Bool × Window :=
  if w.isOpen then
    let (batch, rest) := nextBatch w.pending
    let w := batch.foldl handleEvent { w with pending := rest }
    (!w.quitRequested, w)
  else (!w.quitRequested, w)

/-! ## Rendering -/

/-- The square of a pixel. -/
def square (scale : Length) (x y : Nat) : Rectangle := ⟨scaled scale x, scaled scale y, scale, scale⟩

/-- The calls that paint and show the frame buffer. -/
def paint (w : Window) : List WindowCall :=
  .fill darkColour none :: (w.screen.litPixels.map fun (x, y) => .fill litColour (some (square w.scale x y))) ++ [.flip]

/-- Shows the frame buffer if the window is open and anything has changed. -/
def render (w : Window) : Window :=
  if w.isOpen && w.screen.dirty then { w.call w.paint with screen := { w.screen with dirty := false } } else w

theorem render_closed {w : Window} (h : w.isOpen = false) : w.render = w := by simp [render, h]

theorem render_clean {w : Window} (h : w.screen.dirty = false) : w.render = w := by simp [render, h]

end Window

instance : Device Window where
  width w := w.screen.width
  height w := w.screen.height
  clear w := { w with screen := w.screen.clear }
  draw w x y bit := (w.screen.drawPixel x y bit).map fun (hit, screen) => (hit, { w with screen })
  heldKeys w := (w.screen.keypad.held, w)
  activeKey w := (w.screen.keypad.active.map Int.ofNat, w)

end Chip8
