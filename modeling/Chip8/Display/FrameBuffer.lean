import Chip8.Cells
import Chip8.Display.Keypad

/-!
# The frame buffer

A display kept in memory together with the keypad beside it. Pixels are turned over, never set, and a turn that puts
a lit pixel out is a collision. The buffer counts its draws and clears, and remembers whether anything has changed
since it was last shown. Main statements: `drawPixel_eq` and `drawPixel_error`.
-/

namespace Chip8

/-- Rows of pixels, the keypad, and the two counts. The size may be any two integers; a display without columns or
rows has no pixel. -/
structure FrameBuffer where
  width : Int
  height : Int
  rows : Array (Array Bool)
  keypad : Keypad := {}
  draws : Nat := 0
  clears : Nat := 0
  dirty : Bool := true
  deriving DecidableEq, Repr

namespace FrameBuffer

/-! ## Display -/

/-- Rows with no pixel lit. Where there are no rows, their width does not matter. -/
def darkRows (width height : Int) : Array (Array Bool) :=
  if height ≤ 0 then #[] else Array.replicate height.toNat (Array.replicate width.toNat false)

/-- A dark display. -/
def blank (width height : Int) : FrameBuffer := { width, height, rows := darkRows width height }

/-- The bytes that a pixel takes up. -/
def pixelSize : Nat := 8

/-- A dark display, unless it has rows and they are too wide to be laid out. -/
def create (width height : Int) : Except Mishap FrameBuffer :=
  if height ≤ 0 then .ok (blank width height)
  else (Cells.row width pixelSize false).map fun row =>
    { width, height, rows := Array.replicate height.toNat row }

/-- The display of the machine. -/
def standard : FrameBuffer := blank 64 32

/-- Puts every pixel out. -/
def clear (f : FrameBuffer) : FrameBuffer :=
  { f with rows := darkRows f.width f.height, clears := f.clears + 1, dirty := true }

/-- Is there a pixel at this place? -/
def inside (f : FrameBuffer) (x y : Int) : Bool := 0 ≤ x && x < f.width && 0 ≤ y && y < f.height

/-- The pixel in column `x` of row `y`; dark where there is none. -/
def pixel (f : FrameBuffer) (x y : Nat) : Bool := (f.rows[y]?.bind (·[x]?)).getD false

/-- The display with the pixel in column `x` of row `y` turned over. -/
def turned (f : FrameBuffer) (x y : Nat) : FrameBuffer :=
  { f with rows := f.rows.modify y fun row => row.modify x not }

/-- Turns a pixel over if `bit` is not zero, and tells whether that put it out. -/
def drawPixel (f : FrameBuffer) (x y bit : Int) : Except Mishap (Bool × FrameBuffer) :=
  if f.inside x y then
    let lit := f.pixel x.toNat y.toNat
    if bit = 0 then .ok (false, { f with draws := f.draws + 1 })
    else .ok (lit, { f.turned x.toNat y.toNat with draws := f.draws + 1, dirty := true })
  else .error (.pixelOutside x y f.width f.height)

/-- The pixel whose row and column these addresses name. -/
def getPixel (f : FrameBuffer) (x y : Int) : Except Mishap Bool := do
  let row ← Cells.read .noEntryToRead f.rows y
  Cells.read .noEntryToRead row x

/-- Column and row of every lit pixel, row by row. -/
def litPixels (f : FrameBuffer) : List (Nat × Nat) :=
  f.rows.toList.zipIdx.flatMap fun (row, y) =>
    row.toList.zipIdx.filterMap fun (lit, x) => if lit then some (x, y) else none

/-- The display as lines of text. -/
def renderText (f : FrameBuffer) (on off : String) : String :=
  "\n".intercalate (f.rows.toList.map fun row => String.join (row.toList.map fun lit => if lit then on else off))

theorem drawPixel_error {f : FrameBuffer} {x y bit : Int} (h : f.inside x y = false) :
    f.drawPixel x y bit = .error (.pixelOutside x y f.width f.height) := by
  rw [drawPixel, if_neg (by simp [h])]

theorem drawPixel_eq {f : FrameBuffer} {x y bit : Int} (h : f.inside x y = true) (hbit : bit ≠ 0) :
    f.drawPixel x y bit =
      .ok (f.pixel x.toNat y.toNat, { f.turned x.toNat y.toNat with draws := f.draws + 1, dirty := true }) := by
  rw [drawPixel, if_pos h, if_neg hbit]

/-! ## Keypad -/

/-- Presses a key. -/
def pressKey (f : FrameBuffer) (key : Int) : Except Mishap FrameBuffer :=
  (f.keypad.press key).map fun keypad => { f with keypad }

/-- Releases a key. -/
def releaseKey (f : FrameBuffer) (key : Int) : Except Mishap FrameBuffer :=
  (f.keypad.release key).map fun keypad => { f with keypad }

/-- Releases all keys. -/
def releaseAll (f : FrameBuffer) : FrameBuffer := { f with keypad := Keypad.allUp }

end FrameBuffer

end Chip8
