import Chip8.Machine.Memory
import Chip8.Machine.Registers
import Chip8.Machine.Arguments
import Chip8.Rig.Basic

/-!
# Sprites

A sprite is a number of rows of eight pixels, one byte a row, most significant bit to the left. It is turned over onto
the display row by row and from left to right, each pixel wrapping round the edges by itself. The flag is cleared
before the first pixel and set after the last one if any pixel was put out.
-/

namespace Chip8.Rig

variable {δ ρ : Type} [Device δ]

/-- A place modulo the size of the display. The remainder has the sign of the size. -/
def wrap (place size : Int) : Except Mishap Int := if size = 0 then .error .zeroModulus else .ok (Int.fmod place size)

/-- Does a row have its pixel in this column? -/
def hasPixel (line : UInt8) (column : Nat) : Bool := line.toNat.testBit (7 - column)

/-- Draws the pixels of a row in the given columns. -/
def drawColumns (left top : Int) (line : UInt8) : List Nat → Bool → Act (Rig δ ρ) Bool
  | [], hit => pure hit
  | column :: rest, hit =>
    if hasPixel line column then do
      let device := (← get).device
      let x ← Act.ofExcept (wrap (left + column) (Device.width device))
      let y ← Act.ofExcept (wrap top (Device.height device))
      let out ← turnPixel x y
      drawColumns left top line rest (hit || out)
    else drawColumns left top line rest hit

/-- Draws `count` rows from row `row` on. -/
def drawRows (left top : Int) (row : Nat) : Nat → Bool → Act (Rig δ ρ) Bool
  | 0, hit => pure hit
  | count + 1, hit => do
    let line ← onMachine (Machine.memoryCell ((← get).machine.index + row))
    let hit ← drawColumns left (top + row) line (List.range 8) hit
    drawRows left top (row + 1) count hit

/-- Draws the sprite at the index register at the place that two registers hold. -/
def drawSprite (args : List Int) : Act (Rig δ ρ) Unit := do
  let (x, y, rows) ← Act.ofExcept (Arguments.three args)
  if rows ≠ 0 then onMachine (Machine.checkRange (← get).machine.index rows)
  let left ← onMachine (Machine.cell x)
  let top ← onMachine (Machine.cell y)
  onMachine (Machine.setFlag false)
  let hit ← drawRows left.toNat top.toNat 0 rows.toNat false
  onMachine (Machine.setFlag hit)
  onMachine Machine.advance

end Chip8.Rig
