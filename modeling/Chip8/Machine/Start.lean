import Chip8.Machine.Memory

/-!
# A fresh machine

A machine starts with the glyphs of the sixteen digits at the bottom of memory and the program from 0x200 on, both
copied to a machine in which all else is zero.
-/

namespace Chip8

/-- The glyphs of the sixteen digits, five rows each. -/
def font : List UInt8 :=
  [0xF0, 0x90, 0x90, 0x90, 0xF0,
   0x20, 0x60, 0x20, 0x20, 0x70,
   0xF0, 0x10, 0xF0, 0x80, 0xF0,
   0xF0, 0x10, 0xF0, 0x10, 0xF0,
   0x90, 0x90, 0xF0, 0x10, 0x10,
   0xF0, 0x80, 0xF0, 0x10, 0xF0,
   0xF0, 0x80, 0xF0, 0x90, 0xF0,
   0xF0, 0x10, 0x20, 0x40, 0x40,
   0xF0, 0x90, 0xF0, 0x90, 0xF0,
   0xF0, 0x90, 0xF0, 0x10, 0xF0,
   0xF0, 0x90, 0xF0, 0x90, 0x90,
   0xE0, 0x90, 0xE0, 0x90, 0xE0,
   0xF0, 0x80, 0x80, 0x80, 0xF0,
   0xE0, 0x90, 0x90, 0x90, 0xE0,
   0xF0, 0x80, 0xF0, 0x80, 0xF0,
   0xF0, 0x80, 0xF0, 0x80, 0x80]

/-- Rows of a glyph. -/
def glyphSize : Nat := 5

theorem length_font : font.length = 16 * glyphSize := by decide

namespace Machine

/-- Copies the font to the bottom of memory and a program to where programs begin. -/
def loadImage (rom : List UInt8) : Act Machine Unit := do
  loadBytes 0 font
  loadBytes 0x200 rom

/-- The machine that the copies make of an empty one. A program that is not too large is copied without fail. -/
def image (rom : List UInt8) : Machine :=
  match loadImage rom {} with
  | .ok () m | .error _ m => m

/-- A fresh machine with a program. -/
def start (rom : List UInt8) : Except Mishap Machine :=
  if rom.length ≤ maxProgramSize then .ok (image rom) else .error (.romTooLarge rom.length)

/-- A fresh machine with an empty program. -/
def empty : Machine := image []

theorem start_nil : start [] = .ok empty := rfl

end Machine

end Chip8
