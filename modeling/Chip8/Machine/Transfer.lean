import Chip8.Machine.Data
import Chip8.Machine.Memory
import Chip8.Machine.Start

/-!
# Glyphs, digits and blocks

Instructions that work at the index register. Each makes sure that its last byte lies in memory before the first one
moves, and none changes the index register except the one that points it at a glyph.
-/

namespace Chip8.Machine

/-- Raises a fault unless the byte `offset` places after the index register lies in memory. -/
def checkBlock (offset : Int) : Act Machine Unit := do
  let m ← get
  if m.index + offset > 0xFFF then raise (.blockPastEnd m.index offset)

/-- Points the index register at the glyph of a digit. -/
def glyph (args : List Int) : Act Machine Unit := do
  let x ← Act.ofExcept (Arguments.first args)
  let digit ← cell x
  if digit.toNat > 0xF then raise (.notADigit x digit)
  assignIndex (digit.toNat * glyphSize : Nat)

/-- Stores the three decimal digits of a register, hundreds first. -/
def decimal (args : List Int) : Act Machine Unit := do
  checkBlock 2
  let x ← Act.ofExcept (Arguments.first args)
  let value ← cell x
  let index := (← get).index
  writeByte index (value.toNat / 100 : Nat)
  writeByte (index + 1) (value.toNat / 10 % 10 : Nat)
  writeByte (index + 2) (value.toNat % 10 : Nat)
  advance

/-- Copies registers to memory: `count` of them, from register `k` on. -/
def storeFrom (k : Nat) : Nat → Act Machine Unit
  | 0 => pure ()
  | count + 1 => do
    let value ← cell k
    setMemoryCell ((← get).index + k) value
    storeFrom (k + 1) count

/-- Copies memory to registers: `count` of them, from register `k` on. -/
def loadFrom (k : Nat) : Nat → Act Machine Unit
  | 0 => pure ()
  | count + 1 => do
    let value ← memoryCell ((← get).index + k)
    setCell k value
    loadFrom (k + 1) count

/-- Stores the registers up to and including `x`. -/
def store (args : List Int) : Act Machine Unit := do
  let x ← Act.ofExcept (Arguments.first args)
  checkBlock x
  storeFrom 0 (x + 1).toNat
  advance

/-- Loads the registers up to and including `x`. -/
def load (args : List Int) : Act Machine Unit := do
  let x ← Act.ofExcept (Arguments.first args)
  checkBlock x
  loadFrom 0 (x + 1).toNat
  advance

end Chip8.Machine
