import Chip8.Machine.Arguments
import Chip8.Machine.Registers
import Chip8.Machine.Stack

/-!
# Flow of control

Jumps, calls, returns and skips. Each moves the program counter once, as its last act.
-/

namespace Chip8.Machine

/-! ## Jumps and calls -/

/-- Jumps to the address on top of the stack. -/
def ret : Act Machine Unit := do
  let address ← pop
  setPc address

/-- Jumps to an address. -/
def jump (args : List Int) : Act Machine Unit := do
  let address ← Act.ofExcept (Arguments.first args)
  setPc address

/-- Puts the address of the next instruction on the stack and jumps. -/
def call (args : List Int) : Act Machine Unit := do
  push ((← get).pc + 2)
  let address ← Act.ofExcept (Arguments.first args)
  setPc address

/-- Jumps to an address moved on by register zero. The sum is not reduced. -/
def jumpOffset (args : List Int) : Act Machine Unit := do
  let offset ← cell 0
  let address ← Act.ofExcept (Arguments.first args)
  setPc (offset.toNat + address)

/-! ## Skips -/

/-- Skips if the register is the byte. -/
def skipEqByte (args : List Int) : Act Machine Unit := do
  let (x, byte) ← Act.ofExcept (Arguments.two args)
  let a ← cell x
  skipIf ((a.toNat : Int) == byte)

/-- Skips if the register is not the byte. -/
def skipNeByte (args : List Int) : Act Machine Unit := do
  let (x, byte) ← Act.ofExcept (Arguments.two args)
  let a ← cell x
  skipIf ((a.toNat : Int) != byte)

/-- Skips if the registers are equal. -/
def skipEqReg (args : List Int) : Act Machine Unit := do
  let (x, y) ← Act.ofExcept (Arguments.two args)
  let a ← cell x
  let b ← cell y
  skipIf (a == b)

/-- Skips if the registers differ. -/
def skipNeReg (args : List Int) : Act Machine Unit := do
  let (x, y) ← Act.ofExcept (Arguments.two args)
  let a ← cell x
  let b ← cell y
  skipIf (a != b)

end Chip8.Machine
