import Chip8.Machine.Arguments
import Chip8.Machine.Registers

/-!
# Data movement and arithmetic

Instructions that compute a register, the index register or a timer and go on to the next instruction. Those with a
flag read both operands first, then write the flag, then the result, so with the flag register as target the result
is what stays.
-/

namespace Chip8.Machine

/-- Stores a value in a register and goes on. -/
def assign (x value : Int) : Act Machine Unit := do
  setRegister x value
  advance

/-- Stores a flag, then a value in a register, and goes on. -/
def assignWithFlag (flag : Bool) (x value : Int) : Act Machine Unit := do
  setFlag flag
  assign x value

/-! ## Registers -/

/-- Sets a register to a byte. -/
def setByte (args : List Int) : Act Machine Unit := do
  let (x, byte) ← Act.ofExcept (Arguments.two args)
  assign x byte

/-- Adds a byte to a register, without a flag. -/
def addByte (args : List Int) : Act Machine Unit := do
  let (x, byte) ← Act.ofExcept (Arguments.two args)
  let a ← cell x
  assign x (a.toNat + byte)

/-- Copies a register. -/
def setReg (args : List Int) : Act Machine Unit := do
  let (x, y) ← Act.ofExcept (Arguments.two args)
  let b ← cell y
  assign x b.toNat

/-- Combines two registers bit by bit. -/
def combine (f : UInt8 → UInt8 → UInt8) (args : List Int) : Act Machine Unit := do
  let (x, y) ← Act.ofExcept (Arguments.two args)
  let a ← cell x
  let b ← cell y
  assign x (f a b).toNat

/-- Adds two registers; the flag is the carry. -/
def addReg (args : List Int) : Act Machine Unit := do
  let (x, y) ← Act.ofExcept (Arguments.two args)
  let a ← cell x
  let b ← cell y
  assignWithFlag (decide (255 < a.toNat + b.toNat)) x (a.toNat + b.toNat)

/-- Takes the second register from the first; the flag says that nothing was borrowed. -/
def subReg (args : List Int) : Act Machine Unit := do
  let (x, y) ← Act.ofExcept (Arguments.two args)
  let a ← cell x
  let b ← cell y
  assignWithFlag (decide (b.toNat ≤ a.toNat)) x ((a.toNat : Int) - b.toNat)

/-- Takes the first register from the second; the flag says that nothing was borrowed. -/
def subFromReg (args : List Int) : Act Machine Unit := do
  let (x, y) ← Act.ofExcept (Arguments.two args)
  let a ← cell x
  let b ← cell y
  assignWithFlag (decide (a.toNat ≤ b.toNat)) x ((b.toNat : Int) - a.toNat)

/-- Halves a register; the flag is the bit that drops out. -/
def shiftRight (args : List Int) : Act Machine Unit := do
  let x ← Act.ofExcept (Arguments.first args)
  let a ← cell x
  assignWithFlag (a.toNat % 2 == 1) x (a.toNat / 2 : Nat)

/-- Doubles a register; the flag is the bit that drops out. -/
def shiftLeft (args : List Int) : Act Machine Unit := do
  let x ← Act.ofExcept (Arguments.first args)
  let a ← cell x
  assignWithFlag (decide (128 ≤ a.toNat)) x (2 * a.toNat : Nat)

/-! ## Index register and timers -/

/-- Points the index register at an address and goes on. -/
def assignIndex (value : Int) : Act Machine Unit := do
  setIndex value
  advance

/-- Sets the index register. -/
def setIndexTo (args : List Int) : Act Machine Unit := do
  let address ← Act.ofExcept (Arguments.first args)
  assignIndex address

/-- Adds a register to the index register. -/
def addIndex (args : List Int) : Act Machine Unit := do
  let index := (← get).index
  let x ← Act.ofExcept (Arguments.first args)
  let a ← cell x
  assignIndex (index + a.toNat)

/-- Reads the delay timer. -/
def readDelay (args : List Int) : Act Machine Unit := do
  let x ← Act.ofExcept (Arguments.first args)
  assign x (← get).delayTimer

/-- Sets the delay timer. -/
def setDelay (args : List Int) : Act Machine Unit := do
  let x ← Act.ofExcept (Arguments.first args)
  let a ← cell x
  modify fun m => { m with delayTimer := a.toNat }
  advance

/-- Sets the sound timer. -/
def setSound (args : List Int) : Act Machine Unit := do
  let x ← Act.ofExcept (Arguments.first args)
  let a ← cell x
  modify fun m => { m with soundTimer := a.toNat }
  advance

end Chip8.Machine
