import Chip8.Bits
import Chip8.Instruction.Op
import Chip8.Machine.Flow
import Chip8.Machine.Transfer
import Chip8.Rig.Sprite

/-!
# Executing operations

What each operation does to a rig. All but six touch the machine alone: `clear` and `draw` use the display, the key
instructions the keypad, and `random` the random source. An operation that completes counts as one cycle.
-/

namespace Chip8.Rig

variable {δ ρ : Type} [Device δ]

/-! ## Keys and random numbers -/

/-- Is the key with this number held? There are no keys from sixteen on, and the device is not asked about them. -/
def isHeld (key : UInt8) : Act (Rig δ ρ) Bool :=
  if key.toNat < 16 then do
    let mask ← heldKeys
    return Bits.testBit mask key.toNat
  else pure false

/-- Skips if the key in a register is held, or if it is not. -/
def skipOnKey (wanted : Bool) (args : List Int) : Act (Rig δ ρ) Unit := do
  let x ← Act.ofExcept (Arguments.first args)
  let key ← onMachine (Machine.cell x)
  let held ← isHeld key
  onMachine (Machine.skipIf (held == wanted))

/-- Stores the active key in a register and goes on. Without one the program counter stays where it is. -/
def awaitKey (args : List Int) : Act (Rig δ ρ) Unit := do
  match ← activeKey with
  | none => pure ()
  | some key =>
    let x ← Act.ofExcept (Arguments.first args)
    onMachine (Machine.assign x key)

/-- Stores the bits of a random number that a mask selects. -/
def assignRandom [RandomSource ρ] (args : List Int) : Act (Rig δ ρ) Unit := do
  let (x, mask) ← Act.ofExcept (Arguments.two args)
  let n ← draw
  onMachine (Machine.assign x (Bits.and n mask))

/-! ## All operations -/

variable [RandomSource ρ]

/-- Runs an operation on its operands. -/
def perform : Op → List Int → Act (Rig δ ρ) Unit
  | .clear, _ => do
    clearDisplay
    onMachine Machine.advance
  | .ret, _ => onMachine Machine.ret
  | .jump, args => onMachine (Machine.jump args)
  | .call, args => onMachine (Machine.call args)
  | .skipEqByte, args => onMachine (Machine.skipEqByte args)
  | .skipNeByte, args => onMachine (Machine.skipNeByte args)
  | .skipEqReg, args => onMachine (Machine.skipEqReg args)
  | .setByte, args => onMachine (Machine.setByte args)
  | .addByte, args => onMachine (Machine.addByte args)
  | .setReg, args => onMachine (Machine.setReg args)
  | .orReg, args => onMachine (Machine.combine (· ||| ·) args)
  | .andReg, args => onMachine (Machine.combine (· &&& ·) args)
  | .xorReg, args => onMachine (Machine.combine (· ^^^ ·) args)
  | .addReg, args => onMachine (Machine.addReg args)
  | .subReg, args => onMachine (Machine.subReg args)
  | .shiftRight, args => onMachine (Machine.shiftRight args)
  | .subFromReg, args => onMachine (Machine.subFromReg args)
  | .shiftLeft, args => onMachine (Machine.shiftLeft args)
  | .skipNeReg, args => onMachine (Machine.skipNeReg args)
  | .setIndex, args => onMachine (Machine.setIndexTo args)
  | .jumpOffset, args => onMachine (Machine.jumpOffset args)
  | .random, args => assignRandom args
  | .draw, args => drawSprite args
  | .skipKey, args => skipOnKey true args
  | .skipNoKey, args => skipOnKey false args
  | .readDelay, args => onMachine (Machine.readDelay args)
  | .awaitKey, args => awaitKey args
  | .setDelay, args => onMachine (Machine.setDelay args)
  | .setSound, args => onMachine (Machine.setSound args)
  | .addIndex, args => onMachine (Machine.addIndex args)
  | .glyph, args => onMachine (Machine.glyph args)
  | .decimal, args => onMachine (Machine.decimal args)
  | .store, args => onMachine (Machine.store args)
  | .load, args => onMachine (Machine.load args)

/-- Runs an operation and counts it. -/
def execute (op : Op) (args : List Int) : Act (Rig δ ρ) Unit := do
  perform op args
  onMachine Machine.countCycle

end Chip8.Rig
