import Chip8.Machine.Registers

/-!
# Patches

A patch sets fields of a machine from outside, with no masking and no checks beyond what the rows themselves demand.
It takes effect in the order of its fields, so the part before a mishap stays.
-/

namespace Chip8

/-- What to set. -/
structure Patch where
  index : Option Int := none
  pc : Option Int := none
  sp : Option Int := none
  delayTimer : Option Int := none
  soundTimer : Option Int := none
  cycles : Option Int := none
  halted : Option Bool := none
  stack : Option (List Int) := none
  /-- Replaces the memory by this many zero bytes. -/
  memorySize : Option Int := none
  /-- Replaces the registers by this many zero bytes. -/
  registerCount : Option Int := none
  registers : List (Int × Int) := []
  memory : List (Int × List UInt8) := []

namespace Patch

/-- Stores a value in a register cell if it is a byte. An address that fits no word is refused before the value is
looked at, and a cell that does not exist after it. -/
def setRegisterCell (address value : Int) : Act Machine Unit :=
  if !Cells.fitsWord address then Act.mishap .addressTooWide
  else if 0 ≤ value ∧ value < 256 then Machine.setCell address (UInt8.ofInt value)
  else Act.mishap .notAByte

/-- Overwrites a stretch of memory. -/
def overwrite (address : Int) (data : List UInt8) : Act Machine Unit :=
  modify fun m => { m with memory := Cells.splice m.memory address (address + data.length) data }

/-- The machine with the plain fields set. -/
def setFields (p : Patch) (m : Machine) : Machine :=
  { m with
    index := p.index.getD m.index
    pc := p.pc.getD m.pc
    sp := p.sp.getD m.sp
    delayTimer := p.delayTimer.getD m.delayTimer
    soundTimer := p.soundTimer.getD m.soundTimer
    cycles := p.cycles.getD m.cycles
    halted := p.halted.getD m.halted
    stack := (p.stack.map List.toArray).getD m.stack }

/-- A row of zero bytes of the given size, or the row itself if no size is given. -/
def resized (size : Option Int) (row : Array UInt8) : Except Mishap (Array UInt8) :=
  match size with
  | none => .ok row
  | some n => if Cells.fitsWord n && n < 0 then .error .negativeSize else Cells.row n 1 0

/-- Replaces the memory and the registers if their sizes are given. -/
def setSizes (p : Patch) : Act Machine Unit := do
  let memory ← Act.ofExcept (resized p.memorySize (← get).memory)
  modify fun m => { m with memory }
  let registers ← Act.ofExcept (resized p.registerCount (← get).registers)
  modify fun m => { m with registers }

/-- Applies a patch. -/
def apply (p : Patch) : Act Machine Unit := do
  modify p.setFields
  p.setSizes
  for (address, value) in p.registers do
    setRegisterCell address value
  for (address, data) in p.memory do
    overwrite address data

end Patch

end Chip8
