import Chip8.Machine.Basic

/-!
# Registers, counter and lifecycle

The sixteen byte registers are reached in two ways. Programs are checked: a number outside 0 to 15 is an invalid
register. The cells themselves are reached by any address that names one. Values are stored modulo 256, addresses in
the index register modulo 4096, and the program counter is not reduced at all.
-/

namespace Chip8.Machine

/-! ## Registers -/

/-- The byte in the register cell at an address. -/
def cell (address : Int) : Act Machine UInt8 := do
  Act.ofExcept (Cells.read .noByteCell (← get).registers address)

/-- Stores a byte in the register cell at an address. -/
def setCell (address : Int) (value : UInt8) : Act Machine Unit := do
  let registers ← Act.ofExcept (Cells.write .noByteCell (← get).registers address value)
  modify fun m => { m with registers }

/-- Is this the number of a register? -/
def isRegister (x : Int) : Bool := 0 ≤ x && x < 16

/-- The value of register `x`. -/
def getRegister (x : Int) : Act Machine UInt8 :=
  if isRegister x then cell x else Act.mishap (.invalidRegister x)

/-- Stores a value, modulo 256, in register `x`. -/
def setRegister (x value : Int) : Act Machine Unit :=
  if isRegister x then setCell x (UInt8.ofInt value) else Act.mishap (.invalidRegister x)

/-- Stores one or zero in the flag register. -/
def setFlag (flag : Bool) : Act Machine Unit := setCell 15 (if flag then 1 else 0)

/-- Points the index register at an address, modulo 4096. -/
def setIndex (value : Int) : Act Machine Unit := modify fun m => { m with index := value % 4096 }

/-- The name of a register. -/
def registerName (x : Nat) : String := "V" ++ Text.hex 0 x

/-- The registers by name, in order. -/
def namedRegisters (registers : Array UInt8) : List (String × UInt8) :=
  registers.toList.zipIdx.map fun (value, x) => (registerName x, value)

/-- The registers in one line. -/
def registersText (registers : Array UInt8) : String :=
  " ".intercalate ((namedRegisters registers).map fun (name, value) => name ++ "=" ++ Text.hex 2 value.toNat)

/-! ## Program counter and lifecycle -/

/-- Sets the program counter. -/
def setPc (target : Int) : Act Machine Unit := modify fun m => { m with pc := target }

/-- Moves on to the next instruction. -/
def advance : Act Machine Unit := modify fun m => { m with pc := m.pc + 2 }

/-- Moves on past the next instruction. -/
def skip : Act Machine Unit := modify fun m => { m with pc := m.pc + 4 }

/-- Moves on, past the next instruction if the condition holds. -/
def skipIf (condition : Bool) : Act Machine Unit := if condition then skip else advance

/-- Marks the machine as halted, or not. -/
def setHalted (halted : Bool) : Act Machine Unit := modify fun m => { m with halted }

/-- Counts an instruction. -/
def countCycle : Act Machine Unit := modify fun m => { m with cycles := m.cycles + 1 }

end Chip8.Machine
