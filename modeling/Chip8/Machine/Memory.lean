import Chip8.Machine.Basic

/-!
# Memory

Programs reach memory by checked accesses: any byte outside 0x000 to 0xFFF is out of bounds. Main statements:
`checkRange_ok` and `checkRange_error`, which between them say when an access is in bounds.
-/

namespace Chip8.Machine

/-- The byte in the memory cell at an address. -/
def memoryCell (address : Int) : Act Machine UInt8 := do
  Act.ofExcept (Cells.read .noByteCell (← get).memory address)

/-- Stores a byte in the memory cell at an address. -/
def setMemoryCell (address : Int) (value : UInt8) : Act Machine Unit := do
  let memory ← Act.ofExcept (Cells.write .noByteCell (← get).memory address value)
  modify fun m => { m with memory }

/-- Do `length` bytes from `start` on lie in memory? -/
def inRange (start length : Int) : Bool := 0 ≤ start && start + length - 1 ≤ 0xFFF

/-- Raises a fault unless `length` bytes from `start` on lie in memory. -/
def checkRange (start length : Int) : Act Machine Unit :=
  if inRange start length then pure () else raise (.outsideMemory start (start + length - 1))

theorem checkRange_ok {start length : Int} (h : inRange start length = true) (m : Machine) :
    checkRange start length m = .ok () m := by
  rw [checkRange, if_pos h]; rfl

theorem checkRange_error {start length : Int} (h : inRange start length = false) (m : Machine) :
    checkRange start length m =
      .error (.fault { cause := .outsideMemory start (start + length - 1), pc := some m.pc }) m := by
  rw [checkRange, if_neg (by simp [h])]; rfl

/-- The byte at an address. -/
def readByte (address : Int) : Act Machine UInt8 := do
  checkRange address 1
  memoryCell address

/-- Stores a value, modulo 256, at an address. -/
def writeByte (address value : Int) : Act Machine Unit := do
  checkRange address 1
  setMemoryCell address (UInt8.ofInt value)

/-- The last address from which a word can be fetched. -/
def lastFetch : Int := 0xFFD

/-- The word at the program counter, most significant byte first. -/
def fetch : Act Machine UInt16 := do
  let m ← get
  if 0 ≤ m.pc ∧ m.pc ≤ lastFetch then
    let high ← memoryCell m.pc
    let low ← memoryCell (m.pc + 1)
    return UInt16.ofNat (high.toNat * 256 + low.toNat)
  else raise (.fetchPastEnd m.pc)

/-- Copies bytes to memory from an address on. -/
def loadBytes (address : Int) (data : List UInt8) : Act Machine Unit := do
  unless data.isEmpty do
    checkRange address data.length
  modify fun m => { m with memory := Cells.splice m.memory address (address + data.length) data }

end Chip8.Machine
