import Chip8.Machine.Basic

/-!
# The call stack

Sixteen return addresses and a pointer to the last one in use. The second definition of the stack is `live`, the
list of the return addresses in use, oldest first.
-/

namespace Chip8.Machine

/-- The return addresses in use, oldest first. -/
def live (m : Machine) : List Int := (Cells.stretch m.stack 0 (m.sp + 1)).toList

/-- Puts a return address, modulo 65536, on the stack. The pointer moves first. -/
def push (address : Int) : Act Machine Unit := do
  if (← get).sp = 15 then raise .stackFull
  modify fun m => { m with sp := m.sp + 1 }
  let m ← get
  let stack ← Act.ofExcept (Cells.write .noEntryToWrite m.stack m.sp (address % 65536))
  set { m with stack }

/-- Takes the last return address off the stack. -/
def pop : Act Machine Int := do
  let m ← get
  if m.sp = -1 then raise .stackEmpty
  let address ← Act.ofExcept (Cells.read .noEntryToRead m.stack m.sp)
  set { m with sp := m.sp - 1 }
  return address

end Chip8.Machine
