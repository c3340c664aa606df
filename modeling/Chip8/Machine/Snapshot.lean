import Chip8.Machine.Registers
import Chip8.Machine.Stack

/-!
# Snapshots

A snapshot is a copy of everything but the memory and the unused stack entries.
-/

namespace Chip8

/-- A copy of the machine without its memory. -/
structure Snapshot where
  registers : Array UInt8
  pc : Int
  index : Int
  sp : Int
  stack : List Int
  delayTimer : Int
  soundTimer : Int
  halted : Bool
  cycles : Int
  deriving DecidableEq, Repr

namespace Machine

/-- The snapshot of the machine. -/
def snapshot (m : Machine) : Snapshot where
  registers := m.registers
  pc := m.pc
  index := m.index
  sp := m.sp
  stack := m.live
  delayTimer := m.delayTimer
  soundTimer := m.soundTimer
  halted := m.halted
  cycles := m.cycles

/-- The machine in one line. -/
def text (m : Machine) : String :=
  let head := "[Cycle " ++ Text.decimal m.cycles ++ "] PC=" ++ Text.hex 3 m.pc ++ " I=" ++ Text.hex 3 m.index ++
    " SP=" ++ Text.decimal m.sp ++ " DT=" ++ Text.decimal m.delayTimer ++ " ST=" ++ Text.decimal m.soundTimer
  let registers := registersText m.registers
  if m.halted then head ++ " " ++ registers ++ " HALTED"
  else if m.registers.isEmpty then head
  else head ++ " " ++ registers

end Machine

end Chip8
