import Chip8.Failure

/-!
# Operations

The thirty-four operations of the machine, each with the name by which tables and messages know it. Main statement:
`ofName?_name`, so that a name determines its operation.
-/

namespace Chip8

/-- The operations. A suffix tells operands apart: `Byte` for an immediate byte, `Reg` for a second register. -/
inductive Op where
  | clear
  | ret
  | jump
  | call
  | skipEqByte
  | skipNeByte
  | skipEqReg
  | setByte
  | addByte
  | setReg
  | orReg
  | andReg
  | xorReg
  | addReg
  | subReg
  | shiftRight
  | subFromReg
  | shiftLeft
  | skipNeReg
  | setIndex
  | jumpOffset
  | random
  | draw
  | skipKey
  | skipNoKey
  | readDelay
  | awaitKey
  | setDelay
  | setSound
  | addIndex
  | glyph
  | decimal
  | store
  | load
  deriving DecidableEq, Repr

namespace Op

/-- The name of an operation. -/
def name : Op → String
  | clear => "CLS"
  | ret => "RET"
  | jump => "JP_ADDR"
  | call => "CALL_ADDR"
  | skipEqByte => "SE_VX_BYTE"
  | skipNeByte => "SNE_VX_BYTE"
  | skipEqReg => "SE_VX_VY"
  | setByte => "LD_VX_BYTE"
  | addByte => "ADD_VX_BYTE"
  | setReg => "LD_VX_VY"
  | orReg => "OR_VX_VY"
  | andReg => "AND_VX_VY"
  | xorReg => "XOR_VX_VY"
  | addReg => "ADD_VX_VY"
  | subReg => "SUB_VX_VY"
  | shiftRight => "SHR_VX"
  | subFromReg => "SUBN_VX_VY"
  | shiftLeft => "SHL_VX"
  | skipNeReg => "SNE_VX_VY"
  | setIndex => "LD_I_ADDR"
  | jumpOffset => "JP_V0_ADDR"
  | random => "RND_VX_BYTE"
  | draw => "DRW_VX_VY_NIBBLE"
  | skipKey => "SKP_VX"
  | skipNoKey => "SKNP_VX"
  | readDelay => "LD_VX_DT"
  | awaitKey => "LD_VX_K"
  | setDelay => "LD_DT_VX"
  | setSound => "LD_ST_VX"
  | addIndex => "ADD_I_VX"
  | glyph => "LD_F_VX"
  | decimal => "LD_B_VX"
  | store => "LD_I_VX"
  | load => "LD_VX_I"

/-- Every operation, in the order of the instruction set. -/
def all : List Op :=
  [clear, ret, jump, call, skipEqByte, skipNeByte, skipEqReg, setByte, addByte, setReg, orReg, andReg, xorReg, addReg,
   subReg, shiftRight, subFromReg, shiftLeft, skipNeReg, setIndex, jumpOffset, random, draw, skipKey, skipNoKey,
   readDelay, awaitKey, setDelay, setSound, addIndex, glyph, decimal, store, load]

theorem mem_all (op : Op) : op ∈ all := by cases op <;> decide

/-- The operation of a name. -/
def ofName? (name : String) : Option Op := all.find? fun op => op.name == name

theorem ofName?_name (op : Op) : ofName? op.name = some op := by cases op <;> decide

/-- The operation of a name, or the complaint that there is none. -/
def named (name : String) : Except Mishap Op :=
  match ofName? name with
  | some op => .ok op
  | none => .error (.notAnInstruction name)

end Op

end Chip8
