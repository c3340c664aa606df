import Chip8.Instruction.Basic

/-!
# The instruction set

The thirty-four families of the machine. No word belongs to two of them, so their order does not matter here, but a
table is ordered in general and this one is listed by pattern.
-/

namespace Chip8.Instruction

/-! ## Operands -/

/-- An address: the last twelve bits. -/
def address : Operand := ⟨0x0FFF, 0⟩

/-- The first register: the second digit. -/
def regX : Operand := ⟨0x0F00, 8⟩

/-- The second register: the third digit. -/
def regY : Operand := ⟨0x00F0, 4⟩

/-- A byte: the last two digits. -/
def byte : Operand := ⟨0x00FF, 0⟩

/-- A count: the last digit. -/
def nibble : Operand := ⟨0x000F, 0⟩

/-! ## Mnemonic shapes -/

/-- A text and an address in three digits. -/
def withAddress (t : String) : Mnemonic := [.text (t ++ " 0x"), .gap 0 (.hex 3)]

/-- A text, a register and a byte in two digits. -/
def withRegByte (t : String) : Mnemonic := [.text (t ++ " V"), .gap 0 (.hex 0), .text ", 0x", .gap 1 (.hex 2)]

/-- A text and two registers. -/
def withRegs (t : String) : Mnemonic := [.text (t ++ " V"), .gap 0 (.hex 0), .text ", V", .gap 1 (.hex 0)]

/-- A text and a register. -/
def withReg (t : String) : Mnemonic := [.text (t ++ " V"), .gap 0 (.hex 0)]

/-- A text, a register and a text. -/
def withRegThen (t last : String) : Mnemonic := [.text (t ++ " V"), .gap 0 (.hex 0), .text last]

/-! ## The table -/

/-- The instruction set. -/
def all : List Instruction :=
  [⟨.clear, 0xFFFF, 0x00E0, [], [.text "CLS"]⟩,
   ⟨.ret, 0xFFFF, 0x00EE, [], [.text "RET"]⟩,
   ⟨.jump, 0xF000, 0x1000, [address], withAddress "JP"⟩,
   ⟨.call, 0xF000, 0x2000, [address], withAddress "CALL"⟩,
   ⟨.skipEqByte, 0xF000, 0x3000, [regX, byte], withRegByte "SE"⟩,
   ⟨.skipNeByte, 0xF000, 0x4000, [regX, byte], withRegByte "SNE"⟩,
   ⟨.skipEqReg, 0xF00F, 0x5000, [regX, regY], withRegs "SE"⟩,
   ⟨.setByte, 0xF000, 0x6000, [regX, byte], withRegByte "LD"⟩,
   ⟨.addByte, 0xF000, 0x7000, [regX, byte], withRegByte "ADD"⟩,
   ⟨.setReg, 0xF00F, 0x8000, [regX, regY], withRegs "LD"⟩,
   ⟨.orReg, 0xF00F, 0x8001, [regX, regY], withRegs "OR"⟩,
   ⟨.andReg, 0xF00F, 0x8002, [regX, regY], withRegs "AND"⟩,
   ⟨.xorReg, 0xF00F, 0x8003, [regX, regY], withRegs "XOR"⟩,
   ⟨.addReg, 0xF00F, 0x8004, [regX, regY], withRegs "ADD"⟩,
   ⟨.subReg, 0xF00F, 0x8005, [regX, regY], withRegs "SUB"⟩,
   ⟨.shiftRight, 0xF00F, 0x8006, [regX], withReg "SHR"⟩,
   ⟨.subFromReg, 0xF00F, 0x8007, [regX, regY], withRegs "SUBN"⟩,
   ⟨.shiftLeft, 0xF00F, 0x800E, [regX], withReg "SHL"⟩,
   ⟨.skipNeReg, 0xF00F, 0x9000, [regX, regY], withRegs "SNE"⟩,
   ⟨.setIndex, 0xF000, 0xA000, [address], withAddress "LD I,"⟩,
   ⟨.jumpOffset, 0xF000, 0xB000, [address], withAddress "JP V0,"⟩,
   ⟨.random, 0xF000, 0xC000, [regX, byte], withRegByte "RND"⟩,
   ⟨.draw, 0xF000, 0xD000, [regX, regY, nibble], withRegs "DRW" ++ [.text ", ", .gap 2 .decimal]⟩,
   ⟨.skipKey, 0xF0FF, 0xE09E, [regX], withReg "SKP"⟩,
   ⟨.skipNoKey, 0xF0FF, 0xE0A1, [regX], withReg "SKNP"⟩,
   ⟨.readDelay, 0xF0FF, 0xF007, [regX], withRegThen "LD" ", DT"⟩,
   ⟨.awaitKey, 0xF0FF, 0xF00A, [regX], withRegThen "LD" ", K"⟩,
   ⟨.setDelay, 0xF0FF, 0xF015, [regX], withReg "LD DT,"⟩,
   ⟨.setSound, 0xF0FF, 0xF018, [regX], withReg "LD ST,"⟩,
   ⟨.addIndex, 0xF0FF, 0xF01E, [regX], withReg "ADD I,"⟩,
   ⟨.glyph, 0xF0FF, 0xF029, [regX], withReg "LD F,"⟩,
   ⟨.decimal, 0xF0FF, 0xF033, [regX], withReg "LD B,"⟩,
   ⟨.store, 0xF0FF, 0xF055, [regX], withReg "LD [I],"⟩,
   ⟨.load, 0xF0FF, 0xF065, [regX], withRegThen "LD" ", [I]"⟩]

/-- Every operation has its place in the instruction set. -/
theorem map_op_all : all.map (·.op) = Op.all := by decide

/-- The instruction of the set for an operation. -/
def ofOp (op : Op) : Option Instruction := all.find? fun inst => inst.op == op

end Chip8.Instruction
