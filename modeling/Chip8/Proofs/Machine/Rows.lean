import Chip8.Machine.Data
import Chip8.Machine.Flow
import Chip8.Machine.Memory
import Chip8.Machine.Transfer
import Chip8.Proofs.Act

/-!
# Rows of a sound machine

In a sound machine the sixteen registers, the 4096 bytes of memory and the sixteen stack entries are all there, so
reading and writing one of them cannot fail. Here each access is an equation: what it answers and what it leaves.
`reg`, `byteAt` and `entry` read a row; `withReg` and `withByte` are the machine with one cell replaced.
-/

namespace Chip8

namespace Machine

/-! ## Views -/

/-- The value of a register. -/
def reg (m : Machine) (x : Nat) : UInt8 := m.registers.getD x 0

/-- The byte at an address. -/
def byteAt (m : Machine) (a : Nat) : UInt8 := m.memory.getD a 0

/-- A stack entry, in use or not. -/
def entry (m : Machine) (i : Nat) : Int := m.stack.getD i 0

/-- The machine with a register replaced. -/
def withReg (m : Machine) (x : Nat) (value : UInt8) : Machine :=
  { m with registers := m.registers.setIfInBounds x value }

/-- The machine with a byte of memory replaced. -/
def withByte (m : Machine) (a : Nat) (value : UInt8) : Machine :=
  { m with memory := m.memory.setIfInBounds a value }

/-- The machine further on in its program. -/
def moved (m : Machine) (distance : Int) : Machine := { m with pc := m.pc + distance }

/-- A value is stored modulo 256. -/
theorem toNat_ofInt (value : Int) : ((UInt8.ofInt value).toNat : Int) = value % 256 := by
  rw [UInt8.ofInt, UInt8.toNat_ofNat']
  omega

@[simp] theorem size_registers_withReg (m : Machine) (x : Nat) (value : UInt8) :
    (m.withReg x value).registers.size = m.registers.size := Array.size_setIfInBounds

@[simp] theorem size_memory_withByte (m : Machine) (a : Nat) (value : UInt8) :
    (m.withByte a value).memory.size = m.memory.size := Array.size_setIfInBounds

/-! ## Access -/

end Machine

namespace Cells

variable {α : Type} {cells : Array α} {n : Nat}

/-- A short row of `size` cells has the cells 0 to `size - 1`. -/
theorem read_natCast (missing : Mishap) (d : α) (h : n < cells.size) (hsize : cells.size ≤ 4096) :
    read missing cells n = .ok (cells.getD n d) := by
  obtain ⟨value, hvalue, hread⟩ :=
    @read_of_nonneg α missing cells (n : Int) (Int.natCast_nonneg n) (by omega) (by omega)
  rw [hread, Array.getD_eq_getD_getElem?, ← Int.toNat_natCast n, hvalue, Option.getD_some]

theorem write_natCast (missing : Mishap) (value : α) (h : n < cells.size) (hsize : cells.size ≤ 4096) :
    write missing cells n value = .ok (cells.setIfInBounds n value) := by
  rw [write_of_nonneg (Int.natCast_nonneg n) (by omega) (by omega), Int.toNat_natCast]

/-- What is read from a row in which one cell was replaced. -/
theorem getD_setIfInBounds (h : n < cells.size) (value d : α) (i : Nat) :
    (cells.setIfInBounds n value).getD i d = if n = i then value else cells.getD i d := by
  rw [Array.getD_eq_getD_getElem?, Array.getElem?_setIfInBounds, Array.getD_eq_getD_getElem?, if_pos h]
  split <;> rfl

end Cells

namespace Machine

variable {m : Machine}

theorem reg_withReg (hm : m.registers.size = 16) {x : Nat} (hx : x < 16) (value : UInt8) (i : Nat) :
    (m.withReg x value).reg i = if x = i then value else m.reg i :=
  Cells.getD_setIfInBounds (by omega) value 0 i

theorem byteAt_withByte (hm : m.memory.size = 4096) {a : Nat} (ha : a < 4096) (value : UInt8) (b : Nat) :
    (m.withByte a value).byteAt b = if a = b then value else m.byteAt b :=
  Cells.getD_setIfInBounds (by omega) value 0 b

theorem cell_eq (hm : m.registers.size = 16) {x : Nat} (hx : x < 16) : cell x m = .ok (m.reg x) m := by
  have hread := Cells.read_natCast .noByteCell 0 (by omega : x < m.registers.size) (by omega)
  simp [cell, hread, reg]

theorem setCell_eq (hm : m.registers.size = 16) {x : Nat} (hx : x < 16) (value : UInt8) :
    setCell x value m = .ok () (m.withReg x value) := by
  have hwrite := Cells.write_natCast .noByteCell value (by omega : x < m.registers.size) (by omega)
  simp [setCell, hwrite, withReg]

theorem setFlag_eq (hm : m.registers.size = 16) (flag : Bool) :
    setFlag flag m = .ok () (m.withReg 15 (if flag then 1 else 0)) :=
  setCell_eq hm (by decide) _

theorem setRegister_eq (hm : m.registers.size = 16) {x : Nat} (hx : x < 16) (value : Int) :
    setRegister x value m = .ok () (m.withReg x (UInt8.ofInt value)) := by
  have hregister : isRegister x = true := by simp [isRegister]; omega
  rw [setRegister, if_pos hregister, setCell_eq hm hx]

theorem memoryCell_eq (hm : m.memory.size = 4096) {a : Int} (h : 0 ≤ a) (hlt : a < 4096) :
    memoryCell a m = .ok (m.byteAt a.toNat) m := by
  obtain ⟨n, rfl⟩ := Int.eq_ofNat_of_zero_le h
  have hread := Cells.read_natCast .noByteCell 0 (by omega : n < m.memory.size) (by omega)
  simp [memoryCell, hread, byteAt]

theorem setMemoryCell_eq (hm : m.memory.size = 4096) {a : Int} (h : 0 ≤ a) (hlt : a < 4096) (value : UInt8) :
    setMemoryCell a value m = .ok () (m.withByte a.toNat value) := by
  obtain ⟨n, rfl⟩ := Int.eq_ofNat_of_zero_le h
  have hwrite := Cells.write_natCast .noByteCell value (by omega : n < m.memory.size) (by omega)
  simp [setMemoryCell, hwrite, withByte]

theorem inRange_iff {start length : Int} : inRange start length = true ↔ 0 ≤ start ∧ start + length ≤ 4096 := by
  simp only [inRange, Bool.and_eq_true, decide_eq_true_eq]
  omega

theorem writeByte_eq (hm : m.memory.size = 4096) {a : Int} (h : 0 ≤ a) (hlt : a < 4096) (value : Int) :
    writeByte a value m = .ok () (m.withByte a.toNat (UInt8.ofInt value)) := by
  have hrange : inRange a 1 = true := inRange_iff.2 ⟨h, by omega⟩
  simp [writeByte, checkRange_ok hrange, setMemoryCell_eq hm h hlt]

end Machine

end Chip8
