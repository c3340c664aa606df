import Chip8.Proofs.Machine.Effect
import Chip8.Proofs.Machine.Start

/-!
# Bounds on a machine

A sound machine has its index register and program counter in sixteen bits. What a program can reach is less: the
index register stays in memory, and the program counter gets at most as far as a jump from the last address moved on
by the largest byte. For that to last, the return addresses in use must lie in memory as well, for they come back as
program counters. Main statement: `Bounded.effect`, by which every operation keeps the bounds.
-/

namespace Chip8.Machine

/-- The bounds of all that a program can reach. -/
structure Bounded (m : Machine) : Prop extends m.Sound where
  index_le_last : m.index ≤ 0xFFF
  pc_le_last : m.pc ≤ 0x10FE
  /-- Every return address in use follows a word that was fetched. -/
  returns : ∀ i : Nat, (i : Int) ≤ m.sp → 2 ≤ m.entry i ∧ m.entry i ≤ 0xFFF

/-- A fresh machine with a program is in bounds. -/
theorem bounded_of_start {rom : List UInt8} {m : Machine} (h : start rom = .ok m) : m.Bounded := by
  obtain ⟨hsize, rfl⟩ := start_eq_ok_iff.1 h
  exact { sound_default with
    memory := size_startMemory hsize
    index_le_last := show (0 : Int) ≤ 0xFFF by decide
    pc_le_last := show (0x200 : Int) ≤ 0x10FE by decide
    returns := fun i hi => absurd hi (show ¬ (i : Int) ≤ -1 by omega) }

namespace Bounded

variable {m : Machine}

/-! ## Changes within the bounds -/

theorem withReg (hm : m.Bounded) (x : Nat) (value : UInt8) : (m.withReg x value).Bounded :=
  { hm with registers := (size_registers_withReg m x value).trans hm.registers }

theorem withByte (hm : m.Bounded) (a : Nat) (value : UInt8) : (m.withByte a value).Bounded :=
  { hm with memory := (size_memory_withByte m a value).trans hm.memory }

theorem jumped (hm : m.Bounded) {target : Int} (h : 0 ≤ target) (hle : target ≤ 0x10FE) : (m.jumped target).Bounded :=
  { hm with pc_nonneg := h, pc_le := Int.le_trans hle (by decide), pc_le_last := hle }

/-- From where a word was fetched the next instruction and the one after it are in bounds. -/
theorem moved (hm : m.Bounded) (hpc : m.pc ≤ 0xFFD) {distance : Int} (h : 0 ≤ distance) (hle : distance ≤ 4) :
    (m.moved distance).Bounded := by
  have hnonneg := hm.pc_nonneg
  exact hm.jumped (by omega) (by omega)

theorem skipped (hm : m.Bounded) (hpc : m.pc ≤ 0xFFD) (condition : Bool) : (m.skipped condition).Bounded := by
  cases condition
  · exact hm.moved hpc (by decide) (by decide)
  · exact hm.moved hpc (by decide) (by decide)

theorem assigned (hm : m.Bounded) (hpc : m.pc ≤ 0xFFD) (x : Nat) (value : Int) : (m.assigned x value).Bounded :=
  (hm.withReg x _).moved hpc (by decide) (by decide)

theorem flagged (hm : m.Bounded) (flag : Bool) : (m.flagged flag).Bounded := hm.withReg 15 _

theorem indexed (hm : m.Bounded) (hpc : m.pc ≤ 0xFFD) (value : Int) : (m.indexed value).Bounded := by
  have hmoved := hm.moved hpc (show (0 : Int) ≤ 2 by decide) (by decide)
  exact { hmoved with
    index_nonneg := by show 0 ≤ value % 4096; omega
    index_le := by show value % 4096 ≤ 0xFFFF; omega
    index_le_last := by show value % 4096 ≤ 0xFFF; omega }

theorem stored (hm : m.Bounded) (k count : Nat) : (m.stored k count).Bounded := by
  induction count generalizing m k with
  | zero => exact hm
  | succ count ih => exact ih (hm.withByte _ _) (k + 1)

theorem loaded (hm : m.Bounded) (k count : Nat) : (m.loaded k count).Bounded := by
  induction count generalizing m k with
  | zero => exact hm
  | succ count ih => exact ih (hm.withReg _ _) (k + 1)

/-- A call leaves the address after a fetched word on the stack. -/
theorem pushed (hm : m.Bounded) (hsp : m.sp ≠ 15) (hpc : m.pc ≤ 0xFFD) : (m.pushed (m.pc + 2)).Bounded := by
  have hnonneg := hm.pc_nonneg
  have hlow := hm.le_sp
  have hhigh := hm.sp_lt
  have hsize := hm.stack
  refine { hm with
    stack := Array.size_setIfInBounds.trans hsize
    le_sp := show -1 ≤ m.sp + 1 by omega
    sp_lt := show m.sp + 1 < 16 by omega
    returns := ?_ }
  intro i hi
  replace hi : (i : Int) ≤ m.sp + 1 := hi
  show 2 ≤ (m.stack.setIfInBounds _ _).getD i 0 ∧ (m.stack.setIfInBounds _ _).getD i 0 ≤ 0xFFF
  rw [Cells.getD_setIfInBounds (by omega)]
  -- The new top is the address after the fetched word; what lies below it was in use before.
  by_cases htop : (m.sp + 1).toNat = i
  · rw [if_pos htop]
    omega
  · rw [if_neg htop]
    exact hm.returns i (by omega)

/-- A return goes to an address that a call left. -/
theorem returned (hm : m.Bounded) (hsp : m.sp ≠ -1) :
    ({ m with pc := m.entry m.sp.toNat, sp := m.sp - 1 } : Machine).Bounded := by
  have hlow := hm.le_sp
  have hhigh := hm.sp_lt
  obtain ⟨htwo, hlast⟩ := hm.returns m.sp.toNat (by omega)
  exact { hm with
    pc_nonneg := show 0 ≤ m.entry m.sp.toNat by omega
    pc_le := show m.entry m.sp.toNat ≤ 0xFFFF by omega
    pc_le_last := show m.entry m.sp.toNat ≤ 0x10FE by omega
    le_sp := show -1 ≤ m.sp - 1 by omega
    sp_lt := show m.sp - 1 < 16 by omega
    returns := fun i hi => hm.returns i (Int.le_trans hi (show m.sp - 1 ≤ m.sp by omega)) }

theorem withDelay (hm : m.Bounded) {value : Int} (h : 0 ≤ value) (hle : value ≤ 0xFF) :
    ({ m with delayTimer := value } : Machine).Bounded :=
  { hm with delay_nonneg := h, delay_le := hle }

theorem withSound (hm : m.Bounded) {value : Int} (h : 0 ≤ value) (hle : value ≤ 0xFF) :
    ({ m with soundTimer := value } : Machine).Bounded :=
  { hm with sound_nonneg := h, sound_le := hle }

theorem counted (hm : m.Bounded) : m.counted.Bounded := by
  have hcycles := hm.cycles_nonneg
  exact { hm with cycles_nonneg := show 0 ≤ m.cycles + 1 by omega }

theorem halted (hm : m.Bounded) : ({ m with halted := true } : Machine).Bounded := { hm with }

/-! ## Operations -/

/-- **Every operation keeps the bounds.** A word that was fetched and meets no obstacle leaves the machine in bounds,
whatever the world outside replied. -/
theorem effect (hm : m.Bounded) (hpc : m.pc ≤ 0xFFD) (w : UInt16) (r : Reply) {op : Op}
    (h : m.obstacle? w op = none) : (m.effect w r op).Bounded := by
  have haddress := Word.address_lt w
  have hx := (m.reg (Word.x w)).toNat_lt
  cases op with
  | clear => exact hm.moved hpc (by decide) (by decide)
  | ret => exact hm.returned (by simpa [obstacle?] using h)
  | call =>
    refine (hm.pushed (by simpa [obstacle?] using h) hpc).jumped ?_ ?_
    · omega
    · omega
  | jump => exact hm.jumped (by omega) (by omega)
  | jumpOffset =>
    have hzero := (m.reg 0).toNat_lt
    exact hm.jumped (by omega) (by omega)
  | skipEqByte | skipNeByte | skipEqReg | skipNeReg | skipKey | skipNoKey => exact hm.skipped hpc _
  | setByte | addByte | setReg | orReg | andReg | xorReg | random | readDelay => exact hm.assigned hpc _ _
  | addReg | subReg | subFromReg | shiftRight | shiftLeft => exact (hm.flagged _).assigned hpc _ _
  | awaitKey =>
    simp only [Machine.effect]
    split
    · exact hm
    · exact hm.assigned hpc _ _
  | setDelay =>
    have hdelay := hm.withDelay (Int.natCast_nonneg (m.reg (Word.x w)).toNat) (by omega)
    exact hdelay.moved hpc (show (0 : Int) ≤ 2 by decide) (by decide)
  | setSound =>
    have hsound := hm.withSound (Int.natCast_nonneg (m.reg (Word.x w)).toNat) (by omega)
    exact hsound.moved hpc (show (0 : Int) ≤ 2 by decide) (by decide)
  | setIndex | addIndex | glyph => exact hm.indexed hpc _
  | draw => exact ((hm.flagged false).flagged r.hit).moved hpc (by decide) (by decide)
  | decimal => exact (((hm.withByte _ _).withByte _ _).withByte _ _).moved hpc (by decide) (by decide)
  | store =>
    refine (hm.stored 0 (Word.x w + 1)).moved ?_ (by decide) (by decide)
    rw [stored_eq]
    exact hpc
  | load =>
    refine (hm.loaded 0 (Word.x w + 1)).moved ?_ (by decide) (by decide)
    rw [loaded_eq]
    exact hpc

theorem begun (hm : m.Bounded) (op : Op) : (m.begun op).Bounded := by
  cases op with
  | draw => exact hm.flagged false
  | _ => exact hm

end Bounded

end Chip8.Machine
