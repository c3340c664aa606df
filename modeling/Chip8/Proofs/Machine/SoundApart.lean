import Chip8.Proofs.Machine.Effect

/-!
# Machines gone astray

Soundness says nothing about what lies on the stack, so a return may take the program counter of a sound machine
anywhere. All else stays as it should be: the machine is sound apart from its program counter, and there the next fetch
faults. Main statement: `SoundApart.effect`, by which every operation keeps a machine sound apart.
-/

namespace Chip8.Machine

/-- Sound, if only the program counter were in its range. -/
def SoundApart (m : Machine) : Prop := ({ m with pc := 0 } : Machine).Sound

variable {m : Machine}

theorem Sound.apart (hm : m.Sound) : m.SoundApart :=
  { hm with pc_nonneg := show (0 : Int) ≤ 0 by decide, pc_le := show (0 : Int) ≤ 0xFFFF by decide }

namespace SoundApart

/-- With its program counter in range it is sound. -/
theorem sound (hm : m.SoundApart) (hpc : 0 ≤ m.pc) (hle : m.pc ≤ 0xFFFF) : m.Sound :=
  { hm with pc_nonneg := hpc, pc_le := hle }

/-- Where the program counter is does not matter. -/
theorem withPc (hm : m.SoundApart) (pc : Int) : ({ m with pc } : Machine).SoundApart := hm

theorem moved (hm : m.SoundApart) (distance : Int) : (m.moved distance).SoundApart := hm

theorem withReg (hm : m.SoundApart) (x : Nat) (value : UInt8) : (m.withReg x value).SoundApart :=
  { hm with registers := (size_registers_withReg m x value).trans hm.registers }

theorem withByte (hm : m.SoundApart) (a : Nat) (value : UInt8) : (m.withByte a value).SoundApart :=
  { hm with memory := (size_memory_withByte m a value).trans hm.memory }

theorem assigned (hm : m.SoundApart) (x : Nat) (value : Int) : (m.assigned x value).SoundApart :=
  (hm.withReg x _).moved 2

theorem flagged (hm : m.SoundApart) (flag : Bool) : (m.flagged flag).SoundApart := hm.withReg 15 _

theorem indexed (hm : m.SoundApart) (value : Int) : (m.indexed value).SoundApart :=
  { hm with
    index_nonneg := show 0 ≤ value % 4096 by omega
    index_le := show value % 4096 ≤ 0xFFFF by omega }

theorem stored (hm : m.SoundApart) (k count : Nat) : (m.stored k count).SoundApart := by
  induction count generalizing m k with
  | zero => exact hm
  | succ count ih => exact ih (hm.withByte _ _) (k + 1)

theorem loaded (hm : m.SoundApart) (k count : Nat) : (m.loaded k count).SoundApart := by
  induction count generalizing m k with
  | zero => exact hm
  | succ count ih => exact ih (hm.withReg _ _) (k + 1)

theorem pushed (hm : m.SoundApart) (hsp : m.sp ≠ 15) (address : Int) : (m.pushed address).SoundApart := by
  have hlow : -1 ≤ m.sp := hm.le_sp
  have hhigh : m.sp < 16 := hm.sp_lt
  exact { hm with
    stack := Array.size_setIfInBounds.trans hm.stack
    le_sp := show -1 ≤ m.sp + 1 by omega
    sp_lt := show m.sp + 1 < 16 by omega }

theorem popped (hm : m.SoundApart) (hsp : m.sp ≠ -1) : ({ m with sp := m.sp - 1 } : Machine).SoundApart := by
  have hlow : -1 ≤ m.sp := hm.le_sp
  have hhigh : m.sp < 16 := hm.sp_lt
  exact { hm with
    le_sp := show -1 ≤ m.sp - 1 by omega
    sp_lt := show m.sp - 1 < 16 by omega }

theorem withDelay (hm : m.SoundApart) {value : Int} (h : 0 ≤ value) (hle : value ≤ 0xFF) :
    ({ m with delayTimer := value } : Machine).SoundApart :=
  { hm with delay_nonneg := h, delay_le := hle }

theorem withSound (hm : m.SoundApart) {value : Int} (h : 0 ≤ value) (hle : value ≤ 0xFF) :
    ({ m with soundTimer := value } : Machine).SoundApart :=
  { hm with sound_nonneg := h, sound_le := hle }

theorem halted (hm : m.SoundApart) : ({ m with halted := true } : Machine).SoundApart := { hm with }

theorem begun (hm : m.SoundApart) (op : Op) : (m.begun op).SoundApart := by
  cases op with
  | draw => exact hm.flagged false
  | _ => exact hm

theorem counted (hm : m.SoundApart) : m.counted.SoundApart := by
  have hcycles : 0 ≤ m.cycles := hm.cycles_nonneg
  exact { hm with cycles_nonneg := show 0 ≤ m.cycles + 1 by omega }

/-- **No operation does worse than lose its way.** An operation without an obstacle leaves the machine sound apart,
whatever the world outside replied. -/
theorem effect (hm : m.SoundApart) (w : UInt16) (r : Reply) {op : Op} (h : m.obstacle? w op = none) :
    (m.effect w r op).SoundApart := by
  have hx := (m.reg (Word.x w)).toNat_lt
  cases op with
  | clear => exact hm.moved 2
  | ret => exact (hm.popped (by simpa [obstacle?] using h)).withPc _
  | call => exact (hm.pushed (by simpa [obstacle?] using h) _).withPc _
  | jump | jumpOffset => exact hm.withPc _
  | skipEqByte | skipNeByte | skipEqReg | skipNeReg | skipKey | skipNoKey => exact hm.moved _
  | setByte | addByte | setReg | orReg | andReg | xorReg | random | readDelay => exact hm.assigned _ _
  | addReg | subReg | subFromReg | shiftRight | shiftLeft => exact (hm.flagged _).assigned _ _
  | awaitKey =>
    simp only [Machine.effect]
    split
    · exact hm
    · exact hm.assigned _ _
  | setDelay => exact (hm.withDelay (Int.natCast_nonneg (m.reg (Word.x w)).toNat) (by omega)).moved 2
  | setSound => exact (hm.withSound (Int.natCast_nonneg (m.reg (Word.x w)).toNat) (by omega)).moved 2
  | setIndex | addIndex | glyph => exact hm.indexed _
  | draw => exact ((hm.flagged false).flagged r.hit).moved 2
  | decimal => exact (((hm.withByte _ _).withByte _ _).withByte _ _).moved 2
  | store => exact (hm.stored 0 (Word.x w + 1)).moved 2
  | load => exact (hm.loaded 0 (Word.x w + 1)).moved 2

end SoundApart

end Chip8.Machine
