import Chip8.Machine.Transfer
import Chip8.Proofs.Instruction.Family
import Chip8.Proofs.Machine.Rows

/-!
# Effects of operations

What an operation does to a sound machine, in two tables. `obstacle?` says why an operation cannot be carried out,
and `effect` what the machine is after one that can. No operation changes anything before it has met its obstacle, so
a primitive is one or the other: that is the shape of every equation below. An operation that asks the device or
the random source for something has the answer as a `Reply`.
-/

namespace Chip8

/-- What an operation is told from outside the machine. -/
structure Reply where
  /-- Is the key in the register held? -/
  held : Bool := false
  /-- The active key. -/
  key : Option Int := none
  /-- A random number. -/
  number : Int := 0
  /-- Did the sprite put a pixel out? -/
  hit : Bool := false

namespace Machine

/-! ## Changes -/

/-- Past the next instruction if the condition holds, else on to it. -/
def skipped (m : Machine) (condition : Bool) : Machine := m.moved (if condition then 4 else 2)

/-- A register set to a value modulo 256. -/
def assigned (m : Machine) (x : Nat) (value : Int) : Machine := (m.withReg x (UInt8.ofInt value)).moved 2

/-- The flag register set to one or zero. -/
def flagged (m : Machine) (flag : Bool) : Machine := m.withReg 15 (if flag then 1 else 0)

/-- The index register set to an address modulo 4096. -/
def indexed (m : Machine) (value : Int) : Machine := { m with index := value % 4096, pc := m.pc + 2 }

/-- The program counter set. -/
def jumped (m : Machine) (target : Int) : Machine := { m with pc := target }

/-- A return address on the stack. -/
def pushed (m : Machine) (address : Int) : Machine :=
  { m with stack := m.stack.setIfInBounds (m.sp + 1).toNat (address % 65536), sp := m.sp + 1 }

/-- Registers copied to memory: `count` of them, from register `k` on. -/
def stored (m : Machine) (k : Nat) : Nat → Machine
  | 0 => m
  | count + 1 => (m.withByte (m.index.toNat + k) (m.reg k)).stored (k + 1) count

/-- Memory copied to registers: `count` of them, from register `k` on. -/
def loaded (m : Machine) (k : Nat) : Nat → Machine
  | 0 => m
  | count + 1 => (m.withReg k (m.byteAt (m.index.toNat + k))).loaded (k + 1) count

/-- The three decimal digits of a value in memory, from an address on. -/
def spelled (m : Machine) (a value : Nat) : Machine :=
  ((m.withByte a (UInt8.ofInt (value / 100 : Nat))).withByte (a + 1) (UInt8.ofInt (value / 10 % 10 : Nat))).withByte
    (a + 2) (UInt8.ofInt (value % 10 : Nat))

/-- The machine with one more instruction counted. -/
def counted (m : Machine) : Machine := { m with cycles := m.cycles + 1 }

/-! ## The two tables -/

/-- Why an operation cannot be carried out. -/
def obstacle? (m : Machine) (w : UInt16) : Op → Option FaultCause
  | .ret => if m.sp = -1 then some .stackEmpty else none
  | .call => if m.sp = 15 then some .stackFull else none
  | .draw =>
    if Word.n w ≠ 0 ∧ 0xFFF < m.index + Word.n w - 1 then
      some (.outsideMemory m.index (m.index + Word.n w - 1))
    else none
  | .glyph =>
    if 0xF < (m.reg (Word.x w)).toNat then some (.notADigit (Word.x w) (m.reg (Word.x w))) else none
  | .decimal => if 0xFFF < m.index + 2 then some (.blockPastEnd m.index 2) else none
  | .store | .load =>
    if 0xFFF < m.index + Word.x w then some (.blockPastEnd m.index (Word.x w)) else none
  | _ => none

/-- The machine after an operation that meets no obstacle. -/
def effect (m : Machine) (w : UInt16) (r : Reply) : Op → Machine
  | .clear => m.moved 2
  | .ret => { m with pc := m.entry m.sp.toNat, sp := m.sp - 1 }
  | .jump => m.jumped (Word.address w)
  | .call => (m.pushed (m.pc + 2)).jumped (Word.address w)
  | .jumpOffset => m.jumped ((m.reg 0).toNat + Word.address w)
  | .skipEqByte => m.skipped ((m.reg (Word.x w)).toNat == Word.byte w)
  | .skipNeByte => m.skipped ((m.reg (Word.x w)).toNat != Word.byte w)
  | .skipEqReg => m.skipped (m.reg (Word.x w) == m.reg (Word.y w))
  | .skipNeReg => m.skipped (m.reg (Word.x w) != m.reg (Word.y w))
  | .skipKey => m.skipped r.held
  | .skipNoKey => m.skipped (!r.held)
  | .setByte => m.assigned (Word.x w) (Word.byte w)
  | .addByte => m.assigned (Word.x w) ((m.reg (Word.x w)).toNat + Word.byte w)
  | .setReg => m.assigned (Word.x w) (m.reg (Word.y w)).toNat
  | .orReg => m.assigned (Word.x w) (m.reg (Word.x w) ||| m.reg (Word.y w)).toNat
  | .andReg => m.assigned (Word.x w) (m.reg (Word.x w) &&& m.reg (Word.y w)).toNat
  | .xorReg => m.assigned (Word.x w) (m.reg (Word.x w) ^^^ m.reg (Word.y w)).toNat
  | .addReg =>
    (m.flagged (decide (255 < (m.reg (Word.x w)).toNat + (m.reg (Word.y w)).toNat))).assigned (Word.x w)
      ((m.reg (Word.x w)).toNat + (m.reg (Word.y w)).toNat)
  | .subReg =>
    (m.flagged (decide ((m.reg (Word.y w)).toNat ≤ (m.reg (Word.x w)).toNat))).assigned (Word.x w)
      ((m.reg (Word.x w)).toNat - (m.reg (Word.y w)).toNat)
  | .subFromReg =>
    (m.flagged (decide ((m.reg (Word.x w)).toNat ≤ (m.reg (Word.y w)).toNat))).assigned (Word.x w)
      ((m.reg (Word.y w)).toNat - (m.reg (Word.x w)).toNat)
  | .shiftRight =>
    (m.flagged ((m.reg (Word.x w)).toNat % 2 == 1)).assigned (Word.x w) ((m.reg (Word.x w)).toNat / 2 : Nat)
  | .shiftLeft =>
    (m.flagged (decide (128 ≤ (m.reg (Word.x w)).toNat))).assigned (Word.x w) (2 * (m.reg (Word.x w)).toNat : Nat)
  | .random => m.assigned (Word.x w) (Bits.and r.number (Word.byte w))
  | .readDelay => m.assigned (Word.x w) m.delayTimer
  | .awaitKey => match r.key with
    | none => m
    | some key => m.assigned (Word.x w) key
  | .setDelay => { m with delayTimer := (m.reg (Word.x w)).toNat, pc := m.pc + 2 }
  | .setSound => { m with soundTimer := (m.reg (Word.x w)).toNat, pc := m.pc + 2 }
  | .setIndex => m.indexed (Word.address w)
  | .addIndex => m.indexed (m.index + (m.reg (Word.x w)).toNat)
  | .glyph => m.indexed ((m.reg (Word.x w)).toNat * glyphSize : Nat)
  | .draw => ((m.flagged false).flagged r.hit).moved 2
  | .decimal => (m.spelled m.index.toNat (m.reg (Word.x w)).toNat).moved 2
  | .store => (m.stored 0 (Word.x w + 1)).moved 2
  | .load => (m.loaded 0 (Word.x w + 1)).moved 2

/-- The machine after an operation that got lost outside. Only a sprite has begun its work by then. -/
def begun (m : Machine) : Op → Machine
  | .draw => m.flagged false
  | _ => m

/-- How an operation ends by the two tables. -/
def outcome (m : Machine) (w : UInt16) (r : Reply) (op : Op) : EStateM.Result Failure Machine Unit :=
  match m.obstacle? w op with
  | some cause => .error (.fault { cause, pc := some m.pc }) m
  | none => .ok () (m.effect w r op)

variable {m : Machine}

/-! ## What stays as it is -/

/-- Storing a block changes the memory only. -/
theorem stored_eq (m : Machine) (k count : Nat) :
    m.stored k count = { m with memory := (m.stored k count).memory } := by
  induction count generalizing m k with
  | zero => rfl
  | succ count ih =>
    rw [stored, ih]
    rfl

/-- Loading a block changes the registers only. -/
theorem loaded_eq (m : Machine) (k count : Nat) :
    m.loaded k count = { m with registers := (m.loaded k count).registers } := by
  induction count generalizing m k with
  | zero => rfl
  | succ count ih =>
    rw [loaded, ih]
    rfl

/-- No operation counts itself, and none halts the machine. -/
theorem cycles_halted_effect (m : Machine) (w : UInt16) (r : Reply) (op : Op) :
    (m.effect w r op).cycles = m.cycles ∧ (m.effect w r op).halted = m.halted := by
  cases op with
  | store =>
    rw [effect, stored_eq]
    exact ⟨rfl, rfl⟩
  | load =>
    rw [effect, loaded_eq]
    exact ⟨rfl, rfl⟩
  | awaitKey =>
    simp only [effect]
    split <;> exact ⟨rfl, rfl⟩
  | _ => exact ⟨rfl, rfl⟩

theorem halted_begun (m : Machine) (op : Op) : (m.begun op).halted = m.halted := by
  cases op <;> rfl

/-! ## Building blocks -/

theorem raise_eq {α : Type} (cause : FaultCause) (m : Machine) :
    (raise cause : Act Machine α) m = .error (.fault { cause, pc := some m.pc }) m := rfl

theorem advance_eq (m : Machine) : advance m = .ok () (m.moved 2) := rfl

theorem setPc_eq (target : Int) (m : Machine) : setPc target m = .ok () (m.jumped target) := rfl

theorem assignIndex_eq (value : Int) (m : Machine) : assignIndex value m = .ok () (m.indexed value) := rfl

theorem skipIf_eq (condition : Bool) (m : Machine) : skipIf condition m = .ok () (m.skipped condition) := by
  cases condition <;> rfl

theorem assign_eq (hm : m.registers.size = 16) {x : Nat} (hx : x < 16) (value : Int) :
    assign x value m = .ok () (m.assigned x value) := by
  simp [assign, setRegister_eq hm hx, advance_eq, assigned]

theorem assignWithFlag_eq (hm : m.registers.size = 16) {x : Nat} (hx : x < 16) (flag : Bool) (value : Int) :
    assignWithFlag flag x value m = .ok () ((m.flagged flag).assigned x value) := by
  have hflagged : (m.withReg 15 (if flag then 1 else 0)).registers.size = 16 := by simp [hm]
  simp [assignWithFlag, setFlag_eq hm, assign_eq hflagged hx, flagged]

/-! ## Primitives with an obstacle -/

theorem ret_eq (hm : m.Sound) (w : UInt16) (r : Reply) : ret m = m.outcome w r .ret := by
  have hlow := hm.le_sp
  have hhigh := hm.sp_lt
  have hsize := hm.stack
  by_cases h : m.sp = -1
  · simp [ret, pop, h, raise_eq, outcome, obstacle?]
  · obtain ⟨i, hi⟩ := Int.eq_ofNat_of_zero_le (show 0 ≤ m.sp by omega)
    have hread := Cells.read_natCast .noEntryToRead 0 (by omega : i < m.stack.size) (by omega)
    simp [ret, pop, hi, hread, setPc_eq, jumped, outcome, obstacle?, effect, entry]

theorem call_eq (hm : m.Sound) (w : UInt16) (r : Reply) : call (Op.args .call w) m = m.outcome w r .call := by
  have hlow := hm.le_sp
  have hhigh := hm.sp_lt
  have hsize := hm.stack
  by_cases h : m.sp = 15
  · simp [call, push, h, raise_eq, outcome, obstacle?]
  · obtain ⟨i, hi⟩ := Int.eq_ofNat_of_zero_le (show 0 ≤ m.sp + 1 by omega)
    have hwrite := Cells.write_natCast .noEntryToWrite ((m.pc + 2) % 65536) (by omega : i < m.stack.size) (by omega)
    simp [call, push, h, hi, hwrite, Op.args, Arguments.first, setPc_eq, jumped, outcome, obstacle?, effect, pushed]

theorem glyph_eq (hm : m.Sound) (w : UInt16) (r : Reply) : glyph (Op.args .glyph w) m = m.outcome w r .glyph := by
  have hcell := cell_eq hm.registers (Word.x_lt w)
  by_cases h : 0xF < (m.reg (Word.x w)).toNat
  · simp [glyph, Op.args, Arguments.first, hcell, h, raise_eq, outcome, obstacle?]
  · simp [glyph, Op.args, Arguments.first, hcell, h, assignIndex_eq, outcome, obstacle?, effect]

theorem checkBlock_eq (offset : Int) (m : Machine) :
    checkBlock offset m =
      if 0xFFF < m.index + offset then .error (.fault { cause := .blockPastEnd m.index offset, pc := some m.pc }) m
      else .ok () m := by
  by_cases h : 0xFFF < m.index + offset
  · simp [checkBlock, h, raise_eq]
  · simp [checkBlock, h]

theorem decimal_eq (hm : m.Sound) (w : UInt16) (r : Reply) :
    decimal (Op.args .decimal w) m = m.outcome w r .decimal := by
  by_cases h : 0xFFF < m.index + 2
  · simp [decimal, checkBlock_eq, h, outcome, obstacle?]
  · have hindex := hm.index_nonneg
    have hcell := cell_eq hm.registers (Word.x_lt w)
    have hfirst := writeByte_eq hm.memory hindex (by omega)
    -- The second and third digit go to machines that already have the digits before them.
    have hnext : ∀ (k : Nat) (m' : Machine) (value : Int), k ≤ 2 → m'.memory.size = 4096 →
        writeByte (m.index + k) value m' = .ok () (m'.withByte (m.index.toNat + k) (UInt8.ofInt value)) := by
      intro k m' value hk hm'
      rw [writeByte_eq hm' (by omega) (by omega), show (m.index + k).toNat = m.index.toNat + k by omega]
    have hsecond := fun m' value => hnext 1 m' value (by decide)
    have hthird := fun m' value => hnext 2 m' value (by decide)
    simp only [Int.cast_ofNat_Int] at hsecond hthird
    simp [decimal, checkBlock_eq, h, Op.args, Arguments.first, hcell, hfirst, hsecond, hthird, hm.memory, advance_eq,
      outcome, obstacle?, effect, spelled]

/-- Storing a block that ends in memory. -/
theorem storeFrom_eq {count k : Nat} {m : Machine} (hr : m.registers.size = 16) (hmem : m.memory.size = 4096)
    (hindex : 0 ≤ m.index) (hlast : m.index + k + count ≤ 4096) (hk : k + count ≤ 16) :
    storeFrom k count m = .ok () (m.stored k count) := by
  induction count generalizing k m with
  | zero => rfl
  | succ count ih =>
    have hcell := cell_eq hr (show k < 16 by omega)
    have hset := setMemoryCell_eq hmem (show 0 ≤ m.index + k by omega) (by omega) (m.reg k)
    rw [show (m.index + k).toNat = m.index.toNat + k by omega] at hset
    have hrest := @ih (k + 1) (m.withByte (m.index.toNat + k) (m.reg k)) hr (by simpa using hmem) hindex
      (show m.index + (k + 1 : Nat) + count ≤ 4096 by omega) (by omega)
    simp [storeFrom, stored, hcell, hset, hrest]

/-- Loading a block that ends in memory. -/
theorem loadFrom_eq {count k : Nat} {m : Machine} (hr : m.registers.size = 16) (hmem : m.memory.size = 4096)
    (hindex : 0 ≤ m.index) (hlast : m.index + k + count ≤ 4096) (hk : k + count ≤ 16) :
    loadFrom k count m = .ok () (m.loaded k count) := by
  induction count generalizing k m with
  | zero => rfl
  | succ count ih =>
    have hget := memoryCell_eq hmem (show 0 ≤ m.index + k by omega) (by omega)
    rw [show (m.index + k).toNat = m.index.toNat + k by omega] at hget
    have hset := setCell_eq hr (show k < 16 by omega) (m.byteAt (m.index.toNat + k))
    have hrest := @ih (k + 1) (m.withReg k (m.byteAt (m.index.toNat + k))) (by simpa using hr) hmem hindex
      (show m.index + (k + 1 : Nat) + count ≤ 4096 by omega) (by omega)
    simp [loadFrom, loaded, hget, hset, hrest]

/-- The block at the index register for the registers up to and including `x` lies in memory. -/
structure HasBlock (m : Machine) (x : Nat) : Prop where
  size_registers : m.registers.size = 16
  size_memory : m.memory.size = 4096
  index_nonneg : 0 ≤ m.index
  last_le : m.index + x ≤ 0xFFF
  lt : x < 16

theorem Sound.hasBlock (hm : m.Sound) {x : Nat} (hx : x < 16) (h : m.index + x ≤ 0xFFF) : m.HasBlock x :=
  ⟨hm.registers, hm.memory, hm.index_nonneg, h, hx⟩

theorem HasBlock.store_run {x : Nat} (hm : m.HasBlock x) : store [x] m = .ok () ((m.stored 0 (x + 1)).moved 2) := by
  have hlast := hm.last_le
  have hlt := hm.lt
  have hstore := @storeFrom_eq (x + 1) 0 m hm.size_registers hm.size_memory hm.index_nonneg (by omega) (by omega)
  have hinside : ¬ 0xFFF < m.index + x := by omega
  simp [store, Arguments.first, checkBlock_eq, hinside, hstore, advance_eq]

theorem HasBlock.load_run {x : Nat} (hm : m.HasBlock x) : load [x] m = .ok () ((m.loaded 0 (x + 1)).moved 2) := by
  have hlast := hm.last_le
  have hlt := hm.lt
  have hload := @loadFrom_eq (x + 1) 0 m hm.size_registers hm.size_memory hm.index_nonneg (by omega) (by omega)
  have hinside : ¬ 0xFFF < m.index + x := by omega
  simp [load, Arguments.first, checkBlock_eq, hinside, hload, advance_eq]

theorem store_eq (hm : m.Sound) (w : UInt16) (r : Reply) : store (Op.args .store w) m = m.outcome w r .store := by
  by_cases h : 0xFFF < m.index + Word.x w
  · simp [store, Op.args, Arguments.first, checkBlock_eq, h, outcome, obstacle?]
  · have hrun := (hm.hasBlock (Word.x_lt w) (by omega)).store_run
    simp [Op.args, hrun, h, outcome, obstacle?, effect]

theorem load_eq (hm : m.Sound) (w : UInt16) (r : Reply) : load (Op.args .load w) m = m.outcome w r .load := by
  by_cases h : 0xFFF < m.index + Word.x w
  · simp [load, Op.args, Arguments.first, checkBlock_eq, h, outcome, obstacle?]
  · have hrun := (hm.hasBlock (Word.x_lt w) (by omega)).load_run
    simp [Op.args, hrun, h, outcome, obstacle?, effect]

end Machine

end Chip8
