import Chip8.Proofs.Cpu.Execution
import Chip8.Proofs.Machine.Stores

/-!
# Blocks of registers

FX55 copies the registers up to VX to the block at the index register, FX65 copies the block back, and neither moves the
index register. What each leaves is known byte by byte (`byteAt_stored`, `reg_loaded`), so the two undo each other in
both orders. A block that ends past the memory is refused as a whole. Main statement: `block_restored`.
-/

namespace Chip8

namespace Machine

variable {m m' : Machine} {k count x : Nat}

/-! ## What blocks leave -/

/-- What a block of memory leaves in a register. -/
theorem reg_loaded (hm : m.registers.size = 16) (hlast : k + count ≤ 16) (i : Nat) :
    (m.loaded k count).reg i = if k ≤ i ∧ i < k + count then m.byteAt (m.index.toNat + i) else m.reg i := by
  induction count generalizing m k with
  | zero => rw [loaded, if_neg (by omega)]
  | succ count ih =>
    have hwritten := reg_withReg hm (show k < 16 by omega) (m.byteAt (m.index.toNat + k)) i
    have hrest := @ih (m.withReg k (m.byteAt (m.index.toNat + k))) (k + 1) (by simpa using hm) (by omega)
    rw [loaded, hrest, hwritten]
    show (if k + 1 ≤ i ∧ i < k + 1 + count then m.byteAt (m.index.toNat + i) else _) = _
    by_cases hfirst : k = i
    · rw [if_neg (by omega), if_pos hfirst, if_pos (by omega), hfirst]
    · rw [if_neg hfirst]
      by_cases hinside : k + 1 ≤ i ∧ i < k + 1 + count
      · rw [if_pos hinside, if_pos (by omega)]
      · rw [if_neg hinside, if_neg (by omega)]

theorem size_memory_stored (m : Machine) (k count : Nat) : (m.stored k count).memory.size = m.memory.size := by
  induction count generalizing m k with
  | zero => rfl
  | succ count ih => rw [stored, ih, size_memory_withByte]

theorem size_registers_loaded (m : Machine) (k count : Nat) :
    (m.loaded k count).registers.size = m.registers.size := by
  induction count generalizing m k with
  | zero => rfl
  | succ count ih => rw [loaded, ih, size_registers_withReg]

theorem HasBlock.stored (hm : m.HasBlock x) (k count : Nat) : (m.stored k count).HasBlock x := by
  have hsize := (size_memory_stored m k count).trans hm.size_memory
  rw [stored_eq] at hsize ⊢
  exact { hm with size_memory := hsize }

theorem HasBlock.loaded (hm : m.HasBlock x) (k count : Nat) : (m.loaded k count).HasBlock x := by
  have hsize := (size_registers_loaded m k count).trans hm.size_registers
  rw [loaded_eq] at hsize ⊢
  exact { hm with size_registers := hsize }

theorem HasBlock.moved (hm : m.HasBlock x) (distance : Int) : (m.moved distance).HasBlock x := { hm with }

theorem HasBlock.counted (hm : m.HasBlock x) : m.counted.HasBlock x := { hm with }

/-- Memories of one size with the same bytes are one. -/
theorem memory_eq_of_byteAt (hsize : m'.memory.size = m.memory.size) (h : ∀ a, m'.byteAt a = m.byteAt a) :
    m'.memory = m.memory := by
  refine Array.ext hsize fun a ha' ha => ?_
  have hbyte := h a
  rwa [byteAt, byteAt, Array.getD_eq_getD_getElem?, Array.getD_eq_getD_getElem?, Array.getElem?_eq_getElem ha',
    Array.getElem?_eq_getElem ha, Option.getD_some, Option.getD_some] at hbyte

/-! ## There and back -/

/-- The second machine may differ from the first one in anything but the index register and the block at it. -/
structure SameBlock (x : Nat) (m m' : Machine) : Prop where
  size_registers : m'.registers.size = 16
  size_memory : m'.memory.size = m.memory.size
  index : m'.index = m.index
  bytes : ∀ k ≤ x, m'.byteAt (m.index.toNat + k) = m.byteAt (m.index.toNat + k)

theorem SameBlock.hasBlock (h : SameBlock x m m') (hm : m.HasBlock x) : m'.HasBlock x where
  size_registers := h.size_registers
  size_memory := h.size_memory.trans hm.size_memory
  index_nonneg := h.index ▸ hm.index_nonneg
  last_le := h.index ▸ hm.last_le
  lt := hm.lt

/-- A block that was stored and left alone has the registers it was stored from. -/
theorem reg_loaded_of_stored (hm : m.HasBlock x) (h : SameBlock x (m.stored 0 (x + 1)) m') {i : Nat} (hi : i ≤ x) :
    (m'.loaded 0 (x + 1)).reg i = m.reg i := by
  have hlast := hm.last_le
  have hlt := hm.lt
  have hindex : (m.stored 0 (x + 1)).index = m.index := by rw [stored_eq]
  have hbyte := h.bytes i hi
  rw [hindex, byteAt_stored hm.size_memory (by have := hm.index_nonneg; omega), if_pos (by omega),
    show m.index.toNat + i - m.index.toNat = i by omega] at hbyte
  rw [reg_loaded h.size_registers (by omega), if_pos (by omega), h.index, hindex, hbyte]

/-- Storing registers that are as the block is already changes nothing. -/
theorem memory_stored_of_same (hm : m.HasBlock x) (h : ∀ i ≤ x, m.reg i = m.byteAt (m.index.toNat + i)) :
    (m.stored 0 (x + 1)).memory = m.memory := by
  have hlast := hm.last_le
  have hindex := hm.index_nonneg
  refine memory_eq_of_byteAt (size_memory_stored m 0 (x + 1)) fun a => ?_
  rw [byteAt_stored hm.size_memory (by omega)]
  split
  · next hinside => rw [h _ (by omega), show m.index.toNat + (a - m.index.toNat) = a by omega]
  · rfl

/-- Registers that were loaded are as the block is. -/
theorem reg_loaded_eq_byteAt (hm : m.HasBlock x) {i : Nat} (hi : i ≤ x) :
    (m.loaded 0 (x + 1)).reg i = (m.loaded 0 (x + 1)).byteAt ((m.loaded 0 (x + 1)).index.toNat + i) := by
  have hlt := hm.lt
  have hloaded := reg_loaded hm.size_registers (by omega : 0 + (x + 1) ≤ 16) i
  rw [if_pos (by omega)] at hloaded
  rw [hloaded, loaded_eq]
  rfl

end Machine

namespace Rig

variable {δ ρ : Type} [Device δ] [RandomSource ρ] {r : Rig δ ρ} {x : Nat}

/-! ## Executing the two instructions -/

theorem executes_store (hm : r.machine.HasBlock x) :
    Executes (.ofNat (0xF055 + 0x100 * x)) r
      { r with machine := ((r.machine.stored 0 (x + 1)).moved 2).counted } := by
  obtain ⟨hop, hdigit⟩ : Op.ofWord? (.ofNat (0xF055 + 0x100 * x)) = some .store ∧ _ :=
    Op.ofWord?_register hm.lt rfl (by decide) rfl
  refine .of_executed hm.size_memory ?_
  rw [executeWord_eq hop, Op.args, hdigit]
  simp only [execute, perform, Act.bind_run, onMachine_run, hm.store_run, Part.back_ok, onward_ok]
  rfl

theorem executes_load (hm : r.machine.HasBlock x) :
    Executes (.ofNat (0xF065 + 0x100 * x)) r
      { r with machine := ((r.machine.loaded 0 (x + 1)).moved 2).counted } := by
  obtain ⟨hop, hdigit⟩ : Op.ofWord? (.ofNat (0xF065 + 0x100 * x)) = some .load ∧ _ :=
    Op.ofWord?_register hm.lt rfl (by decide) rfl
  refine .of_executed hm.size_memory ?_
  rw [executeWord_eq hop, Op.args, hdigit]
  simp only [execute, perform, Act.bind_run, onMachine_run, hm.load_run, Part.back_ok, onward_ok]
  rfl

theorem refuses_block (hm : r.machine.Sound) (hx : x < 16) (h : 0xFFF < r.machine.index + x) :
    Refuses (.ofNat (0xF055 + 0x100 * x)) r (.blockPastEnd r.machine.index x) ∧
      Refuses (.ofNat (0xF065 + 0x100 * x)) r (.blockPastEnd r.machine.index x) := by
  obtain ⟨hstore, hstoreDigit⟩ : Op.ofWord? (.ofNat (0xF055 + 0x100 * x)) = some .store ∧ _ :=
    Op.ofWord?_register hx rfl (by decide) rfl
  obtain ⟨hload, hloadDigit⟩ : Op.ofWord? (.ofNat (0xF065 + 0x100 * x)) = some .load ∧ _ :=
    Op.ofWord?_register hx rfl (by decide) rfl
  constructor
  · exact refuses_of_obstacle hm hstore (by simp only [Machine.obstacle?, hstoreDigit, if_pos h])
  · exact refuses_of_obstacle hm hload (by simp only [Machine.obstacle?, hloadDigit, if_pos h])

/-- **A block is restored.** What FX55 has stored FX65 brings back, whatever has happened to the registers in between,
and an FX55 right after an FX65 changes no byte of memory. A block that ends past the memory is refused. -/
theorem block_restored (hvalid : r.machine.validate = true) (hx : x < 16) :
    (r.machine.index + x ≤ 0xFFF →
      (∃ r₁, Executes (.ofNat (0xF055 + 0x100 * x)) r r₁ ∧
        ∀ r₂ : Rig δ ρ, Machine.SameBlock x r₁.machine r₂.machine →
          ∃ r₃, Executes (.ofNat (0xF065 + 0x100 * x)) r₂ r₃ ∧
            (∀ i ≤ x, r₃.machine.reg i = r.machine.reg i) ∧ (∀ i, x < i → r₃.machine.reg i = r₂.machine.reg i) ∧
            r₃.machine.index = r.machine.index) ∧
      ∃ r₁ r₂, Executes (.ofNat (0xF065 + 0x100 * x)) r r₁ ∧ Executes (.ofNat (0xF055 + 0x100 * x)) r₁ r₂ ∧
        r₂.machine.memory = r.machine.memory) ∧
    (0xFFF < r.machine.index + x → ∃ cause, cause.kind = .outOfBounds ∧
      Refuses (.ofNat (0xF055 + 0x100 * x)) r cause ∧ Refuses (.ofNat (0xF065 + 0x100 * x)) r cause) := by
  have hm := (Machine.validate_iff r.machine).1 hvalid
  refine ⟨fun hlast => ⟨?_, ?_⟩, fun hpast => ⟨_, rfl, refuses_block hm hx hpast⟩⟩
  · have hblock := hm.hasBlock hx hlast
    refine ⟨_, executes_store hblock, fun r₂ hsame => ?_⟩
    have hstored : Machine.SameBlock x (r.machine.stored 0 (x + 1)) r₂.machine :=
      ⟨hsame.size_registers, hsame.size_memory, hsame.index, hsame.bytes⟩
    have hindex : r₂.machine.index = r.machine.index := by rw [hstored.index, Machine.stored_eq]
    refine ⟨_, executes_load (hstored.hasBlock (hblock.stored 0 (x + 1))), ?_, ?_, ?_⟩
    · exact fun i hi => Machine.reg_loaded_of_stored hblock hstored hi
    · intro i hi
      have hloaded := Machine.reg_loaded hstored.size_registers (by omega : 0 + (x + 1) ≤ 16) i
      rwa [if_neg (by omega)] at hloaded
    · rw [← hindex, Machine.loaded_eq]
      rfl
  · have hblock := hm.hasBlock hx hlast
    have hloaded := ((hblock.loaded 0 (x + 1)).moved 2).counted
    have hsame := Machine.memory_stored_of_same hloaded fun i hi => Machine.reg_loaded_eq_byteAt hblock hi
    refine ⟨_, _, executes_load hblock, executes_store hloaded, hsame.trans ?_⟩
    show (r.machine.loaded 0 (x + 1)).memory = r.machine.memory
    rw [Machine.loaded_eq]

/-- A rig whose index register is three bytes before the end of memory. -/
def topmost : Rig Script Cycle where
  machine :=
    { memory := (Array.replicate 4096 0).setIfInBounds 0xFFF 9
      registers := #[1, 2, 3, 4, 5, 6, 7, 8, 9, 10, 11, 12, 13, 14, 15, 16]
      index := 0xFFC }
  device := {}
  random := { numbers := #[7] }

/-- A block of four may end with the last byte of memory, and a block of five does not fit. -/
theorem block_restored_topmost :
    (∃ r₁, Executes 0xF355 topmost r₁ ∧
      ∃ r₃, Executes 0xF365 { r₁ with machine := { r₁.machine with registers := Array.replicate 16 0 } } r₃ ∧
        r₃.machine.reg 3 = 4 ∧ r₃.machine.reg 4 = 0) ∧
    (∃ r₁ r₂, Executes 0xF365 topmost r₁ ∧ Executes 0xF355 r₁ r₂ ∧ r₂.machine.memory = topmost.machine.memory) ∧
    ∃ cause, cause.kind = .outOfBounds ∧ Refuses 0xF455 topmost cause ∧ Refuses 0xF465 topmost cause := by
  have hvalid : topmost.machine.validate = true := by decide +kernel
  obtain ⟨⟨r₁, hstore, hload⟩, hback⟩ := (block_restored (x := 3) hvalid (by decide)).1 (by decide)
  obtain ⟨r₃, hexecutes, hlow, hhigh, -⟩ :=
    hload { r₁ with machine := { r₁.machine with registers := Array.replicate 16 0 } }
      ⟨by simp, rfl, rfl, fun _ _ => rfl⟩
  have hthree : r₃.machine.reg 3 = 4 := hlow 3 (by decide)
  have hfour : r₃.machine.reg 4 = 0 := hhigh 4 (by decide)
  exact ⟨⟨r₁, hstore, r₃, hexecutes, hthree, hfour⟩, hback,
    (block_restored (x := 4) hvalid (by decide)).2 (by decide)⟩

end Rig

end Chip8
