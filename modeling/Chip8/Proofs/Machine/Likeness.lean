import Chip8.Machine.Flow
import Chip8.Machine.Transfer
import Chip8.Proofs.Respect

/-!
# Machines that are alike

Most instructions look at memory, registers, index register and program counter only. A likeness is a relation between
machines that agree on these four, and that lasts when something is replaced by the same value in both. Every primitive
that leaves stack and delay timer unread respects every likeness, whether the machines are sound or not; that is all
this module says, one primitive at a time.
-/

namespace Chip8.Machine

open Act

/-- Machines alike in what most instructions look at. -/
structure Likeness (R : Machine → Machine → Prop) : Prop where
  memory {m n : Machine} : R m n → n.memory = m.memory
  registers {m n : Machine} : R m n → n.registers = m.registers
  index {m n : Machine} : R m n → n.index = m.index
  pc {m n : Machine} : R m n → n.pc = m.pc
  withMemory {m n : Machine} (memory : Array UInt8) : R m n → R { m with memory } { n with memory }
  withRegisters {m n : Machine} (registers : Array UInt8) : R m n → R { m with registers } { n with registers }
  withIndex {m n : Machine} (index : Int) : R m n → R { m with index } { n with index }
  withPc {m n : Machine} (pc : Int) : R m n → R { m with pc } { n with pc }
  withDelay {m n : Machine} (delayTimer : Int) : R m n → R { m with delayTimer } { n with delayTimer }
  withSound {m n : Machine} (soundTimer : Int) : R m n → R { m with soundTimer } { n with soundTimer }
  counted {m n : Machine} : R m n → R { m with cycles := m.cycles + 1 } { n with cycles := n.cycles + 1 }

namespace Likeness

variable {R : Machine → Machine → Prop} (hR : Likeness R)
include hR

/-! ## Cells -/

theorem memoryCell (address : Int) : Respects R (memoryCell address) := by
  refine respects_get_bind fun m n h => ?_
  rw [hR.memory h]
  exact respects_ofExcept _ m n h

theorem setMemoryCell (address : Int) (value : UInt8) : Respects R (setMemoryCell address value) := by
  refine respects_get_bind fun m n h => ?_
  rw [hR.memory h]
  refine (respects_ofExcept _).bind (fun memory => ?_) m n h
  exact respects_modify fun _ _ => hR.withMemory memory

theorem cell (address : Int) : Respects R (cell address) := by
  refine respects_get_bind fun m n h => ?_
  rw [hR.registers h]
  exact respects_ofExcept _ m n h

theorem setCell (address : Int) (value : UInt8) : Respects R (setCell address value) := by
  refine respects_get_bind fun m n h => ?_
  rw [hR.registers h]
  refine (respects_ofExcept _).bind (fun registers => ?_) m n h
  exact respects_modify fun _ _ => hR.withRegisters registers

theorem setRegister (x value : Int) : Respects R (setRegister x value) :=
  (hR.setCell x _).ite (respects_mishap _)

theorem setFlag (flag : Bool) : Respects R (setFlag flag) := hR.setCell 15 _

/-! ## Program counter and faults -/

theorem raise {α : Type} (cause : FaultCause) : Respects R (raise cause : Act Machine α) := by
  intro m n h
  unfold Machine.raise
  rw [hR.pc h]
  exact .error _ h

theorem setPc (target : Int) : Respects R (setPc target) := respects_modify fun _ _ => hR.withPc target

theorem advance : Respects R advance := by
  refine respects_modify fun m n h => ?_
  rw [hR.pc h]
  exact hR.withPc _ h

theorem skip : Respects R skip := by
  refine respects_modify fun m n h => ?_
  rw [hR.pc h]
  exact hR.withPc _ h

theorem skipIf (condition : Bool) : Respects R (skipIf condition) := hR.skip.ite hR.advance

theorem countCycle : Respects R countCycle := respects_modify fun _ _ => hR.counted

theorem checkRange (start length : Int) : Respects R (checkRange start length) :=
  (respects_pure ()).ite (hR.raise _)

theorem writeByte (address value : Int) : Respects R (writeByte address value) :=
  (hR.checkRange address 1).bind fun _ => hR.setMemoryCell address _

theorem fetch : Respects R fetch := by
  refine respects_get_bind fun m n h => ?_
  rw [hR.pc h]
  refine Respects.ite ?_ (hR.raise _) m n h
  refine (hR.memoryCell _).bind fun high => ?_
  exact (hR.memoryCell _).bind fun low => respects_pure _

/-! ## Flow of control -/

theorem jump (args : List Int) : Respects R (jump args) := (respects_ofExcept _).bind fun address => hR.setPc address

theorem jumpOffset (args : List Int) : Respects R (jumpOffset args) := by
  refine (hR.cell 0).bind fun offset => ?_
  exact (respects_ofExcept _).bind fun address => hR.setPc _

theorem skipEqByte (args : List Int) : Respects R (skipEqByte args) := by
  refine (respects_ofExcept _).bind fun (x, byte) => ?_
  exact (hR.cell x).bind fun a => hR.skipIf _

theorem skipNeByte (args : List Int) : Respects R (skipNeByte args) := by
  refine (respects_ofExcept _).bind fun (x, byte) => ?_
  exact (hR.cell x).bind fun a => hR.skipIf _

/-- Two registers are read before anything is done with them. -/
theorem cells {α : Type} (args : List Int) {next : Int → UInt8 → UInt8 → Act Machine α}
    (hnext : ∀ x a b, Respects R (next x a b)) :
    Respects R (do
      let (x, y) ← Act.ofExcept (Arguments.two args)
      let a ← Machine.cell x
      let b ← Machine.cell y
      next x a b) := by
  refine (respects_ofExcept _).bind fun (x, y) => ?_
  refine (hR.cell x).bind fun a => ?_
  exact (hR.cell y).bind fun b => hnext x a b

theorem skipEqReg (args : List Int) : Respects R (skipEqReg args) := hR.cells args fun _ a b => hR.skipIf (a == b)

theorem skipNeReg (args : List Int) : Respects R (skipNeReg args) := hR.cells args fun _ a b => hR.skipIf (a != b)

/-! ## Data -/

theorem assign (x value : Int) : Respects R (assign x value) := (hR.setRegister x value).bind fun _ => hR.advance

theorem assignWithFlag (flag : Bool) (x value : Int) : Respects R (assignWithFlag flag x value) :=
  (hR.setFlag flag).bind fun _ => hR.assign x value

theorem setByte (args : List Int) : Respects R (setByte args) :=
  (respects_ofExcept _).bind fun (x, byte) => hR.assign x byte

theorem addByte (args : List Int) : Respects R (addByte args) := by
  refine (respects_ofExcept _).bind fun (x, byte) => ?_
  exact (hR.cell x).bind fun a => hR.assign x _

theorem setReg (args : List Int) : Respects R (setReg args) := by
  refine (respects_ofExcept _).bind fun (x, y) => ?_
  exact (hR.cell y).bind fun b => hR.assign x _

theorem combine (f : UInt8 → UInt8 → UInt8) (args : List Int) : Respects R (combine f args) :=
  hR.cells args fun x a b => hR.assign x (f a b).toNat

theorem addReg (args : List Int) : Respects R (addReg args) :=
  hR.cells args fun x a b => hR.assignWithFlag (decide (255 < a.toNat + b.toNat)) x (a.toNat + b.toNat)

theorem subReg (args : List Int) : Respects R (subReg args) :=
  hR.cells args fun x a b => hR.assignWithFlag (decide (b.toNat ≤ a.toNat)) x ((a.toNat : Int) - b.toNat)

theorem subFromReg (args : List Int) : Respects R (subFromReg args) :=
  hR.cells args fun x a b => hR.assignWithFlag (decide (a.toNat ≤ b.toNat)) x ((b.toNat : Int) - a.toNat)

theorem shiftRight (args : List Int) : Respects R (shiftRight args) := by
  refine (respects_ofExcept _).bind fun x => ?_
  exact (hR.cell x).bind fun a => hR.assignWithFlag _ x _

theorem shiftLeft (args : List Int) : Respects R (shiftLeft args) := by
  refine (respects_ofExcept _).bind fun x => ?_
  exact (hR.cell x).bind fun a => hR.assignWithFlag _ x _

/-! ## Index register and timers -/

theorem assignIndex (value : Int) : Respects R (assignIndex value) :=
  (respects_modify fun _ _ => hR.withIndex _).bind fun _ => hR.advance

theorem setIndexTo (args : List Int) : Respects R (setIndexTo args) :=
  (respects_ofExcept _).bind fun address => hR.assignIndex address

theorem addIndex (args : List Int) : Respects R (addIndex args) := by
  refine respects_get_bind fun m n h => ?_
  rw [hR.index h]
  refine (respects_ofExcept _).bind (fun x => ?_) m n h
  exact (hR.cell x).bind fun a => hR.assignIndex _

theorem setDelay (args : List Int) : Respects R (setDelay args) := by
  refine (respects_ofExcept _).bind fun x => ?_
  refine (hR.cell x).bind fun a => ?_
  exact (respects_modify fun _ _ => hR.withDelay _).bind fun _ => hR.advance

theorem setSound (args : List Int) : Respects R (setSound args) := by
  refine (respects_ofExcept _).bind fun x => ?_
  refine (hR.cell x).bind fun a => ?_
  exact (respects_modify fun _ _ => hR.withSound _).bind fun _ => hR.advance

/-- Reading the delay timer needs machines that agree on it. -/
theorem readDelay (hdelay : ∀ m n, R m n → n.delayTimer = m.delayTimer) (args : List Int) :
    Respects R (readDelay args) := by
  refine (respects_ofExcept _).bind fun x => ?_
  refine respects_get_bind fun m n h => ?_
  rw [hdelay m n h]
  exact hR.assign x _ m n h

/-! ## Glyphs, digits and blocks -/

theorem checkBlock (offset : Int) : Respects R (checkBlock offset) := by
  refine respects_get_bind fun m n h => ?_
  rw [hR.index h]
  exact (hR.raise _).ite (respects_pure _) m n h

theorem glyph (args : List Int) : Respects R (glyph args) := by
  refine (respects_ofExcept _).bind fun x => ?_
  refine (hR.cell x).bind fun digit => ?_
  exact ((hR.raise _).bind fun _ => hR.assignIndex _).ite (hR.assignIndex _)

theorem decimal (args : List Int) : Respects R (decimal args) := by
  refine (hR.checkBlock 2).bind fun _ => ?_
  refine (respects_ofExcept _).bind fun x => ?_
  refine (hR.cell x).bind fun value => ?_
  refine respects_get_bind fun m n h => ?_
  rw [hR.index h]
  refine (hR.writeByte _ _).bind (fun _ => ?_) m n h
  refine (hR.writeByte _ _).bind fun _ => ?_
  exact (hR.writeByte _ _).bind fun _ => hR.advance

theorem storeFrom (k count : Nat) : Respects R (storeFrom k count) := by
  induction count generalizing k with
  | zero => exact respects_pure ()
  | succ count ih =>
    refine (hR.cell k).bind fun value => ?_
    refine respects_get_bind fun m n h => ?_
    rw [hR.index h]
    exact (hR.setMemoryCell _ value).bind (fun _ => ih (k + 1)) m n h

theorem loadFrom (k count : Nat) : Respects R (loadFrom k count) := by
  induction count generalizing k with
  | zero => exact respects_pure ()
  | succ count ih =>
    refine respects_get_bind fun m n h => ?_
    rw [hR.index h]
    refine (hR.memoryCell _).bind (fun value => ?_) m n h
    exact (hR.setCell k value).bind fun _ => ih (k + 1)

theorem store (args : List Int) : Respects R (store args) := by
  refine (respects_ofExcept _).bind fun x => ?_
  refine (hR.checkBlock x).bind fun _ => ?_
  exact (hR.storeFrom 0 _).bind fun _ => hR.advance

theorem load (args : List Int) : Respects R (load args) := by
  refine (respects_ofExcept _).bind fun x => ?_
  refine (hR.checkBlock x).bind fun _ => ?_
  exact (hR.loadFrom 0 _).bind fun _ => hR.advance

end Likeness

end Chip8.Machine
