import Chip8.Proofs.Cpu.Execution

/-!
# Arithmetic

The instructions that compute a register from registers or a byte. Some have a flag besides. Their operands, the
target and the flag register may be one register or several: both operands are read before anything is written, and the
flag is written before the result, so that in the flag register the result is what stays. `Machine.Computed` says this
once, for any result and any flag. Main statement: `computes_arithmetic`, the results and flags of the instructions.
-/

namespace Chip8

namespace Machine

/-- One machine is the other after it has computed a register, and a flag if there is one. Where the target is the flag
register, the flag is lost. -/
structure Computed (m m' : Machine) (x : Nat) (result : Int) (flag : Option Nat) : Prop where
  target : ((m'.reg x).toNat : Int) = result
  flagged : ∀ f, flag = some f → x ≠ 15 → (m'.reg 15).toNat = f
  others : ∀ i, i ≠ x → (i = 15 → flag = none) → m'.reg i = m.reg i
  size_registers : m'.registers.size = 16
  rest : m' = { m with registers := m'.registers, pc := m.pc + 2, cycles := m.cycles + 1 }

variable {m : Machine} {x : Nat}

theorem reg_assigned (hm : m.registers.size = 16) (hx : x < 16) (value : Int) (i : Nat) :
    (m.assigned x value).counted.reg i = if x = i then UInt8.ofInt value else m.reg i :=
  reg_withReg hm hx (UInt8.ofInt value) i

theorem reg_flagged (hm : m.registers.size = 16) (flag : Bool) (i : Nat) :
    (m.flagged flag).reg i = if 15 = i then (if flag then 1 else 0) else m.reg i :=
  reg_withReg hm (by decide) _ i

theorem computed_assigned (hm : m.registers.size = 16) (hx : x < 16) (value : Int) :
    m.Computed (m.assigned x value).counted x (value % 256) none where
  target := by rw [reg_assigned hm hx, if_pos rfl, toNat_ofInt]
  flagged f hf := by cases hf
  others i hi _ := by rw [reg_assigned hm hx, if_neg (Ne.symm hi)]
  size_registers := by simpa [assigned, moved, counted] using hm
  rest := rfl

theorem computed_flagged (hm : m.registers.size = 16) (hx : x < 16) (flag : Bool) (value : Int) :
    m.Computed ((m.flagged flag).assigned x value).counted x (value % 256) (some (if flag then 1 else 0)) := by
  have hsize : (m.flagged flag).registers.size = 16 := by simp [Machine.flagged, hm]
  have hassigned := computed_assigned hsize hx value
  refine ⟨hassigned.target, ?_, ?_, hassigned.size_registers, hassigned.rest⟩
  · rintro f hf hx15
    obtain rfl := Option.some.inj hf
    -- The result has gone elsewhere, so the flag is still there.
    rw [hassigned.others 15 (Ne.symm hx15) fun _ => rfl, reg_flagged hm, if_pos rfl]
    cases flag <;> rfl
  · intro i hi hother
    have h15 : i ≠ 15 := fun h => by cases hother h
    rw [hassigned.others i hi fun _ => rfl, reg_flagged hm, if_neg (Ne.symm h15)]

/-! ## Calculations -/

/-- What an operation computes from the values of two registers and a byte: a value that is still to be reduced, and the
flag if there is one. -/
def calculation? (a b : UInt8) (byte : Nat) : Op → Option (Int × Option Bool)
  | .setByte => some (byte, none)
  | .addByte => some (a.toNat + byte, none)
  | .setReg => some (b.toNat, none)
  | .orReg => some ((a ||| b).toNat, none)
  | .andReg => some ((a &&& b).toNat, none)
  | .xorReg => some ((a ^^^ b).toNat, none)
  | .addReg => some (a.toNat + b.toNat, some (255 < a.toNat + b.toNat))
  | .subReg => some (a.toNat - b.toNat, some (b.toNat ≤ a.toNat))
  | .subFromReg => some (b.toNat - a.toNat, some (a.toNat ≤ b.toNat))
  | .shiftRight => some ((a.toNat / 2 : Nat), some (a.toNat % 2 == 1))
  | .shiftLeft => some ((2 * a.toNat : Nat), some (128 ≤ a.toNat))
  | _ => none

/-- An operation that computes has the value modulo 256 as its result. -/
theorem computed_effect (hm : m.registers.size = 16) {w : UInt16} {op : Op} {value : Int} {flag : Option Bool}
    (h : calculation? (m.reg (Word.x w)) (m.reg (Word.y w)) (Word.byte w) op = some (value, flag)) :
    m.Computed (m.effect w {} op).counted (Word.x w) (value % 256) (flag.map fun f => if f then 1 else 0) := by
  have hx := Word.x_lt w
  cases op with
  | setByte | addByte | setReg | orReg | andReg | xorReg =>
    obtain ⟨rfl, rfl⟩ := Prod.mk.inj (Option.some.inj h)
    exact computed_assigned hm hx _
  | addReg | subReg | subFromReg | shiftRight | shiftLeft =>
    obtain ⟨rfl, rfl⟩ := Prod.mk.inj (Option.some.inj h)
    exact computed_flagged hm hx _ _
  | _ => cases h

end Machine

namespace Rig

variable {δ ρ : Type} [Device δ] [RandomSource ρ] {r : Rig δ ρ} {x y : Nat}

/-- Executing the opcode computes a register of the machine, and the flag if there is one, and nothing else. -/
def Computes (r : Rig δ ρ) (opcode x : Nat) (result : Int) (flag : Option Nat) : Prop :=
  ∃ m', Executes (.ofNat opcode) r { r with machine := m' } ∧ r.machine.Computed m' x result flag

section Calculation

variable {op : Op} {value : Int} {flag : Option Bool}

/-- An operation that computes meets no obstacle and asks nothing. -/
theorem computes_of_calculation {opcode byte : Nat} {b : UInt8} (hm : r.machine.Sound)
    (hop : Op.ofWord? (.ofNat opcode) = some op) (hx : Word.x (.ofNat opcode) = x)
    (hb : r.machine.reg (Word.y (.ofNat opcode)) = b) (hbyte : Word.byte (.ofNat opcode) = byte)
    (h : Machine.calculation? (r.machine.reg x) b byte op = some (value, flag)) :
    r.Computes opcode x (value % 256) (flag.map fun f => if f then 1 else 0) := by
  subst hx hb hbyte
  have hfree : r.machine.obstacle? (.ofNat opcode) op = none ∧ consult (.ofNat opcode) op r = .ok {} r := by
    cases op <;> first | exact ⟨rfl, rfl⟩ | cases h
  exact ⟨_, executes_of_reply hm hop hfree.1 hfree.2, Machine.computed_effect hm.registers h⟩

variable (op) (base : Nat)

/-- The instructions on two registers. -/
theorem computes_registers (hm : r.machine.Sound) (hx : x < 16) (hy : y < 16)
    (hfamily : op.family = ⟨base / 4096, 4, base % 16⟩) (hbase : base < 65536 ∧ base / 16 % 256 = 0)
    (h : ∀ byte, Machine.calculation? (r.machine.reg x) (r.machine.reg y) byte op = some (value, flag)) :
    r.Computes (base + 0x100 * x + 0x10 * y) x (value % 256) (flag.map fun f => if f then 1 else 0) := by
  obtain ⟨hop, hwx, hwy⟩ : Op.ofWord? _ = some op ∧ _ := Op.ofWord?_registers hx hy hfamily hbase.1 hbase.2
  exact computes_of_calculation hm hop hwx (by rw [hwy]) rfl (h _)

/-- The instructions on a register and a byte. -/
theorem computes_byte {nn : Nat} (hm : r.machine.Sound) (hx : x < 16) (hnn : nn < 256)
    (hfamily : op.family = ⟨base / 4096, 0, 0⟩) (hbase : base < 65536 ∧ base % 4096 = 0)
    (h : ∀ b, Machine.calculation? (r.machine.reg x) b nn op = some (value, flag)) :
    r.Computes (base + 0x100 * x + nn) x (value % 256) (flag.map fun f => if f then 1 else 0) := by
  obtain ⟨hop, hwx, hwnn⟩ : Op.ofWord? _ = some op ∧ _ := Op.ofWord?_registerByte hx hnn hfamily hbase.1 hbase.2
  exact computes_of_calculation hm hop hwx rfl hwnn (h _)

end Calculation

/-- **Results and flags.** The operands may be any registers, the flag register among them. -/
theorem computes_arithmetic (hvalid : r.machine.validate = true) (hx : x < 16) (hy : y < 16) :
    let a := (r.machine.reg x).toNat
    let b := (r.machine.reg y).toNat
    r.Computes (0x8004 + 0x100 * x + 0x10 * y) x ((a + b : Int) % 256) (some (if 255 < a + b then 1 else 0)) ∧
    r.Computes (0x8005 + 0x100 * x + 0x10 * y) x ((a - b : Int) % 256) (some (if b ≤ a then 1 else 0)) ∧
    r.Computes (0x8007 + 0x100 * x + 0x10 * y) x ((b - a : Int) % 256) (some (if a ≤ b then 1 else 0)) ∧
    r.Computes (0x8006 + 0x100 * x + 0x10 * y) x (a / 2 : Int) (some (a % 2)) ∧
    r.Computes (0x800E + 0x100 * x + 0x10 * y) x ((2 * a : Int) % 256) (some (a / 128)) ∧
    r.Computes (0x8000 + 0x100 * x + 0x10 * y) x b none ∧
    r.Computes (0x8001 + 0x100 * x + 0x10 * y) x (a ||| b : Nat) none ∧
    r.Computes (0x8002 + 0x100 * x + 0x10 * y) x (a &&& b : Nat) none ∧
    r.Computes (0x8003 + 0x100 * x + 0x10 * y) x (a ^^^ b : Nat) none ∧
    ∀ nn < 256, r.Computes (0x6000 + 0x100 * x + nn) x nn none ∧
      r.Computes (0x7000 + 0x100 * x + nn) x ((a + nn : Int) % 256) none := by
  intro a b
  have hm := (Machine.validate_iff r.machine).1 hvalid
  have ha : a < 256 := (r.machine.reg x).toNat_lt
  have hb : b < 256 := (r.machine.reg y).toNat_lt
  have hbyte (n : Nat) (h : n < 256) : (n : Int) % 256 = n := by omega
  refine ⟨?_, ?_, ?_, ?_, ?_, ?_, ?_, ?_, ?_, fun nn hnn => ⟨?_, ?_⟩⟩
  · simpa using computes_registers .addReg 0x8004 hm hx hy rfl (by decide) fun _ => rfl
  · simpa using computes_registers .subReg 0x8005 hm hx hy rfl (by decide) fun _ => rfl
  · simpa using computes_registers .subFromReg 0x8007 hm hx hy rfl (by decide) fun _ => rfl
  · have hhalf : ((a / 2 : Nat) : Int) % 256 = (a : Int) / 2 := by omega
    have hbit : (if (a % 2 == 1) = true then 1 else 0) = a % 2 := by
      rcases Nat.mod_two_eq_zero_or_one a with h | h <;> simp [h]
    rw [← hhalf, ← hbit]
    exact computes_registers .shiftRight 0x8006 hm hx hy rfl (by decide) fun _ => rfl
  · have hbit : (if decide (128 ≤ a) = true then 1 else 0) = a / 128 := by
      simp only [decide_eq_true_eq]
      split <;> omega
    rw [← hbit]
    exact computes_registers .shiftLeft 0x800E hm hx hy rfl (by decide) fun _ => rfl
  · rw [← hbyte b hb]
    exact computes_registers .setReg 0x8000 hm hx hy rfl (by decide) fun _ => rfl
  · rw [← UInt8.toNat_or, ← hbyte _ (UInt8.toNat_lt _)]
    exact computes_registers .orReg 0x8001 hm hx hy rfl (by decide) fun _ => rfl
  · rw [← UInt8.toNat_and, ← hbyte _ (UInt8.toNat_lt _)]
    exact computes_registers .andReg 0x8002 hm hx hy rfl (by decide) fun _ => rfl
  · rw [← UInt8.toNat_xor, ← hbyte _ (UInt8.toNat_lt _)]
    exact computes_registers .xorReg 0x8003 hm hx hy rfl (by decide) fun _ => rfl
  · rw [← hbyte nn hnn]
    exact computes_byte .setByte 0x6000 hm hx hnn rfl (by decide) fun _ => rfl
  · simpa using computes_byte .addByte 0x7000 hm hx hnn rfl (by decide) fun _ => rfl

/-- A rig with 200 in the flag register and 100 in register 3, and a display that nothing is drawn on. -/
def calculating : Rig Script Cycle where
  machine := { registers := #[0, 0, 0, 100, 0, 0, 0, 0, 0, 0, 0, 0, 0, 0, 0, 200] }
  device := {}
  random := { numbers := #[7] }

/-- In the flag register the sum stays and the carry is lost. As an operand the flag register is read first. -/
theorem computes_arithmetic_calculating :
    calculating.machine.validate = true ∧ calculating.Computes 0x8F34 15 44 (some 1) ∧
      calculating.Computes 0x83F5 3 156 (some 0) ∧ calculating.Computes 0x8FFE 15 144 (some 1) := by
  have hvalid : calculating.machine.validate = true := by decide +kernel
  have hsum := (computes_arithmetic (x := 15) (y := 3) hvalid (by decide) (by decide)).1
  have hdifference := (computes_arithmetic (x := 3) (y := 15) hvalid (by decide) (by decide)).2.1
  have hdouble := (computes_arithmetic (x := 15) (y := 15) hvalid (by decide) (by decide)).2.2.2.2.1
  exact ⟨hvalid, hsum, hdifference, hdouble⟩

end Rig

end Chip8
