import Chip8.Proofs.Cpu.CallStack

/-!
# Paths

Where an instruction leads. `Machine.path` reads it off the digits of the word, the machine, and what the device answers
about its keys; `Machine.pathOf` is the same by operation (`path_eq_pathOf`). An instruction that does not simply go on
to the next one does nothing else (`sameData_effect`). Main statement: `step_takes_path`.
-/

namespace Chip8

/-- Where an instruction leads. -/
inductive Path where
  /-- On to the next instruction. -/
  | next
  /-- Past the next instruction if the condition holds, else on to it. -/
  | skip (condition : Bool)
  /-- To an address. -/
  | jump (address : Int)
  /-- Nowhere. -/
  | stay
  deriving DecidableEq

/-- The program counter at the end of a path. -/
def Path.target (pc : Int) : Path → Int
  | .next => pc + 2
  | .skip condition => if condition then pc + 4 else pc + 2
  | .jump address => address
  | .stay => pc

namespace Machine

variable {m : Machine} {w : UInt16} {op : Op} {mask : Int} {key : Option Int}

/-! ## The path of a word -/

/-- Is the number in a register that of a key in the mask? -/
def finds (m : Machine) (mask : Int) (x : Nat) : Bool :=
  decide ((m.reg x).toNat ≤ 0xF) && Bits.testBit mask (m.reg x).toNat

/-- The path of a word, by its digits. The device answers with a mask of the keys held and with the active key. -/
def path (m : Machine) (mask : Int) (key : Option Int) (w : UInt16) : Path :=
  let vx := m.reg (Word.x w)
  let vy := m.reg (Word.y w)
  match w.toNat / 0x1000 with
  | 0x0 => if w.toNat = 0x00EE then .jump (m.entry m.sp.toNat) else .next
  | 0x1 => .jump (Word.address w)
  | 0x2 => .jump (Word.address w)
  | 0x3 => .skip (vx.toNat == Word.byte w)
  | 0x4 => .skip (vx.toNat != Word.byte w)
  | 0x5 => if Word.n w = 0 then .skip (vx == vy) else .next
  | 0x9 => if Word.n w = 0 then .skip (vx != vy) else .next
  | 0xB => .jump ((m.reg 0).toNat + Word.address w)
  | 0xE =>
    if Word.byte w = 0x9E then .skip (m.finds mask (Word.x w))
    else if Word.byte w = 0xA1 then .skip (!m.finds mask (Word.x w))
    else .next
  | 0xF => if Word.byte w = 0x0A ∧ key = none then .stay else .next
  | _ => .next

/-- The path of an operation. -/
def pathOf (m : Machine) (mask : Int) (key : Option Int) (w : UInt16) : Op → Path
  | .ret => .jump (m.entry m.sp.toNat)
  | .jump | .call => .jump (Word.address w)
  | .jumpOffset => .jump ((m.reg 0).toNat + Word.address w)
  | .skipEqByte => .skip ((m.reg (Word.x w)).toNat == Word.byte w)
  | .skipNeByte => .skip ((m.reg (Word.x w)).toNat != Word.byte w)
  | .skipEqReg => .skip (m.reg (Word.x w) == m.reg (Word.y w))
  | .skipNeReg => .skip (m.reg (Word.x w) != m.reg (Word.y w))
  | .skipKey => .skip (m.finds mask (Word.x w))
  | .skipNoKey => .skip (!m.finds mask (Word.x w))
  | .awaitKey => if key = none then .stay else .next
  | _ => .next

theorem path_eq_pathOf (hop : Op.ofWord? w = some op) : m.path mask key w = m.pathOf mask key w op := by
  obtain ⟨hfirst, hlast⟩ := Op.ofWord?_eq_some_iff.1 hop
  unfold path
  cases op with
  | clear =>
    have hret : w.toNat ≠ 0x00EE := fun h => by
      rw [Op.ofWord?_eq_ret_iff.2 h] at hop
      cases hop
    simp only [Op.family] at hfirst
    simp only [hfirst, if_neg hret, pathOf]
  | ret =>
    simp only [Op.family] at hfirst
    simp only [hfirst, if_pos (Op.ofWord?_eq_ret_iff.1 hop), pathOf]
  | skipEqReg | skipNeReg =>
    simp only [Op.family, Nat.reducePow] at hfirst hlast
    simp only [hfirst, Word.n, hlast, if_true, pathOf]
  | skipKey | skipNoKey | awaitKey | readDelay | setDelay | setSound | addIndex | glyph | decimal | store | load =>
    simp only [Op.family, Nat.reducePow] at hfirst hlast
    simp [hfirst, Word.byte, hlast, pathOf]
  | _ =>
    simp only [Op.family] at hfirst
    simp only [hfirst, pathOf]

/-- Only a wait for a key that is not there leads nowhere. -/
theorem pathOf_eq_stay_iff : m.pathOf mask key w op = .stay ↔ op = .awaitKey ∧ key = none := by
  cases op with
  | awaitKey => simp [pathOf]
  | _ => simp [pathOf]

/-! ## Taking it -/

/-- The reply that an operation gets from a device with these answers. -/
structure Answered (m : Machine) (mask : Int) (key : Option Int) (w : UInt16) (r : Reply) (op : Op) : Prop where
  held : op = .skipKey ∨ op = .skipNoKey → r.held = m.finds mask (Word.x w)
  key : op = .awaitKey → r.key = key

/-- An operation takes its path. -/
theorem pc_effect {r : Reply} (hr : m.Answered mask key w r op) :
    (m.effect w r op).pc = (m.pathOf mask key w op).target m.pc := by
  have hskipped (condition : Bool) : (m.skipped condition).pc = (Path.skip condition).target m.pc := by
    cases condition <;> rfl
  cases op with
  | skipEqByte | skipNeByte | skipEqReg | skipNeReg => rw [effect, hskipped, pathOf]
  | skipKey => rw [effect, hr.held (.inl rfl), hskipped, pathOf]
  | skipNoKey => rw [effect, hr.held (.inr rfl), hskipped, pathOf]
  | awaitKey =>
    simp only [effect, hr.key rfl, pathOf]
    cases key <;> rfl
  | store =>
    rw [effect, stored_eq]
    rfl
  | load =>
    rw [effect, loaded_eq]
    rfl
  | _ => rfl

/-- Registers, memory, index register and timers are the same. -/
structure SameData (m m' : Machine) : Prop where
  registers : m'.registers = m.registers
  memory : m'.memory = m.memory
  index : m'.index = m.index
  delayTimer : m'.delayTimer = m.delayTimer
  soundTimer : m'.soundTimer = m.soundTimer

/-- An operation whose path is not the next instruction does nothing else. -/
theorem sameData_effect {r : Reply} (hr : m.Answered mask key w r op) (h : m.pathOf mask key w op ≠ .next) :
    m.SameData (m.effect w r op) := by
  cases op with
  | ret | jump | call | jumpOffset | skipEqByte | skipNeByte | skipEqReg | skipNeReg | skipKey | skipNoKey =>
    exact ⟨rfl, rfl, rfl, rfl, rfl⟩
  | awaitKey =>
    simp only [effect, hr.key rfl]
    cases key with
    | none => exact ⟨rfl, rfl, rfl, rfl, rfl⟩
    | some key => exact absurd rfl h
  | _ => exact absurd rfl h

/-- An operation that leads nowhere does nothing at all. -/
theorem effect_of_stay {r : Reply} (hr : m.Answered mask key w r op) (h : m.pathOf mask key w op = .stay) :
    m.effect w r op = m := by
  obtain ⟨rfl, rfl⟩ := pathOf_eq_stay_iff.1 h
  simp only [effect, hr.key rfl]

end Machine

namespace Rig

variable {δ ρ : Type} [Device δ] [RandomSource ρ] {r r' : Rig δ ρ} {w : UInt16} {op : Op} {reply : Reply}

theorem consult_awaitKey (w : UInt16) (r : Rig δ ρ) :
    consult w .awaitKey r =
      .ok { key := (Device.activeKey r.device).1 } (devicePart.put r (Device.activeKey r.device).2) := by
  simp only [consult, Act.bind_run, activeKey_run, onward_ok, Act.pure_run]

/-- The answers of the device to what operations ask about its keys. -/
theorem answered_of_consult (h : consult w op r = .ok reply r') :
    r.machine.Answered (Device.heldKeys r.device).1 (Device.activeKey r.device).1 w reply op where
  held := by
    by_cases hkey : (r.machine.reg (Word.x w)).toNat < 16
    · have hle : (r.machine.reg (Word.x w)).toNat ≤ 0xF := by omega
      rintro (rfl | rfl) <;>
      · simp only [consult, Act.bind_run, Act.get_run, onward_ok, isHeld, if_pos hkey, heldKeys_run, Act.pure_run,
          EStateM.Result.ok.injEq] at h
        rw [← h.1, Machine.finds, decide_eq_true hle, Bool.true_and]
    · have hle : ¬ (r.machine.reg (Word.x w)).toNat ≤ 0xF := by omega
      rintro (rfl | rfl) <;>
      · simp only [consult, Act.bind_run, Act.get_run, onward_ok, isHeld, if_neg hkey, Act.pure_run,
          EStateM.Result.ok.injEq] at h
        rw [← h.1, Machine.finds, decide_eq_false hle, Bool.false_and]
  key := by
    rintro rfl
    rw [consult_awaitKey] at h
    cases h
    rfl

end Rig

namespace Cpu

variable {δ ρ : Type} [Device δ] [RandomSource ρ] {c d : Cpu δ ρ} {e : TraceEntry}

/-- **A step takes the path of its word.** A return takes the address it goes to off the stack; jumps and skips leave
the data of the machine as they are; and a step that waits for a key only counts. -/
theorem step_takes_path (hvalid : c.machine.validate = true) (hrun : c.machine.halted = false)
    (hstep : step c = .ok e d) :
    ∃ w, c.machine.word? = some w ∧
      let path := c.machine.path (Device.heldKeys c.device).1 (Device.activeKey c.device).1 w
      d.machine.pc = path.target c.machine.pc ∧
      (w = 0x00EE → c.machine.live = d.machine.live ++ [d.machine.pc]) ∧
      (path ≠ .next → c.machine.SameData d.machine) ∧
      (path = .stay → d.rig =
        { machine := { c.machine with cycles := c.machine.cycles + 1 }
          device := (Device.activeKey c.device).2
          random := c.rig.random }) := by
  have hm := (Machine.validate_iff c.machine).1 hvalid
  rcases step_cases hm hrun with ⟨cause, -, hfault⟩ | ⟨w, op, reply, rig, -, hword, hop, hobstacle, hconsult, hdone⟩ |
      ⟨w, op, mishap, rig, -, -, -, -, -, hlost⟩
  · rw [hfault] at hstep
    cases hstep
  · rw [hdone, complete] at hstep
    cases hstep
    have hanswered := Rig.answered_of_consult hconsult
    refine ⟨w, hword, ?_⟩
    simp only [Machine.path_eq_pathOf hop, machine, rig_keep]
    refine ⟨Machine.pc_effect hanswered, ?_, ?_, ?_⟩
    · rintro rfl
      obtain rfl : .ret = op := Option.some.inj ((Op.ofWord?_eq_ret_iff.2 rfl).symm.trans hop)
      have hsp : c.machine.sp ≠ -1 := by simpa [Machine.obstacle?] using hobstacle
      exact hm.stacked.live_popped hsp
    · intro hpath
      obtain ⟨hregisters, hmemory, hindex, hdelay, hsound⟩ := Machine.sameData_effect hanswered hpath
      exact ⟨hregisters, hmemory, hindex, hdelay, hsound⟩
    · intro hpath
      obtain ⟨rfl, -⟩ := Machine.pathOf_eq_stay_iff.1 hpath
      rw [Rig.consult_awaitKey] at hconsult
      cases hconsult
      have heffect : c.machine.effect w _ .awaitKey = c.machine := Machine.effect_of_stay hanswered hpath
      rw [executed, heffect]
      rfl
  · rw [hlost] at hstep
    cases hstep

/-- A processor whose next instruction looks for the key in register 5, which is held. -/
def looking : Cpu Script Cycle where
  rig :=
    { machine := { memory := Machine.startMemory [0xE5, 0x9E], registers := (Array.replicate 16 0).set! 5 2 }
      device := { keys := 4 }
      random := { numbers := #[7] } }
  trace := { limit := none }

/-- The key is found, and so the step leads past the next instruction. -/
theorem step_takes_path_looking : ∃ e d, step looking = .ok e d ∧ d.machine.pc = 0x204 := by
  have hvalid : looking.machine.validate = true := by decide +kernel
  have hword : looking.machine.word? = some 0xE59E := by decide +kernel
  have hop : Op.ofWord? 0xE59E = some .skipKey := by decide +kernel
  have hconsult : Rig.consult 0xE59E .skipKey looking.rig = .ok { held := true } looking.rig := rfl
  obtain ⟨e, d, hstep⟩ : ∃ e d, step looking = .ok e d :=
    ⟨_, _, step_of_reply ((Machine.validate_iff _).1 hvalid) rfl hword hop rfl hconsult⟩
  obtain ⟨w, hw, hpc, -⟩ := step_takes_path hvalid rfl hstep
  obtain rfl : 0xE59E = w := Option.some.inj (hword.symm.trans hw)
  have hpath : looking.machine.path (Device.heldKeys looking.device).1 (Device.activeKey looking.device).1 0xE59E =
      .skip true := by decide +kernel
  exact ⟨e, d, hstep, by rw [hpc, hpath]; rfl⟩

end Cpu

end Chip8
