import Chip8.Proofs.Machine.Effect
import Chip8.Proofs.Rig.Turns
import Chip8.Rig.Execute

/-!
# Operations on a rig

An operation on a sound rig either meets an obstacle, and then nothing at all has happened, or it consults the world
outside and then does its work on the machine alone. `consult` is the part outside; six operations have one, and it
never raises a fault. What is left is the table `Machine.effect`, so that `perform_eq` says what every operation does.
-/

namespace Chip8

namespace Rig

variable {δ ρ : Type}

/-! ## After the answer -/

/-- How an operation ends whose answer has come, or has not. -/
def settled (m : Machine) (w : UInt16) (op : Op) :
    EStateM.Result Failure (Rig δ ρ) Reply → EStateM.Result Failure (Rig δ ρ) Unit
  | .ok reply r => .ok () (machinePart.put r (m.effect w reply op))
  | .error e r => .error e (machinePart.put r (m.begun op))

@[simp] theorem settled_ok (m : Machine) (w : UInt16) (op : Op) (reply : Reply) (r : Rig δ ρ) :
    settled m w op (.ok reply r) = .ok () (machinePart.put r (m.effect w reply op)) := by rw [settled]

@[simp] theorem settled_error (m : Machine) (w : UInt16) (op : Op) (e : Failure) (r : Rig δ ρ) :
    settled m w op (.error e r) = .error e (machinePart.put r (m.begun op)) := by rw [settled]

/-! ## Consulting the world outside -/

/-- The check of the range, made for a sprite with rows, passes for a sprite in memory. -/
theorem checked_run {r : Rig δ ρ} {rows : Nat} (h : rows ≠ 0 → Machine.inRange r.machine.index rows = true)
    (next : Act (Rig δ ρ) Unit) :
    (if (rows : Int) ≠ 0 then do
      onMachine (Machine.checkRange (← get).machine.index rows)
      next
    else next) r = next r := by
  by_cases hrows : (rows : Int) = 0
  · rw [if_neg (not_not_intro hrows)]
  · rw [if_pos hrows]
    simp [onMachine_run, Machine.checkRange_ok (h (by omega))]

theorem mishapsOnly_draw [RandomSource ρ] : Act.MishapsOnly (draw : Act (Rig δ ρ) Int) := by
  intro r e r' h
  simp only [draw] at h
  split at h
  · cases h
  · next m _ =>
    cases h
    exact ⟨m, rfl⟩

theorem heldKeys_run [Device δ] (r : Rig δ ρ) :
    heldKeys r = .ok (Device.heldKeys r.device).1 (devicePart.put r (Device.heldKeys r.device).2) := rfl

theorem activeKey_run [Device δ] (r : Rig δ ρ) :
    activeKey r = .ok (Device.activeKey r.device).1 (devicePart.put r (Device.activeKey r.device).2) := rfl

theorem mishapsOnly_isHeld [Device δ] (key : UInt8) : Act.MishapsOnly (isHeld key : Act (Rig δ ρ) Bool) := by
  unfold isHeld
  split
  · have hkeys : Act.MishapsOnly (heldKeys : Act (Rig δ ρ) Int) :=
      Act.mishapsOnly_of_ok fun r => ⟨_, _, heldKeys_run r⟩
    exact hkeys.bind fun mask => Act.mishapsOnly_pure _
  · exact Act.mishapsOnly_pure false

theorem isHeld_ok [Device δ] {P : δ → Prop} {width height : Int} (hsized : Device.Sized P width height) {r : Rig δ ρ}
    (hdevice : P r.device) (key : UInt8) : ∃ held r', isHeld key r = .ok held r' ∧ P r'.device := by
  by_cases hkey : key.toNat < 16
  · refine ⟨Bits.testBit (Device.heldKeys r.device).1 key.toNat, devicePart.put r (Device.heldKeys r.device).2, ?_,
      hsized.heldKeys r.device hdevice⟩
    simp [isHeld, if_pos hkey, heldKeys_run]
  · exact ⟨false, r, by simp [isHeld, if_neg hkey], hdevice⟩

variable [Device δ] [RandomSource ρ]

/-- What an operation asks for, on its way through device and random source. -/
def consult (w : UInt16) : Op → Act (Rig δ ρ) Reply
  | .clear => do
    clearDisplay
    return {}
  | .skipKey | .skipNoKey => do
    let held ← isHeld ((← get).machine.reg (Word.x w))
    return { held }
  | .awaitKey => do
    let key ← activeKey
    return { key }
  | .random => do
    let number ← draw
    return { number }
  | .draw => do
    let m := (← get).machine
    let places := spritePlaces m (m.reg (Word.x w)).toNat (m.reg (Word.y w)).toNat 0 (Word.n w)
    let hit ← (turnAll places false).within devicePart
    return { hit }
  | _ => pure {}

/-- The world outside raises no faults. -/
theorem mishapsOnly_consult (w : UInt16) (op : Op) : Act.MishapsOnly (consult w op : Act (Rig δ ρ) Reply) := by
  have hreply (r : Reply) : Act.MishapsOnly (pure r : Act (Rig δ ρ) Reply) := Act.mishapsOnly_pure r
  cases op with
  | clear =>
    have hclear : Act.MishapsOnly (clearDisplay : Act (Rig δ ρ) Unit) := Act.mishapsOnly_of_ok fun r => ⟨(), _, rfl⟩
    exact hclear.bind fun _ => hreply _
  | skipKey | skipNoKey =>
    refine Act.mishapsOnly_get.bind fun r => ?_
    exact (mishapsOnly_isHeld _).bind fun held => hreply _
  | awaitKey =>
    have hkey : Act.MishapsOnly (activeKey : Act (Rig δ ρ) (Option Int)) :=
      Act.mishapsOnly_of_ok fun r => ⟨_, _, activeKey_run r⟩
    exact hkey.bind fun key => hreply _
  | random => exact mishapsOnly_draw.bind fun number => hreply _
  | draw =>
    refine Act.mishapsOnly_get.bind fun r => Act.MishapsOnly.bind ?_ fun hit => hreply _
    exact (mishapsOnly_turnAll _ false).within devicePart
  | _ => exact hreply {}

/-- On a display of a fixed size every answer comes, if a random number is to be had where one is asked for. -/
theorem consult_ok {P : δ → Prop} {width height : Int} (hsized : Device.Sized P width height) {r : Rig δ ρ}
    (hdevice : P r.device) (w : UInt16) (op : Op)
    (hrandom : op = .random → ∃ answer, RandomSource.next r.random = .ok answer) :
    ∃ reply r', consult w op r = .ok reply r' ∧ P r'.device := by
  cases op with
  | clear => exact ⟨{}, _, rfl, hsized.clear r.device hdevice⟩
  | skipKey | skipNoKey =>
    obtain ⟨held, r', hheld, hdevice'⟩ := isHeld_ok hsized hdevice (r.machine.reg (Word.x w))
    exact ⟨{ held }, r', by simp [consult, hheld], hdevice'⟩
  | awaitKey => exact ⟨{ key := (Device.activeKey r.device).1 }, _, rfl, hsized.activeKey r.device hdevice⟩
  | random =>
    obtain ⟨⟨number, random⟩, hnext⟩ := hrandom rfl
    refine ⟨{ number }, { r with random }, ?_, hdevice⟩
    simp [consult, draw, hnext]
  | draw =>
    obtain ⟨hit, d, hturn, hd⟩ := turnAll_ok hsized
      (spritePlaces r.machine (r.machine.reg (Word.x w)).toNat (r.machine.reg (Word.y w)).toNat 0 (Word.n w)) false
      hdevice
    refine ⟨{ hit }, devicePart.put r d, ?_, hd⟩
    simp only [consult, Act.bind_run, Act.get_run, onward_ok, Act.within_run, devicePart_get, hturn, Part.back_ok,
      Act.pure_run]
  | _ => exact ⟨{}, r, rfl, hdevice⟩

/-- On a display of a fixed size only a random number can fail to come, and then nothing has happened. -/
theorem eq_random_of_consult_error {P : δ → Prop} {width height : Int} (hsized : Device.Sized P width height)
    {r r' : Rig δ ρ} (hdevice : P r.device) {w : UInt16} {op : Op} {e : Failure} (h : consult w op r = .error e r') :
    op = .random ∧ r' = r := by
  by_cases hop : op = .random
  · refine ⟨hop, ?_⟩
    subst hop
    cases hnext : RandomSource.next r.random with
    | error m =>
      simp only [consult, Act.bind_run, draw, hnext, onward_error, EStateM.Result.error.injEq] at h
      exact h.2.symm
    | ok answer => simp [consult, draw, hnext] at h
  · obtain ⟨reply, r'', hconsult, -⟩ := consult_ok hsized hdevice w op fun hrandom => absurd hrandom hop
    rw [hconsult] at h
    cases h

/-! ## Performing -/

/-- How an operation ends. -/
def ending (w : UInt16) (op : Op) (r : Rig δ ρ) : EStateM.Result Failure (Rig δ ρ) Unit :=
  match r.machine.obstacle? w op with
  | some cause => .error (.fault { cause, pc := some r.machine.pc }) r
  | none => settled r.machine w op (consult w op r)

theorem ending_of_obstacle {w : UInt16} {op : Op} {r : Rig δ ρ} {cause : FaultCause}
    (h : r.machine.obstacle? w op = some cause) :
    ending w op r = .error (.fault { cause, pc := some r.machine.pc }) r := by rw [ending, h]

theorem ending_of_none {w : UInt16} {op : Op} {r : Rig δ ρ} (h : r.machine.obstacle? w op = none) :
    ending w op r = settled r.machine w op (consult w op r) := by rw [ending, h]

/-- An operation on the machine alone ends as the tables say. -/
theorem onMachine_ending {act : Act Machine Unit} {w : UInt16} {op : Op} {r : Rig δ ρ}
    (hact : act r.machine = r.machine.outcome w {} op) (hconsult : consult w op r = .ok {} r) :
    onMachine act r = ending w op r := by
  rw [onMachine_run, hact, Machine.outcome]
  cases h : r.machine.obstacle? w op with
  | some cause => simp [ending_of_obstacle h]
  | none => simp [ending_of_none h, hconsult]

theorem drawSprite_of_obstacle {r : Rig δ ρ} (hm : r.machine.Sound) {w : UInt16}
    (h : Word.n w ≠ 0 ∧ 0xFFF < r.machine.index + Word.n w - 1) :
    drawSprite (Op.args .draw w) r = ending w .draw r := by
  have hindex := hm.index_nonneg
  have hobstacle : r.machine.obstacle? w .draw =
      some (.outsideMemory r.machine.index (r.machine.index + Word.n w - 1)) := by
    simp only [Machine.obstacle?, if_pos h]
  have hrange : Machine.inRange r.machine.index (Word.n w) = false := by
    rw [← Bool.not_eq_true, Machine.inRange_iff]
    omega
  rw [ending_of_obstacle hobstacle]
  simp [drawSprite, Op.args, Arguments.three, h.1, onMachine_run, Machine.checkRange_error hrange]

/-- A sprite needs no more of the machine than its rows of cells and an index register that is no negative number. -/
theorem drawSprite_of_none {r : Rig δ ρ} (hregisters : r.machine.registers.size = 16)
    (hmemory : r.machine.memory.size = 4096) (hindex : 0 ≤ r.machine.index) {w : UInt16}
    (h : ¬ (Word.n w ≠ 0 ∧ 0xFFF < r.machine.index + Word.n w - 1)) :
    drawSprite (Op.args .draw w) r = ending w .draw r := by
  have hn := Word.n_lt w
  have hobstacle : r.machine.obstacle? w .draw = none := by simp only [Machine.obstacle?, if_neg h]
  have hrange : Word.n w ≠ 0 → Machine.inRange r.machine.index (Word.n w) = true := by
    rw [Machine.inRange_iff]
    omega
  have hx := Machine.cell_eq hregisters (Word.x_lt w)
  have hy := Machine.cell_eq hregisters (Word.y_lt w)
  have hflag (flag : Bool) {m : Machine} (hm : m.registers.size = 16) :
      Machine.setFlag flag m = .ok () (m.flagged flag) := Machine.setFlag_eq hm flag
  have hflagged : (r.machine.flagged false).registers.size = 16 := by simp [Machine.flagged, hregisters]
  -- The flag is cleared before the rows are drawn, and the places do not depend on it.
  have hdraw := @drawRows_eq δ ρ _ (r.machine.reg (Word.x w)).toNat (r.machine.reg (Word.y w)).toNat 0 (Word.n w)
    false (machinePart.put r (r.machine.flagged false)) hmemory hindex
    (fun hrows => show r.machine.index + (0 : Nat) + Word.n w ≤ 4096 by omega)
  have hplaces := fun left top =>
    @spritePlaces_congr r.machine (r.machine.flagged false) left top 0 (Word.n w) rfl rfl
  rw [ending_of_none hobstacle]
  simp only [drawSprite, Op.args, Arguments.three, Act.bind_run, Act.ofExcept_ok_run, onward_ok]
  rw [checked_run hrange]
  simp only [Int.toNat_natCast, Act.bind_run, onMachine_run, hx, Part.back_ok, machinePart_put_machine, onward_ok, hy,
    hregisters, hflag, hdraw, machine_put_machinePart, hplaces, device_put_machinePart, consult, Act.get_run,
    Act.within_run, devicePart_get]
  cases turnAll (spritePlaces r.machine (r.machine.reg (Word.x w)).toNat (r.machine.reg (Word.y w)).toNat 0
    (Word.n w)) false r.device with
  | error e d => rfl
  | ok hit d =>
    simp only [Part.back_ok, onward_ok, Act.bind_run, onMachine_run, machine_put_devicePart,
      machine_put_machinePart, hflagged, hflag, Machine.advance_eq, Act.pure_run, settled_ok]
    rfl

/-- **The whole instruction set.** An operation meets its obstacle with nothing changed; without one it consults the
world outside and takes its effect. -/
theorem perform_eq {r : Rig δ ρ} (hm : r.machine.Sound) (w : UInt16) (op : Op) :
    perform op (op.args w) r = ending w op r := by
  have hx := Machine.cell_eq hm.registers (Word.x_lt w)
  have hy := Machine.cell_eq hm.registers (Word.y_lt w)
  have hassign := @Machine.assign_eq r.machine hm.registers _ (Word.x_lt w)
  have hflagged := @Machine.assignWithFlag_eq r.machine hm.registers _ (Word.x_lt w)
  cases op with
  | ret => exact onMachine_ending (Machine.ret_eq hm w _) rfl
  | call => exact onMachine_ending (Machine.call_eq hm w _) rfl
  | glyph => exact onMachine_ending (Machine.glyph_eq hm w _) rfl
  | decimal => exact onMachine_ending (Machine.decimal_eq hm w _) rfl
  | store => exact onMachine_ending (Machine.store_eq hm w _) rfl
  | load => exact onMachine_ending (Machine.load_eq hm w _) rfl
  | draw =>
    by_cases h : Word.n w ≠ 0 ∧ 0xFFF < r.machine.index + Word.n w - 1
    · exact drawSprite_of_obstacle hm h
    · exact drawSprite_of_none hm.registers hm.memory hm.index_nonneg h
  | jump =>
    refine onMachine_ending ?_ rfl
    simp [Machine.jump, Op.args, Arguments.first, Machine.setPc_eq, Machine.outcome, Machine.obstacle?, Machine.effect]
  | jumpOffset =>
    refine onMachine_ending ?_ rfl
    have hzero : Machine.cell 0 r.machine = .ok (r.machine.reg 0) r.machine :=
      Machine.cell_eq hm.registers (show 0 < 16 by decide)
    simp [Machine.jumpOffset, hzero, Op.args, Arguments.first, Machine.setPc_eq, Machine.outcome, Machine.obstacle?,
      Machine.effect]
  | skipEqByte | skipNeByte =>
    refine onMachine_ending ?_ rfl
    have hbeq (a b : Nat) : ((a : Int) == (b : Int)) = (a == b) := by
      rw [Bool.eq_iff_iff, beq_iff_eq, beq_iff_eq, Int.natCast_inj]
    simp [Machine.skipEqByte, Machine.skipNeByte, bne, hbeq, Op.args, Arguments.two, hx, Machine.skipIf_eq,
      Machine.outcome, Machine.obstacle?, Machine.effect]
  | skipEqReg | skipNeReg =>
    refine onMachine_ending ?_ rfl
    simp [Machine.skipEqReg, Machine.skipNeReg, Op.args, Arguments.two, hx, hy, Machine.skipIf_eq, Machine.outcome,
      Machine.obstacle?, Machine.effect]
  | setByte | addByte | setReg | orReg | andReg | xorReg | readDelay =>
    refine onMachine_ending ?_ rfl
    simp [Machine.setByte, Machine.addByte, Machine.setReg, Machine.combine, Machine.readDelay, Op.args,
      Arguments.first, Arguments.two, hx, hy, hassign, Machine.outcome, Machine.obstacle?, Machine.effect]
  | addReg | subReg | subFromReg | shiftRight | shiftLeft =>
    refine onMachine_ending ?_ rfl
    simp [Machine.addReg, Machine.subReg, Machine.subFromReg, Machine.shiftRight, Machine.shiftLeft, Op.args,
      Arguments.first, Arguments.two, hx, hy, hflagged, Machine.outcome, Machine.obstacle?, Machine.effect]
  | setDelay | setSound | setIndex | addIndex =>
    refine onMachine_ending ?_ rfl
    simp [Machine.setDelay, Machine.setSound, Machine.setIndexTo, Machine.addIndex, Op.args, Arguments.first, hx,
      Machine.assignIndex_eq, Machine.advance_eq, Machine.moved, Machine.outcome, Machine.obstacle?, Machine.effect]
  | clear =>
    rw [ending_of_none rfl]
    simp [perform, consult, clearDisplay, onMachine_run, Machine.advance_eq, Machine.effect]
  | skipKey | skipNoKey =>
    rw [ending_of_none rfl]
    simp only [perform, skipOnKey, Op.args, Arguments.first, consult, Act.bind_run, Act.ofExcept_ok_run, Act.get_run,
      onward_ok, onMachine_run, hx, Part.back_ok, machinePart_put_machine]
    by_cases hkey : (r.machine.reg (Word.x w)).toNat < 16
    · simp [isHeld, hkey, heldKeys_run, onMachine_run, Machine.skipIf_eq, Machine.effect]
    · simp [isHeld, hkey, onMachine_run, Machine.skipIf_eq, Machine.effect]
  | awaitKey =>
    rw [ending_of_none rfl]
    simp only [perform, awaitKey, consult, Act.bind_run, activeKey_run, onward_ok]
    cases (Device.activeKey r.device).1 with
    | none => rfl
    | some key => simp [Op.args, Arguments.first, onMachine_run, hassign, Machine.effect]
  | random =>
    rw [ending_of_none rfl]
    simp only [perform, assignRandom, Op.args, Arguments.two, consult, Act.bind_run, Act.ofExcept_ok_run, onward_ok]
    cases hnext : RandomSource.next r.random with
    | error m => simp [draw, hnext, Machine.begun]
    | ok answer => simp [draw, hnext, onMachine_run, hassign, Machine.effect]

/-! ## Executing -/

theorem execute_of_obstacle {w : UInt16} {op : Op} {r : Rig δ ρ} {cause : FaultCause} (hm : r.machine.Sound)
    (h : r.machine.obstacle? w op = some cause) :
    execute op (op.args w) r = .error (.fault { cause, pc := some r.machine.pc }) r := by
  rw [execute, Act.bind_run, perform_eq hm, ending_of_obstacle h, onward_error]

theorem execute_of_performed {w : UInt16} {op : Op} {r r' : Rig δ ρ} {reply : Reply}
    (hperform : perform op (op.args w) r = ending w op r) (h : r.machine.obstacle? w op = none)
    (hconsult : consult w op r = .ok reply r') :
    execute op (op.args w) r = .ok () (machinePart.put r' (r.machine.effect w reply op).counted) := by
  rw [execute, Act.bind_run, hperform, ending_of_none h, hconsult, settled_ok, onward_ok]
  rfl

theorem execute_of_reply {w : UInt16} {op : Op} {r r' : Rig δ ρ} {reply : Reply} (hm : r.machine.Sound)
    (h : r.machine.obstacle? w op = none) (hconsult : consult w op r = .ok reply r') :
    execute op (op.args w) r = .ok () (machinePart.put r' (r.machine.effect w reply op).counted) :=
  execute_of_performed (perform_eq hm w op) h hconsult

theorem execute_of_lost {w : UInt16} {op : Op} {r r' : Rig δ ρ} {e : Failure} (hm : r.machine.Sound)
    (h : r.machine.obstacle? w op = none) (hconsult : consult w op r = .error e r') :
    execute op (op.args w) r = .error e (machinePart.put r' (r.machine.begun op)) := by
  rw [execute, Act.bind_run, perform_eq hm, ending_of_none h, hconsult, settled_error, onward_error]

end Rig

end Chip8
