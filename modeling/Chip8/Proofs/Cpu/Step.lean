import Chip8.Cpu.Basic
import Chip8.Proofs.Rig.Perform

/-!
# Steps

What a step of a running processor with a sound machine does, in three equations. Whether it faults, and with what,
is decided by the machine alone before anything has changed (`Machine.trouble?`): such a step ends in
`Cpu.stoppedBy` (`step_of_trouble`). Any other step has a word and an operation without an obstacle; it consults the
world outside, and either completes (`step_of_reply`) or gets lost there (`step_of_lost`). Main statement:
`step_cases`, the three ways of a step.
-/

namespace Chip8

namespace Machine

variable {m : Machine}

/-! ## The word at the program counter -/

/-- The word at an address, most significant byte first. -/
def wordAt (m : Machine) (a : Nat) : Nat := (m.byteAt a).toNat * 256 + (m.byteAt (a + 1)).toNat

theorem wordAt_lt (m : Machine) (a : Nat) : m.wordAt a < 65536 := by
  have hfirst := (m.byteAt a).toNat_lt
  have hsecond := (m.byteAt (a + 1)).toNat_lt
  unfold wordAt
  omega

/-- The word at the program counter, if it lies where words are fetched from. -/
def word? (m : Machine) : Option UInt16 :=
  if 0 ≤ m.pc ∧ m.pc ≤ lastFetch then some (UInt16.ofNat (m.wordAt m.pc.toNat)) else none

theorem fetch_of_word {w : UInt16} (hmemory : m.memory.size = 4096) (h : m.word? = some w) : fetch m = .ok w m := by
  unfold word? at h
  split at h
  · next hpc =>
    obtain ⟨hlow, hhigh⟩ := hpc
    simp only [lastFetch] at hhigh
    have hfirst := memoryCell_eq hmemory hlow (by omega)
    have hsecond := memoryCell_eq hmemory (show 0 ≤ m.pc + 1 by omega) (by omega)
    rw [show (m.pc + 1).toNat = m.pc.toNat + 1 by omega] at hsecond
    simp [fetch, lastFetch, hlow, hhigh, hfirst, hsecond, ← Option.some.inj h, wordAt]
  · cases h

theorem fetch_of_none (h : m.word? = none) :
    fetch m = .error (.fault { cause := .fetchPastEnd m.pc, pc := some m.pc }) m := by
  unfold word? at h
  split at h
  · cases h
  · next hpc => simp [fetch, hpc, raise_eq]

theorem word?_of_le (hpc : 0 ≤ m.pc) (h : m.pc ≤ 0xFFD) : m.word? = some (UInt16.ofNat (m.wordAt m.pc.toNat)) := by
  rw [word?, if_pos ⟨hpc, h⟩]

theorem word?_of_lt (h : 0xFFD < m.pc) : m.word? = none := by
  rw [word?, if_neg]
  simp only [lastFetch]
  omega

theorem range_of_word {w : UInt16} (h : m.word? = some w) : 0 ≤ m.pc ∧ m.pc ≤ 0xFFD := by
  unfold word? at h
  split at h
  · next hpc => exact hpc
  · cases h

theorem le_of_word {w : UInt16} (h : m.word? = some w) : m.pc ≤ 0xFFD := (range_of_word h).2

/-- The decoded word at the program counter, if there is one and it is an instruction. -/
def decoded? (m : Machine) : Option Decoded :=
  m.word?.bind fun w => (Decoder.standard.decode w.toNat).toOption

/-- What is going to stop the machine at its next step. -/
def trouble? (m : Machine) : Option FaultCause :=
  match m.word? with
  | none => some (.fetchPastEnd m.pc)
  | some w => match Op.ofWord? w with
    | none => some (.noInstruction w.toNat)
    | some op => m.obstacle? w op

theorem trouble?_of_word {w : UInt16} {op : Op} (hword : m.word? = some w) (hop : Op.ofWord? w = some op) :
    m.trouble? = m.obstacle? w op := by
  simp only [trouble?, hword, hop]

theorem trouble?_eq_none (h : m.trouble? = none) :
    ∃ w op, m.word? = some w ∧ Op.ofWord? w = some op ∧ m.obstacle? w op = none := by
  cases hword : m.word? with
  | none => simp [trouble?, hword] at h
  | some w =>
    cases hop : Op.ofWord? w with
    | none => simp [trouble?, hword, hop] at h
    | some op => exact ⟨w, op, rfl, hop, trouble?_of_word hword hop ▸ h⟩

theorem decoded?_of_word {w : UInt16} {op : Op} (hword : m.word? = some w) (hop : Op.ofWord? w = some op) :
    ∃ inst, inst.op = op ∧ Decoder.standard.decode w.toNat = .ok ⟨inst, op.args w, w⟩ ∧
      m.decoded? = some ⟨inst, op.args w, w⟩ := by
  obtain ⟨inst, hinst, hdecode⟩ := Decoder.decode_standard hop
  exact ⟨inst, hinst, hdecode, by simp [decoded?, hword, hdecode, Except.toOption]⟩

theorem decoded?_of_unknown {w : UInt16} (hword : m.word? = some w) (hop : Op.ofWord? w = none) :
    m.decoded? = none := by
  simp [decoded?, hword, Decoder.decode_standard_unknown hop, Except.toOption]

theorem decoded?_of_none (hword : m.word? = none) : m.decoded? = none := by
  simp [decoded?, hword]

end Machine

namespace Cpu

variable {δ ρ : Type} {c : Cpu δ ρ}

/-! ## What a step starts from -/

@[simp] theorem withMachine_machine (c : Cpu δ ρ) : c.withMachine c.machine = c := rfl

/-- What is known of the next step once its word is decoded. -/
def progress (c : Cpu δ ρ) : Progress where
  pc := c.machine.pc
  before := c.snapshot?
  word := c.machine.word?
  decoded := c.machine.decoded?

/-- The processor about to execute: the note of a decoded word is in the journal. -/
def ready (c : Cpu δ ρ) : Cpu δ ρ :=
  match c.machine.decoded? with
  | some decoded => c.note (.executing c.machine.pc decoded)
  | none => c

/-- A fault of the next step with its whole place. -/
def located (c : Cpu δ ρ) (cause : FaultCause) : Fault where
  cause
  pc := some c.machine.pc
  opcode := c.machine.word?.map fun w => (w.toNat : Int)

/-- The processor after a step that faulted. -/
def stoppedBy (c : Cpu δ ρ) (cause : FaultCause) : Cpu δ ρ :=
  let halted := c.ready.halt (c.located cause)
  halted.keep (halted.entry c.progress (some (c.located cause).text))

/-- The processor with the rig of an instruction that was executed, before its entry is kept. -/
def executed (c : Cpu δ ρ) (w : UInt16) (reply : Reply) (op : Op) (rig : Rig δ ρ) : Cpu δ ρ :=
  { c.ready with rig := Rig.machinePart.put rig (c.machine.effect w reply op).counted }

/-- The processor with the rig of an instruction that got lost outside. -/
def strayed (c : Cpu δ ρ) (op : Op) (rig : Rig δ ρ) : Cpu δ ρ :=
  { c.ready with rig := Rig.machinePart.put rig (c.machine.begun op) }

/-! ## What a step ends in -/

/-- The entry of a step that faults. -/
def faultEntry (c : Cpu δ ρ) (cause : FaultCause) : TraceEntry where
  cycle := c.machine.cycles
  pc := c.machine.pc
  word := c.machine.word?
  decoded := c.machine.decoded?
  passage := c.snapshot?.map fun before => ⟨before, { c.machine.snapshot with halted := true }⟩
  error := some (c.located cause).text

@[simp] theorem rig_ready (c : Cpu δ ρ) : c.ready.rig = c.rig := by
  unfold ready
  split <;> rfl

@[simp] theorem fault_ready (c : Cpu δ ρ) : c.ready.fault = c.fault := by
  unfold ready
  split <;> rfl

@[simp] theorem trace_ready (c : Cpu δ ρ) : c.ready.trace = c.trace := by
  unfold ready
  split <;> rfl

@[simp] theorem maxCycles_ready (c : Cpu δ ρ) : c.ready.maxCycles = c.maxCycles := by
  unfold ready
  split <;> rfl

@[simp] theorem rig_keep (c : Cpu δ ρ) (e : TraceEntry) : (c.keep e).rig = c.rig := by
  unfold keep
  split <;> rfl

@[simp] theorem fault_keep (c : Cpu δ ρ) (e : TraceEntry) : (c.keep e).fault = c.fault := by
  unfold keep
  split <;> rfl

@[simp] theorem maxCycles_keep (c : Cpu δ ρ) (e : TraceEntry) : (c.keep e).maxCycles = c.maxCycles := by
  unfold keep
  split <;> rfl

theorem trace_keep (c : Cpu δ ρ) (e : TraceEntry) :
    (c.keep e).trace = if c.trace.isOn then c.trace.push e else c.trace := by
  unfold keep
  split <;> rfl

theorem rig_stoppedBy (c : Cpu δ ρ) (cause : FaultCause) :
    (c.stoppedBy cause).rig = { c.rig with machine := { c.machine with halted := true } } := by
  rw [stoppedBy, rig_keep]
  simp only [halt, note, withMachine, machine, rig_ready]

theorem fault_stoppedBy (c : Cpu δ ρ) (cause : FaultCause) : (c.stoppedBy cause).fault = some (c.located cause) := by
  rw [stoppedBy, fault_keep]
  rfl

theorem maxCycles_stoppedBy (c : Cpu δ ρ) (cause : FaultCause) : (c.stoppedBy cause).maxCycles = c.maxCycles := by
  rw [stoppedBy, maxCycles_keep]
  exact maxCycles_ready c

theorem trace_stoppedBy (c : Cpu δ ρ) (cause : FaultCause) :
    (c.stoppedBy cause).trace = if c.trace.isOn then c.trace.push (c.faultEntry cause) else c.trace := by
  have htrace : (c.ready.halt (c.located cause)).trace = c.trace := trace_ready c
  have hentry : (c.ready.halt (c.located cause)).entry c.progress (some (c.located cause).text) =
      c.faultEntry cause := by
    simp only [entry, halt, note, withMachine, machine, rig_ready, progress, faultEntry]
    rfl
  rw [stoppedBy, trace_keep, htrace, hentry]

theorem machine_executed (c : Cpu δ ρ) (w : UInt16) (reply : Reply) (op : Op) (rig : Rig δ ρ) :
    (c.executed w reply op rig).machine = (c.machine.effect w reply op).counted := rfl

/-! ## The three equations -/

variable [Device δ] [RandomSource ρ]

/-- Where no word can be fetched a step faults, whatever the machine. -/
theorem step_of_none (hrun : c.machine.halted = false) (hword : c.machine.word? = none) :
    step c = .error (.fault (c.located (.fetchPastEnd c.machine.pc))) (c.stoppedBy (.fetchPastEnd c.machine.pc)) := by
  simp [step, hrun, Machine.fetch_of_none hword, abort, Fault.locate, stoppedBy, located, ready, progress, hword,
    Machine.decoded?_of_none hword]

/-- **A step that faults** has changed nothing before it does. -/
theorem step_of_trouble {cause : FaultCause} (hm : c.machine.Sound) (hrun : c.machine.halted = false)
    (h : c.machine.trouble? = some cause) :
    step c = .error (.fault (c.located cause)) (c.stoppedBy cause) := by
  cases hword : c.machine.word? with
  | none =>
    obtain rfl : .fetchPastEnd c.machine.pc = cause := by simpa [Machine.trouble?, hword] using h
    exact step_of_none hrun hword
  | some w =>
    have hfetch := Machine.fetch_of_word hm.memory hword
    -- A fault of the decoder knows its word but not its place, one of an operation its place but not its word.
    cases hop : Op.ofWord? w with
    | none =>
      obtain rfl : .noInstruction w.toNat = cause := by simpa [Machine.trouble?, hword, hop] using h
      simp [step, hrun, hfetch, Decoder.decode_standard_unknown hop, Decoder.unknown, abort, Fault.locate, stoppedBy,
        located, ready, progress, hword, Machine.decoded?_of_unknown hword hop]
    | some op =>
      obtain ⟨inst, hinst, hdecode, hdecoded⟩ := Machine.decoded?_of_word hword hop
      have hexecute : Rig.execute op (op.args w) c.rig = .error (.fault { cause, pc := some c.machine.pc }) c.rig :=
        Rig.execute_of_obstacle hm (Machine.trouble?_of_word hword hop ▸ h)
      simp [step, hrun, hfetch, hdecode, executeDecoded, note, hinst, hexecute, abort, Fault.locate, stoppedBy,
        located, ready, progress, hword, hdecoded]

/-- **A step that completes** has the effect of its operation, and counts. -/
theorem step_of_reply {w : UInt16} {op : Op} {reply : Reply} {rig : Rig δ ρ} (hm : c.machine.Sound)
    (hrun : c.machine.halted = false) (hword : c.machine.word? = some w) (hop : Op.ofWord? w = some op)
    (h : c.machine.obstacle? w op = none) (hconsult : Rig.consult w op c.rig = .ok reply rig) :
    step c = (c.executed w reply op rig).complete c.progress := by
  obtain ⟨inst, hinst, hdecode, hdecoded⟩ := Machine.decoded?_of_word hword hop
  have hexecute : Rig.execute op (op.args w) c.rig =
      .ok () (Rig.machinePart.put rig (c.machine.effect w reply op).counted) := Rig.execute_of_reply hm h hconsult
  simp [step, hrun, Machine.fetch_of_word hm.memory hword, hdecode, executeDecoded, note, hinst, hexecute, executed,
    ready, progress, hword, hdecoded]

/-- **A step that gets lost outside** leaves the processor running. -/
theorem step_of_lost {w : UInt16} {op : Op} {mishap : Mishap} {rig : Rig δ ρ} (hm : c.machine.Sound)
    (hrun : c.machine.halted = false) (hword : c.machine.word? = some w) (hop : Op.ofWord? w = some op)
    (h : c.machine.obstacle? w op = none) (hconsult : Rig.consult w op c.rig = .error (.mishap mishap) rig) :
    step c = .error (.mishap mishap) (c.strayed op rig) := by
  obtain ⟨inst, hinst, hdecode, hdecoded⟩ := Machine.decoded?_of_word hword hop
  have hexecute : Rig.execute op (op.args w) c.rig =
      .error (.mishap mishap) (Rig.machinePart.put rig (c.machine.begun op)) := Rig.execute_of_lost hm h hconsult
  simp [step, hrun, Machine.fetch_of_word hm.memory hword, hdecode, executeDecoded, note, hinst, hexecute, abort,
    strayed, ready, hdecoded]

/-- **The three ways of a step.** A step of a running processor faults, completes, or gets lost outside. -/
theorem step_cases (hm : c.machine.Sound) (hrun : c.machine.halted = false) :
    (∃ cause, c.machine.trouble? = some cause ∧ step c = .error (.fault (c.located cause)) (c.stoppedBy cause)) ∨
    (∃ w op reply rig, c.machine.trouble? = none ∧ c.machine.word? = some w ∧ Op.ofWord? w = some op ∧
      c.machine.obstacle? w op = none ∧ Rig.consult w op c.rig = .ok reply rig ∧
      step c = (c.executed w reply op rig).complete c.progress) ∨
    (∃ w op mishap rig, c.machine.trouble? = none ∧ c.machine.word? = some w ∧ Op.ofWord? w = some op ∧
      c.machine.obstacle? w op = none ∧ Rig.consult w op c.rig = .error (.mishap mishap) rig ∧
      step c = .error (.mishap mishap) (c.strayed op rig)) := by
  cases htrouble : c.machine.trouble? with
  | some cause => exact .inl ⟨cause, rfl, step_of_trouble hm hrun htrouble⟩
  | none =>
    obtain ⟨w, op, hword, hop, h⟩ := Machine.trouble?_eq_none htrouble
    cases hconsult : Rig.consult w op c.rig with
    | ok reply rig =>
      exact .inr (.inl ⟨w, op, reply, rig, rfl, hword, hop, h, hconsult, step_of_reply hm hrun hword hop h hconsult⟩)
    | error e rig =>
      obtain ⟨mishap, rfl⟩ := Rig.mishapsOnly_consult w op c.rig e rig hconsult
      exact .inr (.inr ⟨w, op, mishap, rig, rfl, hword, hop, h, hconsult, step_of_lost hm hrun hword hop h hconsult⟩)

/-- A step faults with what is going to stop the machine, and with nothing else. -/
theorem step_eq_fault_iff {f : Fault} {c' : Cpu δ ρ} (hm : c.machine.Sound) (hrun : c.machine.halted = false) :
    step c = .error (.fault f) c' ↔
      ∃ cause, c.machine.trouble? = some cause ∧ c.located cause = f ∧ c.stoppedBy cause = c' := by
  constructor
  · intro hstep
    rcases step_cases hm hrun with ⟨cause, htrouble, heq⟩ | ⟨w, op, reply, rig, -, -, -, -, -, heq⟩ |
        ⟨w, op, mishap, rig, -, -, -, -, -, heq⟩
    · rw [heq] at hstep
      cases hstep
      exact ⟨cause, htrouble, rfl, rfl⟩
    · rw [heq] at hstep
      cases hstep
    · rw [heq] at hstep
      cases hstep
  · rintro ⟨cause, htrouble, rfl, rfl⟩
    exact step_of_trouble hm hrun htrouble

/-- **A step cannot get lost** on a display of a fixed size with a random number to be had. -/
theorem step_ok_of_sized {P : δ → Prop} {width height : Int} (hsized : Device.Sized P width height)
    (hm : c.machine.Sound) (hrun : c.machine.halted = false) (hdevice : P c.device)
    (hrandom : ∃ answer, RandomSource.next c.rig.random = .ok answer) (h : c.machine.trouble? = none) :
    ∃ w op reply rig, c.machine.word? = some w ∧ Op.ofWord? w = some op ∧ Rig.consult w op c.rig = .ok reply rig ∧
      P rig.device ∧ step c = (c.executed w reply op rig).complete c.progress := by
  obtain ⟨w, op, hword, hop, hobstacle⟩ := Machine.trouble?_eq_none h
  obtain ⟨reply, rig, hconsult, hrig⟩ := Rig.consult_ok hsized hdevice w op fun _ => hrandom
  exact ⟨w, op, reply, rig, hword, hop, hconsult, hrig, step_of_reply hm hrun hword hop hobstacle hconsult⟩

end Cpu

end Chip8
