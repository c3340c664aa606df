import Chip8.Cpu.Trace
import Chip8.Journal
import Chip8.Rig.Execute

/-!
# The processor

A processor runs the machine of a rig one instruction at a time: fetch, decode, execute. A fault halts it for good, is
recorded with its place, and is handed on to the caller; from then on every step is refused. A mishap is handed on as
well, but leaves the processor running and the trace as it was. Main statements: `step_halted` and
`loadProgram_halted`, the refusals of a halted processor.
-/

namespace Chip8

/-- A rig with the fault that halted it and the trace of its steps. -/
structure Cpu (δ ρ : Type) where
  rig : Rig δ ρ
  fault : Option Fault := none
  trace : Trace
  maxCycles : Int := 10000
  journal : Array Note := #[]

namespace Cpu

variable {δ ρ α : Type}

/-- The machine of a processor. -/
def machine (c : Cpu δ ρ) : Machine := c.rig.machine

/-- The device of a processor. -/
def device (c : Cpu δ ρ) : δ := c.rig.device

/-- Puts a machine in the place of the one of a processor. -/
def withMachine (c : Cpu δ ρ) (machine : Machine) : Cpu δ ρ := { c with rig := { c.rig with machine } }

/-- The machine as a part of a processor. -/
def machinePart : Part (Cpu δ ρ) Machine := ⟨machine, withMachine⟩

/-- The device as a part of a processor. -/
def devicePart : Part (Cpu δ ρ) δ := ⟨device, fun c device => { c with rig := { c.rig with device } }⟩

/-- An action on the machine of a processor. -/
def onMachine (act : Act Machine α) : Act (Cpu δ ρ) α := act.within machinePart

/-- A note for the journal. -/
def note (c : Cpu δ ρ) (n : Note) : Cpu δ ρ := { c with journal := c.journal.push n }

/-! ## Starting -/

/-- A length of trace: none for all steps, else a number that is not negative and fits a machine word. -/
def traceLimit : Option Int → Except Mishap (Option Nat)
  | none => .ok none
  | some n =>
    if !Cells.fitsWord n then .error .traceTooLong
    else if n < 0 then .error .negativeTraceLength
    else .ok (some n.toNat)

/-- A processor with an empty program. -/
def create (device : δ) (random : ρ) (maxCycles : Int) (traceLength : Option Int) : Except Mishap (Cpu δ ρ) :=
  (traceLimit traceLength).map fun limit =>
    { rig := { machine := Machine.empty, device, random }, trace := { limit }, maxCycles }

/-- Starts a fresh machine with a program. Device and random source go on as they are. -/
def loadProgram (rom : List UInt8) : Act (Cpu δ ρ) Unit := fun c =>
  if c.machine.halted then .error (.halted c.fault) c
  else match Machine.start rom with
    | .error m => .error (.mishap m) c
    | .ok machine =>
      .ok () ({ c.withMachine machine with fault := none, trace := c.trace.cleared }.note (.programLoaded rom.length))

theorem loadProgram_halted {c : Cpu δ ρ} (h : c.machine.halted = true) (rom : List UInt8) :
    loadProgram rom c = .error (.halted c.fault) c := by
  simp [loadProgram, h]

/-! ## Stepping -/

/-- What is known of a step before it ends. -/
structure Progress where
  pc : Int
  before : Option Snapshot
  word : Option UInt16 := none
  decoded : Option Decoded := none

/-- The snapshot of the machine, if the trace is on. -/
def snapshot? (c : Cpu δ ρ) : Option Snapshot := if c.trace.isOn then some c.machine.snapshot else none

/-- The entry of a step that has ended. -/
def entry (c : Cpu δ ρ) (p : Progress) (error : Option String) : TraceEntry where
  cycle := c.machine.cycles
  pc := p.pc
  word := p.word
  decoded := p.decoded
  passage := p.before.map fun before => ⟨before, c.machine.snapshot⟩
  error

/-- Keeps an entry, if the trace is on. -/
def keep (c : Cpu δ ρ) (e : TraceEntry) : Cpu δ ρ := if c.trace.isOn then { c with trace := c.trace.push e } else c

/-- The processor halted by a fault. -/
def halt (c : Cpu δ ρ) (f : Fault) : Cpu δ ρ :=
  { c.withMachine { c.machine with halted := true } with fault := some f }.note (.halted f)

/-- Ends a step that completed. -/
def complete (c : Cpu δ ρ) (p : Progress) : EStateM.Result Failure (Cpu δ ρ) TraceEntry :=
  let e := c.entry p none
  .ok e (c.keep e)

/-- Ends a step that failed. A fault halts and is recorded; anything else is only handed on. -/
def abort (c : Cpu δ ρ) (p : Progress) : Failure → EStateM.Result Failure (Cpu δ ρ) TraceEntry
  | .fault f =>
    let f := f.locate p.pc (p.word.map fun w => (w.toNat : Int))
    let c := c.halt f
    .error (.fault f) (c.keep (c.entry p (some f.text)))
  | e => .error e c

variable [Device δ] [RandomSource ρ]

/-- Executes a decoded word. -/
def executeDecoded (c : Cpu δ ρ) (p : Progress) (decoded : Decoded) : EStateM.Result Failure (Cpu δ ρ) TraceEntry :=
  let p := { p with decoded := some decoded }
  let c := c.note (.executing p.pc decoded)
  match Rig.execute decoded.instruction.op decoded.args c.rig with
  | .ok () rig => { c with rig }.complete p
  | .error e rig => { c with rig }.abort p e

/-- Runs one instruction. -/
def step : Act (Cpu δ ρ) TraceEntry := fun c =>
  if c.machine.halted then .error (.halted c.fault) c
  else
    let p : Progress := { pc := c.machine.pc, before := c.snapshot? }
    match Machine.fetch c.machine with
    | .error e machine => (c.withMachine machine).abort p e
    | .ok word machine =>
      let c := c.withMachine machine
      let p := { p with word := some word }
      match Decoder.standard.decode word.toNat with
      | .error e => c.abort p e
      | .ok decoded => c.executeDecoded p decoded

theorem step_halted {c : Cpu δ ρ} (h : c.machine.halted = true) : step c = .error (.halted c.fault) c := by
  simp [step, h]

/-- Runs `n` instructions, or as many as there are before one fails. -/
def steps : Nat → Act (Cpu δ ρ) Unit
  | 0 => pure ()
  | n + 1 => do
    let _ ← step
    steps n

/-- Runs a number of instructions, by default the number that the processor was made with. -/
def run (cycles : Option Int) : Act (Cpu δ ρ) (Array TraceEntry) := do
  steps (cycles.getD (← get).maxCycles).toNat
  return (← get).trace.entries

/-! ## Timers -/

/-- Sets the delay timer, modulo 256. -/
def setDelayTimer (c : Cpu δ ρ) (value : Int) : Cpu δ ρ :=
  c.withMachine { c.machine with delayTimer := value % 256 }

/-- Sets the sound timer, modulo 256. -/
def setSoundTimer (c : Cpu δ ρ) (value : Int) : Cpu δ ρ :=
  c.withMachine { c.machine with soundTimer := value % 256 }

/-- Takes one from each timer that is above zero. -/
def tickTimers (c : Cpu δ ρ) : Cpu δ ρ :=
  let c := if 0 < c.machine.delayTimer then c.setDelayTimer (c.machine.delayTimer - 1) else c
  if 0 < c.machine.soundTimer then c.setSoundTimer (c.machine.soundTimer - 1) else c

end Cpu

end Chip8
