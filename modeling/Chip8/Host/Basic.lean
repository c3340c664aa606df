import Chip8.Cpu.Basic

/-!
# The host

The host owns time. It runs a batch of instructions, ticks the timers once, and calls that a frame. A run goes on
frame by frame until the limit is reached, somebody asks to stop, or an instruction faults. Before each frame the
host asks whether to stop, after each frame it lets others look, and in real time it then waits for the next frame to
be due; a host that is late does not catch up. Main statements: `run_halted`, and `pace_late` for the last rule.
-/

namespace Chip8

/-- A host: instructions in a frame, frames in a second, and the frames completed so far. -/
structure Host where
  cyclesPerFrame : Nat
  frameRate : Nat
  frames : Nat := 0
  deriving DecidableEq, Repr

/-- A host for at least one instruction in a frame and one frame in a second. -/
def Host.create (cyclesPerFrame frameRate : Int) : Except Mishap Host :=
  if cyclesPerFrame < 1 then .error .tooFewCycles
  else if frameRate < 1 then .error .tooFewFrames
  else .ok { cyclesPerFrame := cyclesPerFrame.toNat, frameRate := frameRate.toNat }

/-- A clock in seconds, and the waits so far, oldest first. -/
structure Clock where
  now : Float := 0
  waits : Array Float := #[]

/-- Lets time pass. -/
def Clock.wait (c : Clock) (seconds : Float) : Clock :=
  { now := c.now + seconds, waits := c.waits.push seconds }

/-- A processor in the hands of a host, with a clock and whatever the onlookers keep. -/
structure Session (δ ρ ω : Type) where
  cpu : Cpu δ ρ
  host : Host
  clock : Clock := {}
  extra : ω

/-- The onlookers of a run. -/
structure Onlookers (σ : Type) where
  /-- Asked before every frame whether to stop. -/
  shouldStop : Option (σ → Bool × σ) := none
  /-- Called after every frame. -/
  afterFrame : σ → σ := id

/-- How a run ended. -/
inductive Ending where
  /-- The processor had halted before. -/
  | alreadyHalted (fault : Option Fault)
  | limitReached
  | stopped
  | faulted (fault : Fault)
  /-- The run was given up. -/
  | givenUp
  deriving DecidableEq, Repr

/-- The fault that ended a run. -/
def Ending.fault? : Ending → Option Fault
  | .alreadyHalted fault => fault
  | .faulted fault => some fault
  | _ => none

namespace Session

variable {δ ρ ω : Type}

/-- The processor as a part of a session. -/
def cpuPart : Part (Session δ ρ ω) (Cpu δ ρ) := ⟨Session.cpu, fun s cpu => { s with cpu }⟩

/-- A note for the journal. -/
def note (s : Session δ ρ ω) (n : Note) : Session δ ρ ω := { s with cpu := s.cpu.note n }

/-! ## Frames -/

variable [Device δ] [RandomSource ρ]

/-- Runs one frame: a batch of instructions, then one tick. A frame cut short by a failure is not counted. -/
def runFrame : Act (Session δ ρ ω) Unit := do
  let cycles := (← get).host.cyclesPerFrame
  (Cpu.steps cycles).within cpuPart
  modify fun s => { s with cpu := s.cpu.tickTimers, host := { s.host with frames := s.host.frames + 1 } }

/-! ## Pacing -/

/-- Waits for the next frame to be due, and gives the time at which that was. If it is overdue, it becomes due now. -/
def pace (clock : Clock) (due : Float) : Float × Clock :=
  let wait := due - clock.now
  if wait > 0 then (due, clock.wait wait) else (clock.now, clock)

theorem pace_late {clock : Clock} {due : Float} (h : ¬ due - clock.now > 0) : pace clock due = (clock.now, clock) := by
  simp [pace, h]

/-- The seconds of a frame. -/
def frameTime (frameRate : Nat) : Except Mishap Float :=
  let rate := Float.ofNat frameRate
  if rate.isInf then .error .frameRateTooLarge else .ok (1.0 / rate)

/-! ## Runs -/

/-- How a run is to be conducted. -/
structure Conduct (σ : Type) where
  /-- The number of frames, if there is a limit. -/
  limit : Option Int := none
  onlookers : Onlookers σ := {}
  realtime : Bool := true

/-- Is the limit reached after this many frames? -/
def Conduct.reached {σ : Type} (k : Conduct σ) (completed : Nat) : Bool :=
  match k.limit with
  | none => false
  | some limit => decide (limit ≤ completed)

/-- Asks the onlookers whether to stop. -/
def Conduct.asks {σ : Type} (k : Conduct σ) (s : σ) : Bool × σ :=
  match k.onlookers.shouldStop with
  | none => (false, s)
  | some ask => ask s

/-- Runs frames, of which `completed` are already done; the coming one is due at `due`. Gives up after `patience`
frames. -/
def runFrames (k : Conduct (Session δ ρ ω)) (seconds : Float) :
    (patience completed : Nat) → (due : Float) → Act (Session δ ρ ω) Ending
  | 0, _, _ => fun s => .ok .givenUp s
  | patience + 1, completed, due => fun s =>
    if k.reached completed then .ok .limitReached (s.note (.hostStopped s.host.frames))
    else match k.asks s with
      | (true, s) => .ok .stopped (s.note (.hostStopped s.host.frames))
      | (false, s) => match runFrame s with
        | .error (.fault f) s => .ok (.faulted f) (s.note (.hostFaulted s.host.frames))
        | .error e s => .error e s
        | .ok () s =>
          let s := k.onlookers.afterFrame s
          let (due, clock) := if k.realtime then pace s.clock (due + seconds) else (due, s.clock)
          runFrames k seconds patience (completed + 1) due { s with clock }

/-- Runs frames until the limit, a request to stop, or a fault. -/
def run (k : Conduct (Session δ ρ ω)) (patience : Nat) : Act (Session δ ρ ω) Ending := fun s =>
  if s.cpu.machine.halted then .ok (.alreadyHalted s.cpu.fault) s
  else match frameTime s.host.frameRate with
    | .error m => .error (.mishap m) s
    | .ok seconds =>
      runFrames k seconds patience 0 s.clock.now (s.note (.hostStarting s.host.cyclesPerFrame s.host.frameRate))

theorem run_halted {s : Session δ ρ ω} (h : s.cpu.machine.halted = true) (k : Conduct (Session δ ρ ω))
    (patience : Nat) : run k patience s = .ok (.alreadyHalted s.cpu.fault) s := by
  simp [run, h]

end Session

end Chip8
