import Chip8.Proofs.Cpu.Bounded
import Chip8.Proofs.Display.KeyEvent
import Chip8.Proofs.Host.Frames

/-!
# What a session can reach

A session goes on by operations from outside: loading, stepping and running, setting and ticking the timers, frames,
key events, and whole runs of a host with its onlookers. An operation that fails leaves what it has done so far, so
what counts is the session left behind. `Reaches` is any finite number of operations, in any order. Main statement:
`bounded_of_reaches`, the bounds of everything a fresh processor can be brought to.
-/

namespace Chip8

/-! ## Operations -/

/-- What is done to a session from outside, runs of a host apart. -/
inductive Operation where
  | load (rom : List UInt8)
  | step
  | run (cycles : Option Int)
  | setDelay (value : Int)
  | setSound (value : Int)
  | tick
  | frame
  | key (event : KeyEvent)

namespace Session

variable {δ ρ ω : Type}

/-- The host and what is kept beside the processor, replaced. -/
def handed (s : Session δ ρ ω) (host : Host) (clock : Clock) (extra : ω) : Session δ ρ ω :=
  { s with host, clock, extra }

end Session

/-- An operation on a session. What it answers is dropped. -/
def Operation.act {ρ ω : Type} [RandomSource ρ] : Operation → Act (Session FrameBuffer ρ ω) Unit
  | .load rom => (Cpu.loadProgram rom).within Session.cpuPart
  | .step => do
    let _ ← Cpu.step.within Session.cpuPart
  | .run cycles => do
    let _ ← (Cpu.run cycles).within Session.cpuPart
  | .setDelay value => modify fun s => { s with cpu := s.cpu.setDelayTimer value }
  | .setSound value => modify fun s => { s with cpu := s.cpu.setSoundTimer value }
  | .tick => modify fun s => { s with cpu := s.cpu.tickTimers }
  | .frame => Session.runFrame
  | .key event => (event.act.within Cpu.devicePart).within Session.cpuPart

namespace Session

variable {ρ ω : Type}

/-- The processor of a session, in bounds. -/
def Bounded (s : Session FrameBuffer ρ ω) : Prop := s.cpu.Bounded

/-- Bounds are about machine and fault only. -/
theorem Bounded.same {s t : Session FrameBuffer ρ ω} (hs : s.Bounded) (hmachine : t.cpu.machine = s.cpu.machine)
    (hfault : t.cpu.fault = s.cpu.fault) : t.Bounded where
  machine := by rw [hmachine]; exact hs.machine
  halted_iff := by rw [hmachine, hfault]; exact hs.halted_iff

theorem keeps_within {α : Type} {act : Act (Cpu FrameBuffer ρ) α} (h : Act.Keeps Cpu.Bounded act) :
    Act.Keeps Bounded (act.within (cpuPart : Part (Session FrameBuffer ρ ω) (Cpu FrameBuffer ρ))) :=
  h.within (fun _ hs => hs) fun _ _ _ hc => hc

variable [RandomSource ρ]

/-- The sessions that a session can be brought to. The onlookers of a run may themselves do what they like, as long as
it comes down to operations; and the next operation may come from another host. -/
inductive Reaches : Session FrameBuffer ρ ω → Session FrameBuffer ρ ω → Prop where
  | refl (s : Session FrameBuffer ρ ω) : Reaches s s
  | operation {s t : Session FrameBuffer ρ ω} (op : Operation) : Reaches s t → Reaches s (op.act.after t)
  | host {s t : Session FrameBuffer ρ ω} (k : Conduct (Session FrameBuffer ρ ω)) (patience : Nat) :
    (∀ u, Reaches u (k.asks u).2) → (∀ u, Reaches u (k.onlookers.afterFrame u)) → Reaches s t →
    Reaches s ((run k patience).after t)
  | handed {s t : Session FrameBuffer ρ ω} (host : Host) (clock : Clock) (extra : ω) :
    Reaches s t → Reaches s (t.handed host clock extra)

/-! ## Operations keep the bounds -/

theorem keeps_runFrame : Act.Keeps Bounded (runFrame : Act (Session FrameBuffer ρ ω) Unit) := by
  refine Act.keeps_get.bind fun s => ?_
  refine (keeps_within (Cpu.keeps_steps _)).bind fun _ => ?_
  exact Act.keeps_modify fun t ht => Cpu.Bounded.tickTimers ht

theorem keeps_operation (op : Operation) : Act.Keeps Bounded (op.act : Act (Session FrameBuffer ρ ω) Unit) := by
  cases op with
  | load rom => exact keeps_within (Cpu.keeps_loadProgram rom)
  | step => exact (keeps_within Cpu.keeps_step).bind fun _ => Act.keeps_pure ()
  | run cycles => exact (keeps_within (Cpu.keeps_run cycles)).bind fun _ => Act.keeps_pure ()
  | setDelay value => exact Act.keeps_modify fun s hs => Cpu.Bounded.setDelayTimer hs value
  | setSound value => exact Act.keeps_modify fun s hs => Cpu.Bounded.setSoundTimer hs value
  | tick => exact Act.keeps_modify fun s hs => Cpu.Bounded.tickTimers hs
  | frame => exact keeps_runFrame
  | key event =>
    refine keeps_within ?_
    intro c hc
    rw [Act.after_within]
    exact hc.withDevice _

/-! ## Everything that can be reached -/

theorem bounded_of_bounded {s t : Session FrameBuffer ρ ω} (h : Reaches s t) (hs : s.Bounded) : t.Bounded := by
  induction h with
  | refl s => exact hs
  | operation op _ ih => exact keeps_operation op _ (ih hs)
  -- The onlookers come down to operations, so by induction they keep the bounds that the run needs of them.
  | host k patience _ _ _ hask hlook ih =>
    exact keeps_run hask hlook keeps_runFrame (fun _ _ hu hmachine hfault => hu.same hmachine hfault) patience _ (ih hs)
  | handed host clock extra _ ih => exact ih hs

/-- **The bounds of a processor.** Whatever a new processor is brought to, by any operations in any order and with any
of them failing, its machine is valid and in bounds, and it is halted if and only if it has a fault. -/
theorem bounded_of_reaches {device : FrameBuffer} {random : ρ} {maxCycles : Int} {traceLength : Option Int}
    {s t : Session FrameBuffer ρ ω} (hcreate : Cpu.create device random maxCycles traceLength = .ok s.cpu)
    (h : Reaches s t) :
    t.cpu.machine.validate = true ∧ t.cpu.machine.Bounded ∧
      (t.cpu.machine.halted = true ↔ t.cpu.fault ≠ none) := by
  have hbounded := bounded_of_bounded h (Cpu.bounded_of_create hcreate)
  exact ⟨(Machine.validate_iff _).2 hbounded.machine.toSound, hbounded.machine, hbounded.halted_iff⟩

/-- A session about to load its program. -/
def fresh : Session FrameBuffer Cycle Unit where
  cpu :=
    { rig := { machine := Machine.empty, device := FrameBuffer.standard, random := { numbers := #[7] } }
      trace := { limit := none } }
  host := { cyclesPerFrame := 10, frameRate := 60 }
  extra := ()

theorem bounded_of_reaches_fresh :
    ((run { limit := some 2 } 3).after ((Operation.load [0x00, 0xEE]).act.after fresh)).cpu.machine.Bounded := by
  have hload : Reaches fresh ((Operation.load [0x00, 0xEE]).act.after fresh) := .operation _ (.refl fresh)
  have hcreate : Cpu.create FrameBuffer.standard ({ numbers := #[7] } : Cycle) 10000 none = .ok fresh.cpu := rfl
  have hrun : Reaches fresh ((run { limit := some 2 } 3).after ((Operation.load [0x00, 0xEE]).act.after fresh)) :=
    .host { limit := some 2 } 3 (fun u => .refl u) (fun u => .refl u) hload
  exact (bounded_of_reaches hcreate hrun).2.1

end Session

end Chip8
