import Chip8.Proofs.Cpu.Step
import Chip8.Proofs.Machine.Bounded

/-!
# Bounds on a processor

A processor keeps its machine within the bounds of what programs can reach, and it is halted if and only if it has a
fault to show for it. Whatever is done to it keeps that up, failures included. Main statement: `keeps_step`.
-/

namespace Chip8.Cpu

variable {δ ρ : Type}

/-- A machine in bounds, halted by a fault or not at all. -/
structure Bounded (c : Cpu δ ρ) : Prop where
  machine : c.machine.Bounded
  halted_iff : c.machine.halted = true ↔ c.fault ≠ none

namespace Bounded

variable {c : Cpu δ ρ}

theorem fault_eq_none (hc : c.Bounded) (hrun : c.machine.halted = false) : c.fault = none := by
  cases hfault : c.fault with
  | none => rfl
  | some f =>
    have hhalted := hc.halted_iff.2 (by simp [hfault])
    rw [hrun] at hhalted
    cases hhalted

/-- What is no part of the machine may change. -/
theorem withDevice (hc : c.Bounded) (device : δ) : (devicePart.put c device).Bounded := ⟨hc.machine, hc.halted_iff⟩

theorem setDelayTimer (hc : c.Bounded) (value : Int) : (c.setDelayTimer value).Bounded where
  machine := hc.machine.withDelay (show 0 ≤ value % 256 by omega) (show value % 256 ≤ 0xFF by omega)
  halted_iff := hc.halted_iff

theorem setSoundTimer (hc : c.Bounded) (value : Int) : (c.setSoundTimer value).Bounded where
  machine := hc.machine.withSound (show 0 ≤ value % 256 by omega) (show value % 256 ≤ 0xFF by omega)
  halted_iff := hc.halted_iff

theorem tickTimers (hc : c.Bounded) : c.tickTimers.Bounded := by
  have hdelay : (if 0 < c.machine.delayTimer then c.setDelayTimer (c.machine.delayTimer - 1) else c).Bounded := by
    split
    · exact hc.setDelayTimer _
    · exact hc
  have hsound (d : Cpu δ ρ) (hd : d.Bounded) :
      (if 0 < d.machine.soundTimer then d.setSoundTimer (d.machine.soundTimer - 1) else d).Bounded := by
    split
    · exact hd.setSoundTimer _
    · exact hd
  exact hsound _ hdelay

theorem keep (hc : c.Bounded) (e : TraceEntry) : (c.keep e).Bounded where
  machine := by rw [Cpu.machine, rig_keep]; exact hc.machine
  halted_iff := by rw [Cpu.machine, rig_keep, fault_keep]; exact hc.halted_iff

/-- A fault is shown by the processor that it halts. -/
theorem stoppedBy (hc : c.Bounded) (cause : FaultCause) : (c.stoppedBy cause).Bounded where
  machine := by rw [Cpu.machine, rig_stoppedBy]; exact hc.machine.halted
  halted_iff := by simp [Cpu.machine, rig_stoppedBy, fault_stoppedBy]

end Bounded

/-! ## Starting -/

theorem bounded_of_create {device : δ} {random : ρ} {maxCycles : Int} {traceLength : Option Int} {c : Cpu δ ρ}
    (h : create device random maxCycles traceLength = .ok c) : c.Bounded := by
  unfold create at h
  cases hlimit : traceLimit traceLength with
  | error m => simp [hlimit, Except.map] at h
  | ok limit =>
    obtain rfl : _ = c := by simpa [hlimit, Except.map] using h
    exact ⟨Machine.bounded_of_start Machine.start_nil, by simp [machine, Machine.halted_of_start Machine.start_nil]⟩

/-- A program is loaded or nothing happens. -/
theorem loadProgram_cases (rom : List UInt8) (c : Cpu δ ρ) :
    (∃ e, loadProgram rom c = .error e c) ∨
      ∃ machine, Machine.start rom = .ok machine ∧ loadProgram rom c =
        .ok () ({ c.withMachine machine with fault := none, trace := c.trace.cleared }.note
          (.programLoaded rom.length)) := by
  by_cases hhalted : c.machine.halted = true
  · exact .inl ⟨_, loadProgram_halted hhalted rom⟩
  · cases hstart : Machine.start rom with
    | error m => exact .inl ⟨.mishap m, by simp [loadProgram, hhalted, hstart]⟩
    | ok machine => exact .inr ⟨machine, rfl, by simp [loadProgram, hhalted, hstart]⟩

/-- A program has just been loaded. -/
theorem bounded_of_loadProgram {rom : List UInt8} {c d : Cpu δ ρ} (h : loadProgram rom c = .ok () d) :
    Machine.start rom = .ok d.machine ∧ d.Bounded := by
  rcases loadProgram_cases rom c with ⟨e, herror⟩ | ⟨machine, hstart, hload⟩
  · rw [herror] at h
    cases h
  · rw [hload] at h
    cases h
    refine ⟨hstart, Machine.bounded_of_start hstart, ?_⟩
    show machine.halted = true ↔ none ≠ none
    simp [Machine.halted_of_start hstart]

theorem keeps_loadProgram (rom : List UInt8) : Act.Keeps Bounded (loadProgram rom : Act (Cpu δ ρ) Unit) := by
  intro c hc
  rcases loadProgram_cases rom c with ⟨e, hload⟩ | ⟨machine, -, hload⟩
  · rwa [Act.after_of_error hload]
  · rw [Act.after_of_ok hload]
    exact (bounded_of_loadProgram hload).2

/-! ## Stepping -/

variable [Device δ] [RandomSource ρ]

/-- **A step keeps the bounds**, whether it completes, faults or gets lost outside. -/
theorem keeps_step : Act.Keeps Bounded (step : Act (Cpu δ ρ) TraceEntry) := by
  intro c hc
  by_cases hhalted : c.machine.halted = true
  · rw [Act.after_of_error (step_halted hhalted)]
    exact hc
  have hrun : c.machine.halted = false := by simpa using hhalted
  -- A running processor has no fault yet, and only the first of the three ways gives it one.
  have hnone := hc.fault_eq_none hrun
  rcases step_cases hc.machine.toSound hrun with ⟨cause, -, hstep⟩ |
      ⟨w, op, reply, rig, -, hword, -, hobstacle, -, hstep⟩ | ⟨w, op, mishap, rig, -, -, -, -, -, hstep⟩
  · rw [Act.after_of_error hstep]
    exact hc.stoppedBy cause
  · have hpc := Machine.le_of_word hword
    have hmachine : (c.executed w reply op rig).machine.Bounded :=
      (hc.machine.effect hpc w reply hobstacle).counted
    have hstill : (c.executed w reply op rig).machine.halted = false :=
      (Machine.cycles_halted_effect c.machine w reply op).2.trans hrun
    have hexecuted : (c.executed w reply op rig).Bounded := by
      refine ⟨hmachine, ?_⟩
      rw [hstill, show (c.executed w reply op rig).fault = c.ready.fault from rfl, fault_ready, hnone]
      simp
    rw [Act.after_of_ok hstep]
    exact hexecuted.keep _
  · have hstill : (c.strayed op rig).machine.halted = false := (Machine.halted_begun c.machine op).trans hrun
    rw [Act.after_of_error hstep]
    refine ⟨hc.machine.begun op, ?_⟩
    rw [hstill, show (c.strayed op rig).fault = c.ready.fault from rfl, fault_ready, hnone]
    simp

theorem keeps_steps (n : Nat) : Act.Keeps Bounded (steps n : Act (Cpu δ ρ) Unit) := by
  induction n with
  | zero => exact Act.keeps_pure ()
  | succ n ih => exact keeps_step.bind fun _ => ih

theorem keeps_run (cycles : Option Int) : Act.Keeps Bounded (run cycles : Act (Cpu δ ρ) (Array TraceEntry)) := by
  refine Act.keeps_get.bind fun c => ?_
  refine (keeps_steps _).bind fun _ => ?_
  exact Act.keeps_get.bind fun c => Act.keeps_pure _

end Chip8.Cpu
