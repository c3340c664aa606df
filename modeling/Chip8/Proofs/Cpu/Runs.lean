import Chip8.Proofs.Cpu.Bounded

/-!
# Runs of a processor

A run goes on by steps, and between two steps the world outside may change anything but the machine, and its timers as
well. What a program did in a run is the list of the machines just before each instruction that was executed; a step
that failed is not in it. Main statements: `keeps_runs`, the bounds of a run, and `runs_steps`, by which a batch of
instructions is a run.
-/

namespace Chip8.Cpu

variable {δ ρ : Type} [Device δ] [RandomSource ρ]

/-- The run has brought the first processor to the second one, and `ms` are the machines just before each of the
instructions executed on the way. -/
inductive Runs (c : Cpu δ ρ) : List Machine → Cpu δ ρ → Prop where
  | start : Runs c [] c
  | executed {ms : List Machine} {d d' : Cpu δ ρ} {e : TraceEntry} :
    Runs c ms d → step d = .ok e d' → Runs c (ms ++ [d.machine]) d'
  | failed {ms : List Machine} {d d' : Cpu δ ρ} {e : Failure} : Runs c ms d → step d = .error e d' → Runs c ms d'
  /-- The keys have changed, a timer has ticked or was set, the random source was replaced. -/
  | outside {ms : List Machine} {d d' : Cpu δ ρ} (delay sound : Int) :
    Runs c ms d → d'.machine = { d.machine with delayTimer := delay % 256, soundTimer := sound % 256 } →
      d'.fault = d.fault → Runs c ms d'

variable {c d : Cpu δ ρ} {ms : List Machine}

theorem keeps_runs (hc : c.Bounded) (h : Runs c ms d) : d.Bounded := by
  induction h with
  | start => exact hc
  | @executed ms d d' e _ hstep ih =>
    have hkeeps := keeps_step d ih
    rwa [Act.after_of_ok hstep] at hkeeps
  | @failed ms d d' e _ hstep ih =>
    have hkeeps := keeps_step d ih
    rwa [Act.after_of_error hstep] at hkeeps
  | @outside ms d d' delay sound _ hmachine hfault ih =>
    have hdelay := ih.machine.withDelay (show 0 ≤ delay % 256 by omega) (show delay % 256 ≤ 0xFF by omega)
    have hsound := hdelay.withSound (show 0 ≤ sound % 256 by omega) (show sound % 256 ≤ 0xFF by omega)
    refine ⟨?_, ?_⟩
    · rw [hmachine]
      exact hsound
    · rw [hmachine, hfault]
      exact ih.halted_iff

/-- A batch of instructions goes on with a run, whether all of them complete or one fails. -/
theorem runs_steps (n : Nat) (h : Runs c ms d) : ∃ more, Runs c (ms ++ more) ((steps n).after d) := by
  induction n generalizing ms d with
  | zero => exact ⟨[], by rwa [List.append_nil]⟩
  | succ n ih =>
    cases hstep : step d with
    | ok e d' =>
      obtain ⟨more, hmore⟩ := ih (h.executed hstep)
      refine ⟨d.machine :: more, ?_⟩
      have hafter : (steps (n + 1)).after d = (steps n).after d' := by
        simp only [Act.after, steps, Act.bind_run, hstep, onward_ok]
      rw [hafter, List.append_cons]
      exact hmore
    | error e d' =>
      refine ⟨[], ?_⟩
      have hrun : steps (n + 1) d = .error e d' := by rw [steps, Act.bind_run, hstep, onward_error]
      rw [List.append_nil, Act.after_of_error hrun]
      exact h.failed hstep

/-! ## One step of a run -/

/-- A step that completes has executed an operation that met no obstacle. -/
theorem executed_of_ok {d' : Cpu δ ρ} {e : TraceEntry} (hm : d.machine.Sound) (h : step d = .ok e d') :
    d.machine.halted = false ∧ ∃ w op reply, d.machine.word? = some w ∧ Op.ofWord? w = some op ∧
      d.machine.obstacle? w op = none ∧ d'.machine = (d.machine.effect w reply op).counted := by
  have hrun : d.machine.halted = false := by
    cases hhalted : d.machine.halted with
    | false => rfl
    | true =>
      rw [step_halted hhalted] at h
      cases h
  refine ⟨hrun, ?_⟩
  rcases step_cases hm hrun with ⟨cause, -, hstep⟩ | ⟨w, op, reply, rig, -, hword, hop, hobstacle, -, hstep⟩ |
      ⟨w, op, mishap, rig, -, -, -, -, -, hstep⟩
  · rw [hstep] at h
    cases h
  · rw [hstep, complete] at h
    cases h
    refine ⟨w, op, reply, hword, hop, hobstacle, ?_⟩
    rw [machine, rig_keep]
    exact machine_executed d w reply op rig
  · rw [hstep] at h
    cases h

/-- A step that fails has changed the flag register at most, and it may have halted the machine. -/
theorem machine_of_error {d' : Cpu δ ρ} {e : Failure} (hm : d.machine.Sound) (h : step d = .error e d') :
    ∃ op halted, d'.machine = { d.machine.begun op with halted } := by
  cases hhalted : d.machine.halted with
  | true =>
    rw [step_halted hhalted] at h
    cases h
    exact ⟨.clear, d.machine.halted, rfl⟩
  | false =>
    rcases step_cases hm hhalted with ⟨cause, -, hstep⟩ | ⟨w, op, reply, rig, -, -, -, -, -, hstep⟩ |
        ⟨w, op, mishap, rig, -, -, -, -, -, hstep⟩
    · rw [hstep] at h
      cases h
      refine ⟨.clear, true, ?_⟩
      rw [machine, rig_stoppedBy]
      rfl
    · rw [hstep] at h
      cases h
    · rw [hstep] at h
      cases h
      exact ⟨op, (d.machine.begun op).halted, rfl⟩

end Chip8.Cpu
