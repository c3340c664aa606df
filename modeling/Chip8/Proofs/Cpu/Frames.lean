import Chip8.Proofs.Cpu.Kept
import Chip8.Proofs.Machine.SoundApart

/-!
# Frames of a processor

A frame is a batch of instructions and then one tick of the timers. A running processor with a valid machine, on a
display of a fixed size and with random numbers to be had for ever, gets through a batch or faults on the way, and in
the second case some instructions of the batch, fewer than all, have completed. Main statement: `frame_able`.
-/

namespace Chip8

/-- A property of random sources under which there is always another number. -/
def RandomSource.Endless {ρ : Type} [RandomSource ρ] (Q : ρ → Prop) : Prop :=
  ∀ r, Q r → ∃ n r', RandomSource.next r = .ok (n, r') ∧ Q r'

/-- Numbers given in advance never end, if there is one. -/
theorem Cycle.endless : RandomSource.Endless fun c : Cycle => c.numbers ≠ #[] := by
  intro c hc
  cases hcurrent : c.current? with
  | some n => exact ⟨n, { c with position := c.position + 1 }, by simp [RandomSource.next, next, hcurrent], hc⟩
  | none =>
    have hnext : c.next = .error .zeroModulus := by simp [next, hcurrent]
    exact absurd (c.next_eq_error_iff.1 hnext) hc

namespace Machine

/-- The machine after one tick of its timers. -/
def ticked (m : Machine) : Machine :=
  { m with
    delayTimer := if 0 < m.delayTimer then (m.delayTimer - 1) % 256 else m.delayTimer
    soundTimer := if 0 < m.soundTimer then (m.soundTimer - 1) % 256 else m.soundTimer }

theorem SoundApart.ticked {m : Machine} (hm : m.SoundApart) : m.ticked.SoundApart := by
  have hdelay : 0 ≤ m.delayTimer := hm.delay_nonneg
  have hdelayle : m.delayTimer ≤ 0xFF := hm.delay_le
  have hsound : 0 ≤ m.soundTimer := hm.sound_nonneg
  have hsoundle : m.soundTimer ≤ 0xFF := hm.sound_le
  have hcount (t : Int) (h : 0 ≤ t) (hle : t ≤ 0xFF) :
      0 ≤ (if 0 < t then (t - 1) % 256 else t) ∧ (if 0 < t then (t - 1) % 256 else t) ≤ 0xFF := by
    split <;> omega
  have hwith := hm.withDelay (hcount _ hdelay hdelayle).1 (hcount _ hdelay hdelayle).2
  exact hwith.withSound (hcount _ hsound hsoundle).1 (hcount _ hsound hsoundle).2

/-- A word is fetched from memory, so a machine that fetches one has its program counter in range. -/
theorem SoundApart.sound_of_word {m : Machine} {w : UInt16} (hm : m.SoundApart) (hword : m.word? = some w) :
    m.Sound := by
  obtain ⟨hpc, hle⟩ := range_of_word hword
  exact hm.sound hpc (Int.le_trans hle (by decide))

end Machine

/-- A number is drawn from such a source, and another one can be. -/
theorem Rig.keeps_draw_endless {δ ρ : Type} [RandomSource ρ] {Q : ρ → Prop} (hrandom : RandomSource.Endless Q) :
    Act.Keeps (fun r : Rig δ ρ => Q r.random) draw := by
  intro r hr
  obtain ⟨n, random, hnext, hkept⟩ := hrandom r.random hr
  simpa only [Act.after, draw, hnext] using hkept

namespace Cpu

variable {δ ρ : Type} {P : δ → Prop} {Q : ρ → Prop} {c d : Cpu δ ρ}

/-! ## Processors that can go on -/

/-- A processor that runs and whose next step completes or faults. -/
structure Able (P : δ → Prop) (Q : ρ → Prop) (c : Cpu δ ρ) : Prop where
  machine : c.machine.SoundApart
  running : c.machine.halted = false
  device : P c.device
  random : Q c.rig.random

namespace Able

theorem note (hc : c.Able P Q) (n : Note) : (c.note n).Able P Q := ⟨hc.machine, hc.running, hc.device, hc.random⟩

theorem keep (hc : c.Able P Q) (e : TraceEntry) : (c.keep e).Able P Q where
  machine := by rw [Cpu.machine, rig_keep]; exact hc.machine
  running := by rw [Cpu.machine, rig_keep]; exact hc.running
  device := by rw [Cpu.device, rig_keep]; exact hc.device
  random := by rw [rig_keep]; exact hc.random

end Able

theorem tickTimers_eq (c : Cpu δ ρ) : c.tickTimers = c.withMachine c.machine.ticked := by
  have hdelay : (if 0 < c.machine.delayTimer then c.setDelayTimer (c.machine.delayTimer - 1) else c) =
      c.withMachine { c.machine with
        delayTimer :=
          if 0 < c.machine.delayTimer then (c.machine.delayTimer - 1) % 256 else c.machine.delayTimer } := by
    split <;> rfl
  have hsound (d : Cpu δ ρ) :
      (if 0 < d.machine.soundTimer then d.setSoundTimer (d.machine.soundTimer - 1) else d) =
        d.withMachine { d.machine with
          soundTimer :=
            if 0 < d.machine.soundTimer then (d.machine.soundTimer - 1) % 256 else d.machine.soundTimer } := by
    split <;> rfl
  simp only [tickTimers, hdelay, hsound]
  rfl

theorem Able.tickTimers (hc : c.Able P Q) : c.tickTimers.Able P Q := by
  rw [tickTimers_eq]
  exact ⟨hc.machine.ticked, hc.running, hc.device, hc.random⟩

variable [Device δ] [RandomSource ρ]

/-- A step of `c` faults with `f` and leaves `d`: nothing is changed but that the machine is halted and has a fault. -/
structure FaultsTo (c : Cpu δ ρ) (f : Fault) (d : Cpu δ ρ) : Prop where
  step : step c = .error (.fault f) d
  rig : d.rig = { c.rig with machine := { c.machine with halted := true } }
  fault : d.fault = some f

/-- A machine that has lost its way faults where it is. So either the next step faults, or the machine is sound and its
next operation meets no obstacle. -/
theorem fault_or_sound (hm : c.machine.SoundApart) (hrun : c.machine.halted = false) :
    (∃ cause, step c = .error (.fault (c.located cause)) (c.stoppedBy cause)) ∨
    (c.machine.Sound ∧ ∃ w op, c.machine.word? = some w ∧ Op.ofWord? w = some op ∧
      c.machine.obstacle? w op = none) := by
  cases hword : c.machine.word? with
  | none => exact .inl ⟨_, step_of_none hrun hword⟩
  | some w =>
    have hsound := hm.sound_of_word hword
    cases htrouble : c.machine.trouble? with
    | some cause => exact .inl ⟨cause, step_of_trouble hsound hrun htrouble⟩
    | none =>
      obtain ⟨w', op, hword', hop, hobstacle⟩ := Machine.trouble?_eq_none htrouble
      exact .inr ⟨hsound, w', op, hword ▸ hword', hop, hobstacle⟩

/-- The three ways of a step, on a machine that may have lost its way. -/
theorem step_cases_apart (hm : c.machine.SoundApart) (hrun : c.machine.halted = false) :
    (∃ cause, step c = .error (.fault (c.located cause)) (c.stoppedBy cause)) ∨
    (∃ w op reply rig, c.machine.obstacle? w op = none ∧ Rig.consult w op c.rig = .ok reply rig ∧
      step c = (c.executed w reply op rig).complete c.progress) ∨
    ∃ w op mishap rig, Rig.consult w op c.rig = .error (.mishap mishap) rig ∧
      step c = .error (.mishap mishap) (c.strayed op rig) := by
  rcases fault_or_sound hm hrun with hfault | ⟨hsound, w, op, hword, hop, hobstacle⟩
  · exact .inl hfault
  · cases hconsult : Rig.consult w op c.rig with
    | ok reply rig =>
      have hstep := step_of_reply hsound hrun hword hop hobstacle hconsult
      exact .inr (.inl ⟨w, op, reply, rig, hobstacle, hconsult, hstep⟩)
    | error e rig =>
      obtain ⟨mishap, rfl⟩ := Rig.mishapsOnly_consult w op c.rig e rig hconsult
      exact .inr (.inr ⟨w, op, mishap, rig, hconsult, step_of_lost hsound hrun hword hop hobstacle hconsult⟩)

/-- A step leaves a machine sound apart, however it ends. -/
theorem soundApart_step (hm : c.machine.SoundApart) : (step.after c).machine.SoundApart := by
  cases hrun : c.machine.halted with
  | true => rwa [Act.after_of_error (step_halted hrun)]
  | false =>
    rcases step_cases_apart hm hrun with ⟨cause, hstep⟩ | ⟨w, op, reply, rig, hobstacle, -, hstep⟩ |
        ⟨w, op, mishap, rig, -, hstep⟩
    · rw [Act.after_of_error hstep, machine, rig_stoppedBy]
      exact hm.halted
    · rw [Act.after_of_ok hstep, machine, rig_keep]
      exact (hm.effect w reply hobstacle).counted
    · rw [Act.after_of_error hstep]
      exact hm.begun op

/-- **A processor that can go on** completes its next step, and can go on, or faults. -/
theorem step_able {width height : Int} (hsized : Device.Sized P width height) (hrandom : RandomSource.Endless Q)
    (hc : c.Able P Q) :
    (∃ e d, step c = .ok e d ∧ d.Able P Q ∧ d.machine.cycles = c.machine.cycles + 1) ∨ ∃ f d, c.FaultsTo f d := by
  rcases fault_or_sound hc.machine hc.running with ⟨cause, hstep⟩ | ⟨hm, w, op, hword, hop, hobstacle⟩
  · exact .inr ⟨_, _, hstep, rig_stoppedBy c cause, fault_stoppedBy c cause⟩
  · obtain ⟨n, random, hnext, -⟩ := hrandom c.rig.random hc.random
    obtain ⟨reply, rig, hconsult, hdevice⟩ := Rig.consult_ok hsized hc.device w op fun _ => ⟨(n, random), hnext⟩
    obtain ⟨hcycles, hhalted⟩ := Machine.cycles_halted_effect c.machine w reply op
    have hstep := step_of_reply hm hc.running hword hop hobstacle hconsult
    have hsource := (Rig.kept_random Q).step (Rig.keeps_draw_endless hrandom) c hc.random
    simp only [Act.after_of_ok hstep, rig_keep] at hsource
    have hexecuted : (c.executed w reply op rig).Able P Q :=
      ⟨(hc.machine.effect w reply hobstacle).counted, hhalted.trans hc.running, hdevice, hsource⟩
    refine .inl ⟨_, _, hstep, hexecuted.keep _, ?_⟩
    rw [machine, rig_keep]
    exact congrArg (· + 1) hcycles

/-- A batch completes, or some of its instructions do and the next one faults. -/
theorem steps_able {width height : Int} (hsized : Device.Sized P width height) (hrandom : RandomSource.Endless Q)
    (n : Nat) (hc : c.Able P Q) :
    (∃ d, steps n c = .ok () d ∧ d.Able P Q ∧ d.machine.cycles = c.machine.cycles + n) ∨
      ∃ j < n, ∃ d f d', steps j c = .ok () d ∧ d.machine.cycles = c.machine.cycles + j ∧ d.FaultsTo f d' ∧
        steps n c = .error (.fault f) d' := by
  induction n generalizing c with
  | zero => exact .inl ⟨c, rfl, hc, by simp⟩
  | succ n ih =>
    rcases step_able hsized hrandom hc with ⟨e, d, hstep, hd, hcycles⟩ | ⟨f, d, hfaults⟩
    · rcases ih hd with ⟨d', hsteps, hd', hcycles'⟩ | ⟨j, hj, d', f, d'', hsteps, hcycles', hfaults, hfailed⟩
      · refine .inl ⟨d', by rw [steps, Act.bind_run, hstep, onward_ok, hsteps], hd', ?_⟩
        push_cast
        omega
      · refine .inr ⟨j + 1, by omega, d', f, d'', ?_, ?_, hfaults, ?_⟩
        · rw [steps, Act.bind_run, hstep, onward_ok, hsteps]
        · push_cast
          omega
        · rw [steps, Act.bind_run, hstep, onward_ok, hfailed]
    · refine .inr ⟨0, by omega, c, f, d, rfl, by simp, hfaults, ?_⟩
      rw [steps, Act.bind_run, hfaults.step, onward_error]

/-! ## Frames -/

/-- A batch of instructions, and one tick of the timers after it. -/
def frame (cycles : Nat) : Act (Cpu δ ρ) Unit := do
  steps cycles
  modify tickTimers

/-- Frames one after the other, up to the first that fails. -/
def frames (cycles : Nat) : Nat → Act (Cpu δ ρ) Unit
  | 0 => pure ()
  | n + 1 => do
    frames cycles n
    frame cycles

theorem frame_of_ok {n : Nat} (h : steps n c = .ok () d) : frame n c = .ok () d.tickTimers := by
  rw [frame, Act.bind_run, h, onward_ok, Act.modify_run]

theorem frame_of_error {n : Nat} {e : Failure} (h : steps n c = .error e d) : frame n c = .error e d := by
  rw [frame, Act.bind_run, h, onward_error]

theorem frames_succ {cycles n : Nat} (h : frames cycles n c = .ok () d) : frames cycles (n + 1) c = frame cycles d := by
  rw [frames, Act.bind_run, h, onward_ok]

/-- **A frame** completes with one tick at its end, or it is cut short by a fault and the timers do not tick. -/
theorem frame_able {width height : Int} (hsized : Device.Sized P width height) (hrandom : RandomSource.Endless Q)
    (n : Nat) (hc : c.Able P Q) :
    (∃ d, frame n c = .ok () d ∧ d.Able P Q ∧ d.machine.cycles = c.machine.cycles + n) ∨
      ∃ j < n, ∃ d f d', steps j c = .ok () d ∧ d.machine.cycles = c.machine.cycles + j ∧ d.FaultsTo f d' ∧
        frame n c = .error (.fault f) d' := by
  rcases steps_able hsized hrandom n hc with ⟨d, hsteps, hd, hcycles⟩ | ⟨j, hj, d, f, d', hd, hcycles, hfaults, hfailed⟩
  · refine .inl ⟨d.tickTimers, frame_of_ok hsteps, hd.tickTimers, ?_⟩
    rw [tickTimers_eq]
    exact hcycles
  · exact .inr ⟨j, hj, d, f, d', hd, hcycles, hfaults, frame_of_error hfailed⟩

end Cpu

end Chip8
