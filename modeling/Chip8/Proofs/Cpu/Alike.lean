import Chip8.Cpu.Basic
import Chip8.Proofs.Machine.Bounded
import Chip8.Proofs.Machine.CallStack
import Chip8.Proofs.Rig.Likeness

/-!
# Processors that are alike

Two processors whose machines differ at most in stack entries not in use answer alike to whatever is done to them:
every step ends in the same trace entry or the same failure. So it makes no difference that a return does not clear the
entry it has read. Main statement: `Alike.play`.
-/

namespace Chip8

/-- What is done to a processor from outside. Keys pressed and released come as another device. -/
inductive Move (δ ρ : Type) where
  | load (rom : List UInt8)
  | step
  | run (cycles : Option Int)
  | setDelay (value : Int)
  | setSound (value : Int)
  | tick
  | outside (device : δ) (random : ρ)

namespace Cpu

open Act

variable {δ ρ : Type} {c d : Cpu δ ρ}

/-- Processors that differ at most in stack entries not in use. -/
structure Alike (c d : Cpu δ ρ) : Prop where
  rig : Rig.Beside Machine.Alike c.rig d.rig
  fault : d.fault = c.fault
  trace : d.trace = c.trace
  maxCycles : d.maxCycles = c.maxCycles
  journal : d.journal = c.journal

namespace Alike

/-! ## What they have in common -/

theorem machine (h : c.Alike d) : c.machine.Alike d.machine := h.rig.machine

theorem halted_eq (h : c.Alike d) : d.machine.halted = c.machine.halted :=
  h.machine.agree (f := fun m => m.halted) fun _ _ => rfl

theorem cycles_eq (h : c.Alike d) : d.machine.cycles = c.machine.cycles :=
  h.machine.agree (f := fun m => m.cycles) fun _ _ => rfl

theorem snapshot_eq (h : c.Alike d) : d.machine.snapshot = c.machine.snapshot := by
  have hlive := h.machine.live_eq
  obtain ⟨stack, hd, -⟩ := h.machine
  simp only [Machine.snapshot, hlive]
  rw [hd]

theorem snapshot?_eq (h : c.Alike d) : d.snapshot? = c.snapshot? := by
  rw [snapshot?, snapshot?, h.trace, h.snapshot_eq]

theorem entry_eq (h : c.Alike d) (p : Progress) (error : Option String) : d.entry p error = c.entry p error := by
  rw [entry, entry, h.cycles_eq, h.snapshot_eq]

/-! ## Changes from which they stay alike -/

theorem withMachine (h : c.Alike d) {m n : Machine} (hmachine : m.Alike n) :
    (c.withMachine m).Alike (d.withMachine n) :=
  ⟨⟨hmachine, h.rig.device, h.rig.random⟩, h.fault, h.trace, h.maxCycles, h.journal⟩

theorem withRig (h : c.Alike d) {r s : Rig δ ρ} (hrig : Rig.Beside Machine.Alike r s) :
    Alike { c with rig := r } { d with rig := s } :=
  ⟨hrig, h.fault, h.trace, h.maxCycles, h.journal⟩

theorem note (h : c.Alike d) (n : Note) : (c.note n).Alike (d.note n) :=
  ⟨h.rig, h.fault, h.trace, h.maxCycles, congrArg (·.push n) h.journal⟩

theorem keep (h : c.Alike d) (e : TraceEntry) : (c.keep e).Alike (d.keep e) := by
  unfold Cpu.keep
  rw [h.trace]
  split
  · exact ⟨h.rig, h.fault, rfl, h.maxCycles, h.journal⟩
  · exact h

theorem halt (h : c.Alike d) (f : Fault) : (c.halt f).Alike (d.halt f) := by
  have hmachine : Machine.Alike { c.machine with halted := true } { d.machine with halted := true } :=
    h.machine.map (f := fun m => { m with halted := true }) (fun _ _ => rfl) (fun _ => rfl) fun _ => rfl
  have hhalted := h.withMachine hmachine
  have hfault : Alike { c.withMachine { c.machine with halted := true } with fault := some f }
      { d.withMachine { d.machine with halted := true } with fault := some f } :=
    ⟨hhalted.rig, rfl, hhalted.trace, hhalted.maxCycles, hhalted.journal⟩
  exact hfault.note _

theorem setDelayTimer (h : c.Alike d) (value : Int) : (c.setDelayTimer value).Alike (d.setDelayTimer value) :=
  h.withMachine (Machine.likeness_alike.withDelay _ h.machine)

theorem setSoundTimer (h : c.Alike d) (value : Int) : (c.setSoundTimer value).Alike (d.setSoundTimer value) :=
  h.withMachine (Machine.likeness_alike.withSound _ h.machine)

theorem delay_eq (h : c.Alike d) : d.machine.delayTimer = c.machine.delayTimer :=
  h.machine.agree (f := fun m => m.delayTimer) fun _ _ => rfl

theorem sound_eq (h : c.Alike d) : d.machine.soundTimer = c.machine.soundTimer :=
  h.machine.agree (f := fun m => m.soundTimer) fun _ _ => rfl

theorem tickTimers (h : c.Alike d) : c.tickTimers.Alike d.tickTimers := by
  have hdelay : Alike (if 0 < c.machine.delayTimer then c.setDelayTimer (c.machine.delayTimer - 1) else c)
      (if 0 < d.machine.delayTimer then d.setDelayTimer (d.machine.delayTimer - 1) else d) := by
    rw [h.delay_eq]
    split
    · exact h.setDelayTimer _
    · exact h
  have hsound {c d : Cpu δ ρ} (h : c.Alike d) :
      Alike (if 0 < c.machine.soundTimer then c.setSoundTimer (c.machine.soundTimer - 1) else c)
        (if 0 < d.machine.soundTimer then d.setSoundTimer (d.machine.soundTimer - 1) else d) := by
    rw [h.sound_eq]
    split
    · exact h.setSoundTimer _
    · exact h
  exact hsound hdelay

/-! ## Ending a step -/

theorem complete (h : c.Alike d) (p : Progress) : Same Alike (c.complete p) (d.complete p) := by
  simp only [Cpu.complete, h.entry_eq]
  exact .ok _ (h.keep _)

theorem abort (h : c.Alike d) (p : Progress) (e : Failure) : Same Alike (c.abort p e) (d.abort p e) := by
  cases e with
  | fault f =>
    simp only [Cpu.abort, (h.halt _).entry_eq]
    exact .error _ ((h.halt _).keep _)
  | halted f => exact .error _ h
  | mishap m => exact .error _ h

end Alike

/-! ## Operations -/

theorem respects_loadProgram (rom : List UInt8) : Respects Alike (loadProgram rom : Act (Cpu δ ρ) Unit) := by
  intro c d h
  by_cases hhalted : c.machine.halted = true
  · rw [loadProgram_halted hhalted, loadProgram_halted (h.halted_eq.trans hhalted), h.fault]
    exact .error _ h
  · have hhalted' : ¬ d.machine.halted = true := fun hd => hhalted (h.halted_eq.symm.trans hd)
    cases hstart : Machine.start rom with
    | error m =>
      simp only [loadProgram, hhalted, hhalted', hstart]
      exact .error _ h
    | ok machine =>
      have hstacked : machine.Stacked := (Machine.bounded_of_start hstart).toSound.stacked
      have hfresh := h.withMachine (Machine.Alike.refl hstacked)
      have hloaded : Alike { c.withMachine machine with fault := none, trace := c.trace.cleared }
          { d.withMachine machine with fault := none, trace := d.trace.cleared } :=
        ⟨hfresh.rig, rfl, congrArg Trace.cleared h.trace, hfresh.maxCycles, hfresh.journal⟩
      simp only [loadProgram, hhalted, hhalted', hstart]
      exact .ok () (hloaded.note _)

variable [Device δ] [RandomSource ρ]

theorem Alike.executeDecoded (h : c.Alike d) (p : Progress) (decoded : Decoded) :
    Same Alike (c.executeDecoded p decoded) (d.executeDecoded p decoded) := by
  have hnoted := h.note (.executing p.pc decoded)
  have hexecute : Respects (Rig.Beside Machine.Alike)
      (Rig.execute decoded.instruction.op decoded.args : Act (Rig δ ρ) Unit) :=
    Rig.Beside.execute Machine.likeness_alike Machine.respects_call Machine.respects_ret
      (fun _ => Machine.respects_readDelay) decoded.args
  rcases (hexecute _ _ hnoted.rig).cases with ⟨_, r, s, hr, hs, hrig⟩ | ⟨e, r, s, hr, hs, hrig⟩
  · simp only [Cpu.executeDecoded, hr, hs]
    exact (hnoted.withRig hrig).complete _
  · simp only [Cpu.executeDecoded, hr, hs]
    exact (hnoted.withRig hrig).abort _ e

theorem respects_step : Respects Alike (step : Act (Cpu δ ρ) TraceEntry) := by
  intro c d h
  by_cases hhalted : c.machine.halted = true
  · rw [step_halted hhalted, step_halted (h.halted_eq.trans hhalted), h.fault]
    exact .error _ h
  · have hhalted' : ¬ d.machine.halted = true := fun hd => hhalted (h.halted_eq.symm.trans hd)
    have hpc := Machine.likeness_alike.pc h.machine
    have hbefore := h.snapshot?_eq
    rcases (Machine.likeness_alike.fetch _ _ h.machine).cases with ⟨word, m, n, hm, hn, hmn⟩ | ⟨e, m, n, hm, hn, hmn⟩
    · simp only [step, hhalted, hhalted', hm, hn, hpc, hbefore]
      cases Decoder.standard.decode word.toNat with
      | error e => exact (h.withMachine hmn).abort _ e
      | ok decoded => exact (h.withMachine hmn).executeDecoded _ decoded
    · simp only [step, hhalted, hhalted', hm, hn, hpc, hbefore]
      exact (h.withMachine hmn).abort _ e

theorem respects_steps (n : Nat) : Respects Alike (steps n : Act (Cpu δ ρ) Unit) := by
  induction n with
  | zero => exact respects_pure ()
  | succ n ih => exact respects_step.bind fun _ => ih

theorem respects_run (cycles : Option Int) : Respects Alike (run cycles : Act (Cpu δ ρ) (Array TraceEntry)) := by
  refine respects_get_bind fun c d h => ?_
  rw [h.maxCycles]
  refine (respects_steps _).bind (fun _ => ?_) c d h
  refine respects_get_bind fun c d h => ?_
  rw [h.trace]
  exact .ok _ h

end Cpu

/-! ## Moves -/

namespace Move

open Act

variable {δ ρ : Type} [Device δ] [RandomSource ρ]

/-- A move, with the trace entries that it answers. -/
def act : Move δ ρ → Act (Cpu δ ρ) (Array TraceEntry)
  | .load rom => do
    Cpu.loadProgram rom
    return #[]
  | .step => do return #[← Cpu.step]
  | .run cycles => Cpu.run cycles
  | .setDelay value => do
    modify fun c => c.setDelayTimer value
    return #[]
  | .setSound value => do
    modify fun c => c.setSoundTimer value
    return #[]
  | .tick => do
    modify Cpu.tickTimers
    return #[]
  | .outside device random => do
    modify fun c => { c with rig := { c.rig with device, random } }
    return #[]

theorem respects_act (move : Move δ ρ) : Respects Cpu.Alike move.act := by
  cases move with
  | load rom => exact (Cpu.respects_loadProgram rom).bind fun _ => respects_pure _
  | step => exact Cpu.respects_step.bind fun e => respects_pure _
  | run cycles => exact Cpu.respects_run cycles
  | setDelay value => exact (respects_modify fun c d h => h.setDelayTimer value).bind fun _ => respects_pure _
  | setSound value => exact (respects_modify fun c d h => h.setSoundTimer value).bind fun _ => respects_pure _
  | tick => exact (respects_modify fun c d h => h.tickTimers).bind fun _ => respects_pure _
  | outside device random =>
    refine (respects_modify fun c d h => ?_).bind fun _ => respects_pure _
    exact h.withRig ⟨h.machine, rfl, rfl⟩

end Move

namespace Cpu

variable {δ ρ : Type} [Device δ] [RandomSource ρ]

/-- The answers to a row of moves, and the processor after it. A move that fails does not end the row. -/
def play (c : Cpu δ ρ) : List (Move δ ρ) → List (Except Failure (Array TraceEntry)) × Cpu δ ρ
  | [] => ([], c)
  | move :: rest =>
    let after := (move.act.after c).play rest
    (move.act.answer c :: after.1, after.2)

/-- **Entries not in use make no difference.** Processors that are alike give the same answers to any moves, and are
alike afterwards. -/
theorem Alike.play {c d : Cpu δ ρ} (h : c.Alike d) (moves : List (Move δ ρ)) :
    (d.play moves).1 = (c.play moves).1 ∧ (c.play moves).2.Alike (d.play moves).2 := by
  induction moves generalizing c d with
  | nil => exact ⟨rfl, h⟩
  | cons move rest ih =>
    obtain ⟨hanswers, hend⟩ := ih (move.respects_act.after h)
    refine ⟨?_, hend⟩
    show move.act.answer d :: _ = move.act.answer c :: _
    rw [move.respects_act.answer h, hanswers]

end Cpu

end Chip8
