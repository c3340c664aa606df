import Chip8.Proofs.Cpu.Record
import Chip8.Proofs.Cpu.Untraced

/-!
# What a run comes to

A run of a program that has been loaded, with pixels to draw on and random numbers to be had for ever, completes or ends
in a fault, and nothing else. The processor is halted in the second case only, and then it has the fault to show for
it, and its trace the text. And how much the trace keeps has no part in it. Main statements: `run_loaded`
and `exists_ran`.
-/

namespace Chip8.Cpu

section

variable {δ ρ : Type}

/-- The end of a run: it completed, or there was a fault. -/
def ended (fault : Option Fault) (c : Cpu δ ρ) : EStateM.Result Failure (Cpu δ ρ) Unit :=
  match fault with
  | none => .ok () c
  | some f => .error (.fault f) c

/-- The processor shows how its run ended. -/
structure Ended (fault : Option Fault) (c : Cpu δ ρ) : Prop where
  halted : c.machine.halted = fault.isSome
  shown : c.fault = fault
  errors : c.summary.errors = (fault.map Fault.text).toList

/-! ## Loading -/

theorem ButTrace.loaded {p q : Int} {c d c' : Cpu δ ρ} {rom : List UInt8} (h : ButTrace p q c d)
    (hload : loadProgram rom c = .ok () c') : ∃ d', loadProgram rom d = .ok () d' ∧ ButTrace p q c' d' := by
  rcases (respects_loadProgram_butTrace rom c d h).cases with ⟨_, _, d', hc, hd, hsame⟩ | ⟨e, _, _, hc, -⟩
  · cases hload.symm.trans hc
    exact ⟨d', hd, hsame⟩
  · cases hload.symm.trans hc

theorem loadProgram_of_large {rom : List UInt8} {c : Cpu δ ρ} (hrun : c.machine.halted = false)
    (hlarge : maxProgramSize < rom.length) :
    loadProgram rom c = .error (.mishap (.romTooLarge rom.length)) c := by
  have hstart : Machine.start rom = .error (.romTooLarge rom.length) := if_neg (by omega)
  simp [loadProgram, hrun, hstart]

/-- Loading a program changes nothing that the processor was made with. -/
theorem made_of_loadProgram {rom : List UInt8} {c d : Cpu δ ρ} (h : loadProgram rom c = .ok () d) :
    d.device = c.device ∧ d.rig.random = c.rig.random ∧ d.maxCycles = c.maxCycles := by
  rcases loadProgram_cases rom c with ⟨e, herror⟩ | ⟨machine, -, hload⟩
  · cases herror.symm.trans h
  · cases hload.symm.trans h
    exact ⟨rfl, rfl, rfl⟩

theorem exists_loadProgram {rom : List UInt8} {c : Cpu δ ρ} (hrun : c.machine.halted = false)
    (hsize : rom.length ≤ maxProgramSize) : ∃ d, loadProgram rom c = .ok () d := by
  have hstart : Machine.start rom = .ok { memory := Machine.startMemory rom } := Machine.start_eq_ok_iff.2 ⟨hsize, rfl⟩
  simp [loadProgram, hrun, hstart]

end

variable {ρ : Type} [RandomSource ρ] {c : Cpu FrameBuffer ρ} {limit : Option Nat}

/-! ## Running -/

/-- There are strides that account for the trace, and the next one will find all it needs. -/
structure Accounted (limit : Option Nat) (c : Cpu FrameBuffer ρ) : Prop where
  recorded : ∃ ts, c.Recorded limit ts
  machine : c.machine.SoundApart
  width : 1 ≤ c.device.width
  height : 1 ≤ c.device.height

theorem keeps_accounted_step (hon : limit ≠ some 0) :
    Act.Keeps (Accounted limit) (step : Act (Cpu FrameBuffer ρ) TraceEntry) := by
  intro c hc
  obtain ⟨ts, hts⟩ := hc.recorded
  obtain ⟨hwidth, hheight⟩ := size_handled hc.width hc.height [.step]
  have hnext := recorded_stridesAfter hts hon hc.machine hc.width hc.height .step
  rw [show c.handled [.step] = step.after c from Handling.after_step c] at hwidth hheight
  rw [Handling.after_step] at hnext
  exact ⟨⟨_, hnext⟩, soundApart_step hc.machine, hwidth ▸ hc.width, hheight ▸ hc.height⟩

theorem keeps_accounted_steps (hon : limit ≠ some 0) (n : Nat) :
    Act.Keeps (Accounted limit) (steps n : Act (Cpu FrameBuffer ρ) Unit) := by
  induction n with
  | zero => exact Act.keeps_pure ()
  | succ n ih => exact (keeps_accounted_step hon).bind fun _ => ih

/-- **A run completes or faults**, and the processor shows which. -/
theorem run_loaded {Q : ρ → Prop} (hrandom : RandomSource.Endless Q) {rom : List UInt8} {c₀ : Cpu FrameBuffer ρ}
    (hload : loadProgram rom c₀ = .ok () c) (hon : c₀.trace.limit ≠ some 0) (hwidth : 1 ≤ c.device.width)
    (hheight : 1 ≤ c.device.height) (hsource : Q c.rig.random) (n : Nat) :
    ∃ fault d, steps n c = ended fault d ∧ d.Ended fault := by
  obtain ⟨hstart, hbounded⟩ := bounded_of_loadProgram hload
  have hrecorded := recorded_of_loadProgram hload rfl
  have hrun : c.machine.halted = false := Machine.halted_of_start hstart
  have hable : c.Able (fun f => f.width = c.device.width ∧ f.height = c.device.height) Q :=
    ⟨(Machine.bounded_of_start hstart).apart, hrun, ⟨rfl, rfl⟩, hsource⟩
  have haccounted := keeps_accounted_steps hon n c ⟨⟨[], hrecorded⟩, hable.machine, hwidth, hheight⟩
  rcases steps_able (FrameBuffer.sized hwidth hheight) hrandom n hable with
    ⟨d, hsteps, hd, -⟩ | ⟨j, -, e, f, d, -, -, hfaults, hsteps⟩
  · have hdone := keeps_steps n c hbounded
    rw [Act.after_of_ok hsteps] at haccounted hdone
    obtain ⟨ts, hts⟩ := haccounted.recorded
    rcases hts.errors hon with ⟨-, herrors⟩ | ⟨hhalted, -⟩
    · exact ⟨none, d, hsteps, hd.running, hdone.fault_eq_none hd.running, herrors⟩
    · exact absurd hhalted (by simp [hd.running])
  · rw [Act.after_of_error hsteps] at haccounted
    obtain ⟨ts, hts⟩ := haccounted.recorded
    have hhalted : d.machine.halted = true := congrArg (fun r => r.machine.halted) hfaults.rig
    rcases hts.errors hon with ⟨hrun, -⟩ | ⟨-, g, hg, herrors⟩
    · exact absurd hrun (by simp [hhalted])
    · obtain rfl : f = g := Option.some.inj (hfaults.fault.symm.trans hg)
      exact ⟨some f, d, hsteps, hhalted, hfaults.fault, herrors⟩

/-! ## From a new processor on -/

/-- A new processor was given a program and ran `n` instructions of it, to this end. -/
def Ran (new : Except Mishap (Cpu FrameBuffer ρ)) (rom : List UInt8) (n : Nat) (fault : Option Fault)
    (d : Cpu FrameBuffer ρ) : Prop :=
  ∃ c₀ c, new = .ok c₀ ∧ loadProgram rom c₀ = .ok () c ∧ steps n c = ended fault d

theorem run_of_completed {cycles : Option Int} {d : Cpu FrameBuffer ρ}
    (h : steps (cycles.getD c.maxCycles).toNat c = .ok () d) : run cycles c = .ok d.trace.entries d := by
  simp only [run, Act.bind_run, Act.get_run, onward_ok, h]
  rfl

theorem run_of_failed {cycles : Option Int} {d : Cpu FrameBuffer ρ} {e : Failure}
    (h : steps (cycles.getD c.maxCycles).toNat c = .error e d) : run cycles c = .error e d := by
  simp only [run, Act.bind_run, Act.get_run, onward_ok, onward_error, h]

theorem ButTrace.ended {p q : Int} {k : Nat} {fault : Option Fault} {d c' : Cpu FrameBuffer ρ} (h : ButTrace p q c d)
    (hsteps : steps k c = Cpu.ended fault c') : ∃ d', steps k d = Cpu.ended fault d' ∧ ButTrace p q c' d' := by
  rcases (respects_steps_butTrace k c d h).cases with ⟨_, _, d', hc, hd, hsame⟩ | ⟨e, _, d', hc, hd, hsame⟩
  · cases fault with
    | none =>
      cases hsteps.symm.trans hc
      exact ⟨d', hd, hsame⟩
    | some f => cases hsteps.symm.trans hc
  · cases fault with
    | none => cases hsteps.symm.trans hc
    | some f =>
      cases hsteps.symm.trans hc
      exact ⟨d', hd, hsame⟩

/-- **However much they keep in their traces**, new processors run a program to the same end. -/
theorem exists_ran {Q : ρ → Prop} (hrandom : RandomSource.Endless Q) {random : ρ} (hsource : Q random) {p q : Int}
    {length length' : Option Int} {c₀ d₀ : Cpu FrameBuffer ρ}
    (hcreated : create FrameBuffer.standard random p length = .ok c₀) (hon : c₀.trace.limit ≠ some 0)
    (hcreated' : create FrameBuffer.standard random q length' = .ok d₀) {rom : List UInt8}
    (hsize : rom.length ≤ maxProgramSize) (n : Nat) :
    ∃ fault c d, Ran (create FrameBuffer.standard random p length) rom n fault c ∧ c.Ended fault ∧
      Ran (create FrameBuffer.standard random q length') rom n fault d ∧ ButTrace p q c d := by
  have hsame := butTrace_of_create hcreated hcreated'
  obtain ⟨hrun, hpixels, hfresh⟩ : c₀.machine.halted = false ∧ c₀.device = FrameBuffer.standard ∧
      c₀.rig.random = random := by
    obtain ⟨limit, rfl⟩ := create_eq_ok hcreated
    exact ⟨rfl, rfl, rfl⟩
  obtain ⟨c, hload⟩ := exists_loadProgram hrun hsize
  obtain ⟨hdevice, hsame', -⟩ := made_of_loadProgram hload
  obtain ⟨d, hload', hloaded⟩ := hsame.loaded hload
  obtain ⟨fault, c', hsteps, hended⟩ := run_loaded hrandom hload hon (by rw [hdevice, hpixels]; decide)
    (by rw [hdevice, hpixels]; decide) (by rwa [hsame', hfresh]) n
  obtain ⟨d', hsteps', hlast⟩ := hloaded.ended hsteps
  exact ⟨fault, c', d', ⟨c₀, c, hcreated, hload, hsteps⟩, hended, ⟨d₀, d, hcreated', hload', hsteps'⟩, hlast⟩

end Chip8.Cpu
