import Chip8.Proofs.Cpu.Frames
import Chip8.Proofs.Machine.Untimed
import Chip8.Proofs.Rig.Likeness

/-!
# Processors without their timers

`Cpu.untimed` is a processor with everything in it but the timers: those of the machine and of the snapshots in its
trace are set to zero, and what a host has written into the journal is left out. As long as the next instruction does
not read the delay timer, two processors that are the same but for their timers end their next step the same way. A
tick of the timers never tells them apart. Main statement: `respects_step`.
-/

namespace Chip8

open Act

/-! ## What is left out -/

/-- The snapshot with both timers at zero. -/
def Snapshot.untimed (s : Snapshot) : Snapshot := { s with delayTimer := 0, soundTimer := 0 }

/-- The entry with all timers at zero. -/
def TraceEntry.untimed (e : TraceEntry) : TraceEntry :=
  { e with passage := e.passage.map fun p => ⟨p.before.untimed, p.after.untimed⟩ }

/-- The trace with all timers at zero. -/
def Trace.untimed (t : Trace) : Trace := { t with entries := t.entries.map TraceEntry.untimed }

/-- The notes of the processor, without those of a host. -/
def Note.ofCpu (notes : Array Note) : Array Note := notes.filter fun n => n.reporter == .cpu

/-- The processor with all timers at zero, and with no notes but its own. -/
def Cpu.untimed {δ ρ : Type} (c : Cpu δ ρ) : Cpu δ ρ :=
  { c.withMachine c.machine.untimed with trace := c.trace.untimed, journal := Note.ofCpu c.journal }

theorem Trace.untimed_push (t : Trace) (e : TraceEntry) : (t.push e).untimed = t.untimed.push e.untimed := by
  cases hlimit : t.limit with
  | none => simp [push, untimed, hlimit]
  | some limit =>
    simp only [push, untimed, hlimit, lastEntries, ← Array.map_push, Array.size_map]
    split
    · rfl
    · simp only [Array.map_extract]

theorem Machine.ButTimers.snapshot_eq {m n : Machine} (h : m.ButTimers n) :
    n.snapshot.untimed = m.snapshot.untimed := h.agree (f := fun m => m.snapshot.untimed) fun _ => rfl

/-- The next instruction reads the delay timer. -/
def Machine.ReadsDelay (m : Machine) : Prop :=
  ∃ w m', fetch m = .ok w m' ∧ w.toNat / 0x1000 = 0xF ∧ w.toNat % 0x100 = 0x07

/-- Where an action ends, without its answer. -/
def unanswered {σ α : Type} : EStateM.Result Failure σ α → EStateM.Result Failure σ Unit
  | .ok _ s => .ok () s
  | .error e s => .error e s

namespace Cpu

variable {δ ρ : Type} {c d : Cpu δ ρ}

/-! ## The same but for the timers -/

/-- Processors that are the same but for the timers and for what a host has noted. -/
structure ButTimers (c d : Cpu δ ρ) : Prop where
  rig : Rig.Beside Machine.ButTimers c.rig d.rig
  fault : d.fault = c.fault
  trace : d.trace.untimed = c.trace.untimed
  maxCycles : d.maxCycles = c.maxCycles
  journal : Note.ofCpu d.journal = Note.ofCpu c.journal

theorem ButTimers.refl (c : Cpu δ ρ) : c.ButTimers c := ⟨⟨rfl, rfl, rfl⟩, rfl, rfl, rfl, rfl⟩

theorem ButTimers.untimed_eq (h : c.ButTimers d) : d.untimed = c.untimed := by
  have hmachine : d.machine.untimed = c.machine.untimed := h.rig.machine
  simp only [untimed, withMachine, hmachine, h.rig.device, h.rig.random, h.fault, h.trace, h.maxCycles, h.journal]

namespace ButTimers

theorem machine (h : c.ButTimers d) : c.machine.ButTimers d.machine := h.rig.machine

theorem halted_eq (h : c.ButTimers d) : d.machine.halted = c.machine.halted := h.machine.halted_eq

theorem isOn_eq (h : c.ButTimers d) : d.trace.isOn = c.trace.isOn := by
  show d.trace.untimed.isOn = c.trace.untimed.isOn
  rw [h.trace]

theorem withMachine (h : c.ButTimers d) {m n : Machine} (hmachine : m.ButTimers n) :
    (c.withMachine m).ButTimers (d.withMachine n) :=
  ⟨⟨hmachine, h.rig.device, h.rig.random⟩, h.fault, h.trace, h.maxCycles, h.journal⟩

theorem withRig (h : c.ButTimers d) {r s : Rig δ ρ} (hrig : Rig.Beside Machine.ButTimers r s) :
    ButTimers { c with rig := r } { d with rig := s } :=
  ⟨hrig, h.fault, h.trace, h.maxCycles, h.journal⟩

theorem note (h : c.ButTimers d) (n : Note) : (c.note n).ButTimers (d.note n) := by
  refine ⟨h.rig, h.fault, h.trace, h.maxCycles, ?_⟩
  have hjournal := h.journal
  simp only [Note.ofCpu] at hjournal
  simp only [Note.ofCpu, Cpu.note, Array.filter_push, hjournal]

/-- What a host notes makes no difference. -/
theorem noteHost (h : c.ButTimers d) {n : Note} (hn : n.reporter = .host) : c.ButTimers (d.note n) := by
  refine ⟨h.rig, h.fault, h.trace, h.maxCycles, Eq.trans ?_ h.journal⟩
  simp [Note.ofCpu, Cpu.note, hn]

/-- Nor does a tick of the timers. -/
theorem tickTimers (h : c.ButTimers d) : c.ButTimers d.tickTimers := by
  rw [tickTimers_eq]
  exact ⟨⟨h.machine, h.rig.device, h.rig.random⟩, h.fault, h.trace, h.maxCycles, h.journal⟩

theorem keep (h : c.ButTimers d) {e e' : TraceEntry} (he : e'.untimed = e.untimed) :
    (c.keep e).ButTimers (d.keep e') := by
  unfold Cpu.keep
  rw [h.isOn_eq]
  split
  · refine ⟨h.rig, h.fault, ?_, h.maxCycles, h.journal⟩
    show (d.trace.push e').untimed = (c.trace.push e).untimed
    rw [Trace.untimed_push, Trace.untimed_push, h.trace, he]
  · exact h

theorem halt (h : c.ButTimers d) (f : Fault) : (c.halt f).ButTimers (d.halt f) := by
  have hmachine : Machine.ButTimers { c.machine with halted := true } { d.machine with halted := true } :=
    h.machine.map (f := fun m => { m with halted := true }) fun _ => rfl
  have hhalted := h.withMachine hmachine
  have hfault : ButTimers { c.withMachine { c.machine with halted := true } with fault := some f }
      { d.withMachine { d.machine with halted := true } with fault := some f } :=
    ⟨hhalted.rig, rfl, hhalted.trace, hhalted.maxCycles, hhalted.journal⟩
  exact hfault.note _

/-! ## Ending a step -/

/-- Two steps know the same but for the timers in their snapshots. -/
structure Alongside (p q : Progress) : Prop where
  pc : q.pc = p.pc
  word : q.word = p.word
  decoded : q.decoded = p.decoded
  before : q.before.map Snapshot.untimed = p.before.map Snapshot.untimed

theorem before_eq (h : c.ButTimers d) : d.snapshot?.map Snapshot.untimed = c.snapshot?.map Snapshot.untimed := by
  unfold Cpu.snapshot?
  rw [h.isOn_eq]
  split
  · exact congrArg some h.machine.snapshot_eq
  · rfl

theorem entry_eq (h : c.ButTimers d) {p q : Progress} (hpq : Alongside p q) (error : Option String) :
    (d.entry q error).untimed = (c.entry p error).untimed := by
  have hcycles : d.machine.cycles = c.machine.cycles := h.machine.agree (f := fun m => m.cycles) fun _ => rfl
  have hafter := h.machine.snapshot_eq
  have hpassage (before : Option Snapshot) (c : Cpu δ ρ) :
      ((before.map fun before => (⟨before, c.machine.snapshot⟩ : Passage)).map fun p =>
        (⟨p.before.untimed, p.after.untimed⟩ : Passage)) =
      (before.map Snapshot.untimed).map fun before => ⟨before, c.machine.snapshot.untimed⟩ := by
    cases before <;> rfl
  simp only [TraceEntry.untimed, Cpu.entry, hpassage, hpq.before, hpq.pc, hpq.word, hpq.decoded, hcycles]
  rw [hafter]

theorem complete (h : c.ButTimers d) {p q : Progress} (hpq : Alongside p q) :
    Same ButTimers (unanswered (c.complete p)) (unanswered (d.complete q)) :=
  .ok () (h.keep (h.entry_eq hpq none))

theorem abort (h : c.ButTimers d) {p q : Progress} (hpq : Alongside p q) (e : Failure) :
    Same ButTimers (unanswered (c.abort p e)) (unanswered (d.abort q e)) := by
  cases e with
  | fault f =>
    simp only [Cpu.abort, hpq.pc, hpq.word]
    exact .error _ ((h.halt _).keep ((h.halt _).entry_eq hpq _))
  | halted f => exact .error _ h
  | mishap m => exact .error _ h

variable [Device δ] [RandomSource ρ]

theorem executeDecoded (h : c.ButTimers d) {p q : Progress} (hpq : Alongside p q) {decoded : Decoded}
    (hop : decoded.instruction.op ≠ .readDelay) :
    Same ButTimers (unanswered (c.executeDecoded p decoded)) (unanswered (d.executeDecoded q decoded)) := by
  have hnoted := h.note (.executing p.pc decoded)
  have hexecute : Respects (Rig.Beside Machine.ButTimers)
      (Rig.execute decoded.instruction.op decoded.args : Act (Rig δ ρ) Unit) :=
    Rig.Beside.execute Machine.likeness_butTimers Machine.ButTimers.respects_call Machine.ButTimers.respects_ret
      (fun hread => absurd hread hop) decoded.args
  have hpq' : Alongside { p with decoded := some decoded } { q with pc := p.pc, decoded := some decoded } :=
    ⟨rfl, hpq.word, rfl, hpq.before⟩
  rcases (hexecute _ _ hnoted.rig).cases with ⟨_, r, s, hr, hs, hrig⟩ | ⟨e, r, s, hr, hs, hrig⟩
  · simp only [Cpu.executeDecoded, hpq.pc, hr, hs]
    exact (hnoted.withRig hrig).complete hpq'
  · simp only [Cpu.executeDecoded, hpq.pc, hr, hs]
    exact (hnoted.withRig hrig).abort hpq' e

end ButTimers

/-! ## Steps -/

/-- What decodes to a reading of the delay timer has the digits of one. -/
theorem digits_of_readDelay {w : UInt16} {decoded : Decoded}
    (h : Decoder.standard.decode w.toNat = .ok decoded) (hop : decoded.instruction.op = .readDelay) :
    w.toNat / 0x1000 = 0xF ∧ w.toNat % 0x100 = 0x07 := by
  obtain ⟨hhas, -⟩ := Decoder.has_of_decode h
  rwa [hop] at hhas

variable [Device δ] [RandomSource ρ]

/-- **A step does not see the timers** unless it reads the delay timer. -/
theorem ButTimers.step (h : c.ButTimers d) (hread : ¬ c.machine.ReadsDelay) :
    Same ButTimers (unanswered (step c)) (unanswered (step d)) := by
  by_cases hhalted : c.machine.halted = true
  · rw [step_halted hhalted, step_halted (h.halted_eq.trans hhalted), h.fault]
    exact .error _ h
  · have hhalted' : ¬ d.machine.halted = true := fun hd => hhalted (h.halted_eq.symm.trans hd)
    have hpc := h.machine.pc_eq
    have halong (word : Option UInt16) : Alongside { pc := c.machine.pc, before := c.snapshot?, word }
        { pc := d.machine.pc, before := d.snapshot?, word } := ⟨hpc, rfl, rfl, h.before_eq⟩
    rcases (Machine.likeness_butTimers.fetch _ _ h.machine).cases with
      ⟨word, m, n, hm, hn, hmn⟩ | ⟨e, m, n, hm, hn, hmn⟩
    · simp only [Cpu.step, hhalted, hhalted', hm, hn]
      cases hdecode : Decoder.standard.decode word.toNat with
      | error e => exact (h.withMachine hmn).abort (halong _) e
      | ok decoded =>
        refine (h.withMachine hmn).executeDecoded (halong _) fun hop => hread ?_
        exact ⟨word, m, hm, digits_of_readDelay hdecode hop⟩
    · simp only [Cpu.step, hhalted, hhalted', hm, hn]
      exact (h.withMachine hmn).abort (halong _) e

theorem steps_succ (n : Nat) (c : Cpu δ ρ) : steps (n + 1) c = onward (unanswered (Cpu.step c)) fun _ => steps n := by
  rw [steps, Act.bind_run]
  cases Cpu.step c with
  | ok e d => rfl
  | error e d => rfl

theorem steps_add (m n : Nat) (c : Cpu δ ρ) : steps (m + n) c = onward (steps m c) fun _ => steps n := by
  induction m generalizing c with
  | zero => rw [Nat.zero_add, steps, Act.pure_run, onward_ok]
  | succ m ih =>
    rw [Nat.add_right_comm, steps_succ, steps_succ]
    cases Cpu.step c with
    | ok e d => exact ih d
    | error e d => rfl

/-- None of the next `n` instructions reads the delay timer. -/
def Unread (n : Nat) (c : Cpu δ ρ) : Prop := ∀ i < n, ∀ d, steps i c = .ok () d → ¬ d.machine.ReadsDelay

theorem Unread.rest {m n : Nat} (h : Unread (m + n) c) (hsteps : steps m c = .ok () d) : Unread n d := by
  intro i hi e hrest
  refine h (m + i) (by omega) e ?_
  rw [steps_add, hsteps, onward_ok, hrest]

theorem ButTimers.steps {n : Nat} (h : c.ButTimers d) (hread : Unread n c) :
    Same ButTimers (steps n c) (steps n d) := by
  induction n generalizing c d with
  | zero => exact .ok () h
  | succ n ih =>
    rw [steps_succ, steps_succ]
    rcases (h.step (hread 0 (by omega) c rfl)).cases with ⟨_, c', d', hc, hd, hcd⟩ | ⟨e, c', d', hc, hd, hcd⟩
    · rw [hc, hd]
      rw [Nat.add_comm] at hread
      exact ih hcd (hread.rest (by rw [steps_succ, hc]; rfl))
    · rw [hc, hd]
      exact .error e hcd

end Cpu

end Chip8
