import Chip8.Proofs.Cpu.Kept
import Chip8.Proofs.Cpu.Trace
import Chip8.Proofs.Cpu.Untimed

/-!
# Processors without their traces

A trace is written and never read. Two processors that are the same but for how much their traces keep end every step
the same way, and their steps hand back the same entries but for the states before and after them, which a processor
without a trace does not look at. What the two traces keep are the newest entries of one and the same row. Main
statements: `ButTrace.step` and `respects_steps_butTrace`.
-/

namespace Chip8

open Act

/-! ## Entries without their states -/

/-- The entry without the states before and after the step. -/
def TraceEntry.bare (e : TraceEntry) : TraceEntry := { e with passage := none }

/-- What a trace keeps, without the states before and after the steps. -/
def Trace.bare (t : Trace) : List TraceEntry := t.entries.toList.map TraceEntry.bare

theorem Trace.newest_map (limit : Option Nat) (f : TraceEntry → TraceEntry) (es : List TraceEntry) :
    (newest limit es).map f = newest limit (es.map f) := by
  cases limit with
  | none => rfl
  | some limit => simp only [newest, List.rtake, List.map_drop, List.length_map]

/-- One more entry, if the trace is on. -/
theorem Trace.bare_push {t : Trace} {es : List TraceEntry} (h : t.bare = newest t.limit es) (e : TraceEntry) :
    (t.push e).bare = newest t.limit (es ++ [e.bare]) := by
  have hpush : (t.push e).bare = newest t.limit (t.bare ++ [e.bare]) := by
    simp only [bare, toList_push, newest_map, List.map_append, List.map_cons, List.map_nil]
  rw [hpush, h, newest_newest_concat]

/-- An answer with its entry bare. -/
def bareAnswer {σ : Type} : EStateM.Result Failure σ TraceEntry → EStateM.Result Failure σ TraceEntry
  | .ok e s => .ok e.bare s
  | .error e s => .error e s

namespace Cpu

variable {δ ρ : Type} {m n : Int} {c d : Cpu δ ρ}

/-! ## The same but for the trace -/

/-- Processors that are the same but for how much their traces keep, and for the number of instructions that they run
by default: it is `m` for the one and `n` for the other. -/
structure ButTrace (m n : Int) (c d : Cpu δ ρ) : Prop where
  rig : d.rig = c.rig
  fault : d.fault = c.fault
  journal : d.journal = c.journal
  kept : ∃ es, c.trace.bare = Trace.newest c.trace.limit es ∧ d.trace.bare = Trace.newest d.trace.limit es
  first : c.maxCycles = m
  second : d.maxCycles = n

theorem journal_keep (c : Cpu δ ρ) (e : TraceEntry) : (c.keep e).journal = c.journal := by
  unfold keep
  split <;> rfl

/-- What is kept of one more entry. A trace that is off keeps nothing of any row. -/
theorem bare_keep {es : List TraceEntry} (h : c.trace.bare = Trace.newest c.trace.limit es) (e : TraceEntry) :
    (c.keep e).trace.bare = Trace.newest (c.keep e).trace.limit (es ++ [e.bare]) := by
  rw [trace_keep]
  split
  · rw [Trace.bare_push h, Trace.limit_push]
  · next hoff =>
    obtain hlimit : c.trace.limit = some 0 := by simpa [Trace.isOn] using hoff
    rw [h, hlimit]
    simp only [Trace.newest, List.rtake_zero]

namespace ButTrace

theorem machine (h : ButTrace m n c d) : d.machine = c.machine := congrArg Rig.machine h.rig

theorem withMachine (h : ButTrace m n c d) (machine : Machine) :
    ButTrace m n (c.withMachine machine) (d.withMachine machine) :=
  ⟨by simp only [Cpu.withMachine, h.rig], h.fault, h.journal, h.kept, h.first, h.second⟩

theorem withRig (h : ButTrace m n c d) (rig : Rig δ ρ) : ButTrace m n { c with rig } { d with rig } :=
  ⟨rfl, h.fault, h.journal, h.kept, h.first, h.second⟩

theorem note (h : ButTrace m n c d) (what : Note) : ButTrace m n (c.note what) (d.note what) :=
  ⟨h.rig, h.fault, congrArg (·.push what) h.journal, h.kept, h.first, h.second⟩

theorem halt (h : ButTrace m n c d) (f : Fault) : ButTrace m n (c.halt f) (d.halt f) := by
  have hhalted := h.withMachine { c.machine with halted := true }
  have hfault : ButTrace m n { c.withMachine { c.machine with halted := true } with fault := some f }
      { d.withMachine { c.machine with halted := true } with fault := some f } :=
    ⟨hhalted.rig, rfl, hhalted.journal, hhalted.kept, hhalted.first, hhalted.second⟩
  rw [Cpu.halt, Cpu.halt, h.machine]
  exact hfault.note _

theorem keep (h : ButTrace m n c d) {e e' : TraceEntry} (he : e'.bare = e.bare) :
    ButTrace m n (c.keep e) (d.keep e') where
  rig := by rw [rig_keep, rig_keep, h.rig]
  fault := by rw [fault_keep, fault_keep, h.fault]
  journal := by rw [journal_keep, journal_keep, h.journal]
  kept := by
    obtain ⟨es, hc, hd⟩ := h.kept
    refine ⟨es ++ [e.bare], bare_keep hc e, ?_⟩
    rw [← he]
    exact bare_keep hd e'
  first := by rw [maxCycles_keep, h.first]
  second := by rw [maxCycles_keep, h.second]

theorem setDelayTimer (h : ButTrace m n c d) (value : Int) :
    ButTrace m n (c.setDelayTimer value) (d.setDelayTimer value) := by
  rw [Cpu.setDelayTimer, Cpu.setDelayTimer, h.machine]
  exact h.withMachine _

theorem setSoundTimer (h : ButTrace m n c d) (value : Int) :
    ButTrace m n (c.setSoundTimer value) (d.setSoundTimer value) := by
  rw [Cpu.setSoundTimer, Cpu.setSoundTimer, h.machine]
  exact h.withMachine _

theorem tickTimers (h : ButTrace m n c d) : ButTrace m n c.tickTimers d.tickTimers := by
  rw [tickTimers_eq, tickTimers_eq, h.machine]
  exact h.withMachine _

/-! ## Ending a step -/

theorem bare_entry (h : ButTrace m n c d) (p : Progress) (before : Option Snapshot) (error : Option String) :
    (d.entry { p with before } error).bare = (c.entry p error).bare := by
  simp only [Cpu.entry, TraceEntry.bare, h.machine]

theorem complete (h : ButTrace m n c d) (p : Progress) (before : Option Snapshot) :
    Same (ButTrace m n) (bareAnswer (c.complete p)) (bareAnswer (d.complete { p with before })) := by
  have hentry := h.bare_entry p before none
  simp only [Cpu.complete, bareAnswer, hentry]
  exact .ok _ (h.keep hentry)

theorem abort (h : ButTrace m n c d) (p : Progress) (before : Option Snapshot) (e : Failure) :
    Same (ButTrace m n) (bareAnswer (c.abort p e)) (bareAnswer (d.abort { p with before } e)) := by
  cases e with
  | fault f => exact .error _ ((h.halt _).keep ((h.halt _).bare_entry p before _))
  | halted f => exact .error _ h
  | mishap _ => exact .error _ h

variable [Device δ] [RandomSource ρ]

theorem executeDecoded (h : ButTrace m n c d) (p : Progress) (before : Option Snapshot) (decoded : Decoded) :
    Same (ButTrace m n) (bareAnswer (c.executeDecoded p decoded))
      (bareAnswer (d.executeDecoded { p with before } decoded)) := by
  have hnoted := h.note (.executing p.pc decoded)
  simp only [Cpu.executeDecoded, hnoted.rig]
  cases Rig.execute decoded.instruction.op decoded.args (c.note (.executing p.pc decoded)).rig with
  | ok _ rig => exact (hnoted.withRig rig).complete { p with decoded := some decoded } before
  | error e rig => exact (hnoted.withRig rig).abort { p with decoded := some decoded } before e

/-- **A step does not see the trace.** -/
theorem step (h : ButTrace m n c d) :
    Same (ButTrace m n) (bareAnswer (Cpu.step c)) (bareAnswer (Cpu.step d)) := by
  have hmachine := h.machine
  cases hrun : c.machine.halted with
  | true =>
    rw [step_halted hrun, step_halted (hmachine ▸ hrun), h.fault]
    exact .error _ h
  | false =>
    have hrun' : d.machine.halted = false := hmachine ▸ hrun
    cases hfetch : Machine.fetch c.machine with
    | error e machine =>
      rw [step_of_unfetched hrun hfetch, step_of_unfetched hrun' (hmachine ▸ hfetch), hmachine]
      exact (h.withMachine machine).abort { pc := c.machine.pc, before := c.snapshot? } d.snapshot? e
    | ok w machine =>
      have hfetch' : Machine.fetch d.machine = .ok w machine := hmachine ▸ hfetch
      have hprogress := h.withMachine machine
      cases hdecode : Decoder.standard.decode w.toNat with
      | error e =>
        rw [step_of_undecoded hrun hfetch hdecode, step_of_undecoded hrun' hfetch' hdecode, hmachine]
        exact hprogress.abort { pc := c.machine.pc, before := c.snapshot?, word := some w } d.snapshot? e
      | ok decoded =>
        rw [step_of_decoded hrun hfetch hdecode, step_of_decoded hrun' hfetch' hdecode, hmachine]
        exact hprogress.executeDecoded { pc := c.machine.pc, before := c.snapshot?, word := some w } d.snapshot? decoded

/-- Nor does it see the trace without its answer. -/
theorem unanswered_step (h : ButTrace m n c d) :
    Same (ButTrace m n) (unanswered (Cpu.step c)) (unanswered (Cpu.step d)) := by
  have hbare (r : EStateM.Result Failure (Cpu δ ρ) TraceEntry) : unanswered (bareAnswer r) = unanswered r := by
    cases r <;> rfl
  rw [← hbare, ← hbare (Cpu.step d)]
  rcases h.step.cases with ⟨e, c', d', hc, hd, h'⟩ | ⟨e, c', d', hc, hd, h'⟩
  · rw [hc, hd]
    exact .ok () h'
  · rw [hc, hd]
    exact .error e h'

end ButTrace

/-! ## Batches and programs -/

/-- A step that hands back its entry bare. -/
def bareStep [Device δ] [RandomSource ρ] : Act (Cpu δ ρ) TraceEntry := do
  let e ← step
  return e.bare

theorem bare_cleared (t : Trace) : t.cleared.bare = Trace.newest t.cleared.limit [] := by
  rw [Trace.newest_nil]
  rfl

theorem create_eq_ok {device : δ} {random : ρ} {maxCycles : Int} {length : Option Int}
    (h : create device random maxCycles length = .ok c) :
    ∃ limit, c = { rig := { machine := Machine.empty, device, random }, trace := { limit }, maxCycles } := by
  unfold create at h
  cases hlimit : traceLimit length with
  | error mishap => simp [hlimit, Except.map] at h
  | ok limit =>
    obtain rfl : _ = c := by simpa [hlimit, Except.map] using h
    exact ⟨limit, rfl⟩

/-- New processors are the same but for the trace and the number of instructions. -/
theorem butTrace_of_create {device : δ} {random : ρ} {length length' : Option Int}
    (hc : create device random m length = .ok c) (hd : create device random n length' = .ok d) :
    ButTrace m n c d := by
  obtain ⟨limit, rfl⟩ := create_eq_ok hc
  obtain ⟨limit', rfl⟩ := create_eq_ok hd
  exact ⟨rfl, rfl, rfl, ⟨[], (Trace.newest_nil limit).symm, (Trace.newest_nil limit').symm⟩, rfl, rfl⟩

theorem respects_loadProgram_butTrace (rom : List UInt8) :
    Respects (ButTrace m n) (loadProgram rom : Act (Cpu δ ρ) Unit) := by
  intro c d h
  simp only [loadProgram, h.machine, h.fault]
  split
  · exact .error _ h
  · cases Machine.start rom with
    | error mishap => exact .error _ h
    | ok machine =>
      have hstarted := h.withMachine machine
      have hloaded : ButTrace m n { c.withMachine machine with fault := none, trace := c.trace.cleared }
          { d.withMachine machine with fault := none, trace := d.trace.cleared } :=
        ⟨hstarted.rig, rfl, hstarted.journal, ⟨[], bare_cleared _, bare_cleared _⟩, hstarted.first, hstarted.second⟩
      exact .ok () (hloaded.note _)

variable [Device δ] [RandomSource ρ]

theorem respects_bareStep : Respects (ButTrace m n) (bareStep : Act (Cpu δ ρ) TraceEntry) := by
  have hbare (c : Cpu δ ρ) : bareStep c = bareAnswer (Cpu.step c) := by
    rw [bareStep, bind_run]
    cases Cpu.step c <;> rfl
  intro c d h
  rw [hbare, hbare]
  exact h.step

/-- **A batch does not see the trace** either. -/
theorem respects_steps_butTrace (k : Nat) : Respects (ButTrace m n) (steps k : Act (Cpu δ ρ) Unit) := by
  induction k with
  | zero => exact respects_pure ()
  | succ k ih =>
    intro c d h
    rw [steps_succ, steps_succ]
    exact h.unanswered_step.onward fun _ => ih

/-- A run is a batch whose answer is what the trace keeps. -/
theorem unanswered_run (cycles : Option Int) (c : Cpu δ ρ) :
    unanswered (run cycles c) = steps (cycles.getD c.maxCycles).toNat c := by
  simp only [run, bind_run, get_run, onward_ok]
  cases steps (cycles.getD c.maxCycles).toNat c <;> rfl

/-- A run does not see the trace where both run as many instructions by default, but for its answer. -/
theorem ButTrace.run (h : ButTrace m m c d) (cycles : Option Int) :
    Same (ButTrace m m) (unanswered (Cpu.run cycles c)) (unanswered (Cpu.run cycles d)) := by
  rw [unanswered_run, unanswered_run, h.first, h.second]
  exact respects_steps_butTrace _ c d h

end Cpu

end Chip8
