import Chip8.Proofs.Cpu.Frames
import Chip8.Proofs.Cpu.Trace
import Chip8.Proofs.Cpu.Untimed

/-!
# Strides of a processor

A step that is taken, whether it completes or a fault ends it, is a stride from one machine to another, and has an entry
to show for it. On a display of a fixed size any other step leaves everything as it was: it is refused, or it asks for a
random number and there is none. Main statement: `stays_or_strides`.
-/

namespace Chip8

/-- A step that was taken: the machine before and after it, and the fault that ended it, if any. -/
structure Stride where
  before : Machine
  after : Machine
  fault : Option Fault

namespace Stride

variable {t : Stride}

/-- The entry of a stride. -/
def entry (t : Stride) : TraceEntry where
  cycle := t.after.cycles
  pc := t.before.pc
  word := t.before.word?
  decoded := t.before.decoded?
  passage := some ⟨t.before.snapshot, t.after.snapshot⟩
  error := t.fault.map Fault.text

/-- The instruction of an entry is the disassembly of its word. -/
theorem disassemble_word {w : UInt16} (hword : t.entry.word = some w) :
    Decoder.standard.disassemble w.toNat = .ok t.entry.instruction := by
  have hbefore : t.before.word? = some w := hword
  cases hop : Op.ofWord? w with
  | none =>
    have hdecoded : t.entry.decoded = none := Machine.decoded?_of_unknown hbefore hop
    rw [Decoder.disassemble_of_unknown hop]
    simp only [TraceEntry.instruction, hdecoded, hword]
  | some op =>
    obtain ⟨inst, -, hdecode, hdecoded⟩ := Machine.decoded?_of_word hbefore hop
    have hentry : t.entry.decoded = some ⟨inst, op.args w, w⟩ := hdecoded
    rw [Decoder.disassemble_of_decode hdecode]
    simp only [TraceEntry.instruction, hentry]

end Stride

namespace Cpu

variable {δ ρ : Type} [Device δ] [RandomSource ρ] {c d : Cpu δ ρ} {t : Stride}

/-- The stride that the next step is going to be, if it is taken. -/
def stride? (c : Cpu δ ρ) : Option Stride :=
  match step c with
  | .ok _ d => some ⟨c.machine, d.machine, none⟩
  | .error (.fault f) d => some ⟨c.machine, d.machine, some f⟩
  | .error _ _ => none

theorem stride?_of_ok {e : TraceEntry} (h : step c = .ok e d) : c.stride? = some ⟨c.machine, d.machine, none⟩ := by
  rw [stride?, h]

theorem stride?_of_fault {f : Fault} (h : step c = .error (.fault f) d) :
    c.stride? = some ⟨c.machine, d.machine, some f⟩ := by
  rw [stride?, h]

/-- A stride takes one processor to the other. The trace has its entry, and a step that completed hands it back. -/
structure Strides (c : Cpu δ ρ) (t : Stride) (d : Cpu δ ρ) : Prop where
  running : c.machine.halted = false
  before : t.before = c.machine
  after : t.after = d.machine
  trace : d.trace = c.trace.push t.entry
  handed : ∀ e d', step c = .ok e d' → e = t.entry
  ending :
    (t.fault = none ∧ d.machine.halted = false ∧ d.machine.cycles = c.machine.cycles + 1) ∨
    ∃ f, t.fault = some f ∧ d.fault = some f ∧ d.machine = { c.machine with halted := true }

theorem strides_of_trouble {cause : FaultCause} (hrun : c.machine.halted = false) (hon : c.trace.isOn = true)
    (hstep : step c = .error (.fault (c.located cause)) (c.stoppedBy cause)) :
    ∃ t, c.stride? = some t ∧ c.Strides t (step.after c) := by
  have hmachine : (c.stoppedBy cause).machine = { c.machine with halted := true } :=
    congrArg Rig.machine (rig_stoppedBy c cause)
  have htrace : (c.stoppedBy cause).trace = c.trace.push (Stride.entry ⟨c.machine, (c.stoppedBy cause).machine,
      some (c.located cause)⟩) := by
    rw [trace_stoppedBy, if_pos hon]
    simp only [faultEntry, snapshot?, hon, if_true, Option.map_some, Stride.entry, hmachine]
    rfl
  refine ⟨_, stride?_of_fault hstep, ?_⟩
  rw [Act.after_of_error hstep]
  exact {
    running := hrun
    before := rfl
    after := rfl
    trace := htrace
    handed := fun e d' hok => by rw [hstep] at hok; cases hok
    ending := .inr ⟨_, rfl, fault_stoppedBy c cause, hmachine⟩ }

theorem strides_of_reply {w : UInt16} {op : Op} {reply : Reply} {rig : Rig δ ρ} (hrun : c.machine.halted = false)
    (hon : c.trace.isOn = true) (hstep : step c = (c.executed w reply op rig).complete c.progress) :
    ∃ t, c.stride? = some t ∧ c.Strides t (step.after c) := by
  obtain ⟨hcycles, hhalted⟩ := Machine.cycles_halted_effect c.machine w reply op
  have hentry : (c.executed w reply op rig).entry c.progress none =
      Stride.entry ⟨c.machine, (c.machine.effect w reply op).counted, none⟩ := by
    simp only [entry, progress, snapshot?, hon, if_true, Option.map_some, Stride.entry, machine_executed]
    rfl
  have hdone : step c = .ok _ ((c.executed w reply op rig).keep ((c.executed w reply op rig).entry c.progress none)) :=
    hstep
  have htrace : (c.executed w reply op rig).trace = c.trace := trace_ready c
  have hmachine (e : TraceEntry) :
      ((c.executed w reply op rig).keep e).machine = (c.machine.effect w reply op).counted := by
    rw [machine, rig_keep]
    rfl
  refine ⟨_, stride?_of_ok hdone, ?_⟩
  rw [Act.after_of_ok hdone, hmachine]
  exact {
    running := hrun
    before := rfl
    after := (hmachine _).symm
    trace := by rw [trace_keep, htrace, if_pos hon, hentry]
    handed := fun e d' hok => by
      rw [hdone] at hok
      cases hok
      exact hentry
    ending := .inl ⟨rfl, by rw [hmachine]; exact hhalted.trans hrun, by rw [hmachine]; exact congrArg (· + 1) hcycles⟩ }

/-- Nothing has happened to a processor but to the timers. -/
structure Stays (c d : Cpu δ ρ) : Prop where
  machine : c.machine.ButTimers d.machine
  fault : d.fault = c.fault
  trace : d.trace = c.trace

/-- On a display of a fixed size a step is refused, or it asks for a random number and there is none, or it is a
stride. -/
theorem stays_or_strides {P : δ → Prop} {width height : Int} (hsized : Device.Sized P width height)
    (hdevice : P c.device) (hm : c.machine.SoundApart) (hon : c.trace.isOn = true) :
    (c.stride? = none ∧ c.Stays (step.after c)) ∨ ∃ t, c.stride? = some t ∧ c.Strides t (step.after c) := by
  cases hrun : c.machine.halted with
  | true =>
    have hstep := step_halted hrun
    refine .inl ⟨by rw [stride?, hstep], ?_⟩
    rw [Act.after_of_error hstep]
    exact ⟨rfl, rfl, rfl⟩
  | false =>
    rcases step_cases_apart hm hrun with ⟨cause, hstep⟩ | ⟨w, op, reply, rig, -, -, hstep⟩ |
        ⟨w, op, mishap, rig, hconsult, hstep⟩
    · exact .inr (strides_of_trouble hrun hon hstep)
    · exact .inr (strides_of_reply hrun hon hstep)
    · obtain ⟨rfl, rfl⟩ := Rig.eq_random_of_consult_error hsized hdevice hconsult
      refine .inl ⟨by rw [stride?, hstep], ?_⟩
      rw [Act.after_of_error hstep]
      exact ⟨rfl, fault_ready c, trace_ready c⟩

/-- Whatever the device, a stride is what the step has been. -/
theorem strides_of_stride? (hm : c.machine.SoundApart) (hon : c.trace.isOn = true) (h : c.stride? = some t) :
    c.Strides t (step.after c) := by
  have hsame {u : Stride} (hu : c.stride? = some u ∧ c.Strides u (step.after c)) : c.Strides t (step.after c) := by
    obtain rfl := Option.some.inj (hu.1.symm.trans h)
    exact hu.2
  cases hrun : c.machine.halted with
  | true => simp [stride?, step_halted hrun] at h
  | false =>
    rcases step_cases_apart hm hrun with ⟨cause, hstep⟩ | ⟨w, op, reply, rig, -, -, hstep⟩ |
        ⟨w, op, mishap, rig, -, hstep⟩
    · obtain ⟨u, hu⟩ := strides_of_trouble hrun hon hstep
      exact hsame hu
    · obtain ⟨u, hu⟩ := strides_of_reply hrun hon hstep
      exact hsame hu
    · simp [stride?, hstep] at h

/-- With a random number to be had, a step of a running processor completes or faults. -/
theorem ok_or_fault {P : δ → Prop} {width height : Int} (hsized : Device.Sized P width height) (hdevice : P c.device)
    (hm : c.machine.SoundApart) (hrun : c.machine.halted = false)
    (hrandom : ∃ answer, RandomSource.next c.rig.random = .ok answer) :
    (∃ e d, step c = .ok e d) ∨ ∃ f d, step c = .error (.fault f) d := by
  rcases fault_or_sound hm hrun with ⟨cause, hstep⟩ | ⟨hsound, w, op, hword, hop, hobstacle⟩
  · exact .inr ⟨_, _, hstep⟩
  · obtain ⟨reply, rig, hconsult, -⟩ := Rig.consult_ok hsized hdevice w op fun _ => hrandom
    exact .inl ⟨_, _, step_of_reply hsound hrun hword hop hobstacle hconsult⟩

end Cpu

end Chip8
