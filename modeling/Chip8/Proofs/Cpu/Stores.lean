import Chip8.Proofs.Cpu.Frames
import Chip8.Proofs.Cpu.Runs
import Chip8.Proofs.Machine.Stores

/-!
# The memory of a run

A byte of memory holds what was stored there last. In a run from a loaded program, what stores are the instructions
that were executed, each with the registers and the index register that it found; without one that covers a byte, the
byte is as the program was loaded. Main statement: `byteAt_runs`.
-/

namespace Chip8

namespace Machine

/-- What the next instruction is about to store at an address. -/
def storedAt? (m : Machine) (a : Nat) : Option UInt8 := m.word?.bind fun w => m.wordStores? w a

/-- What was stored last at an address by instructions, given the machines just before each of them. -/
def lastStored? (ms : List Machine) (a : Nat) : Option UInt8 := ms.reverse.findSome? fun m => m.storedAt? a

/-- The next instruction is a store. -/
def Stores (m : Machine) : Prop := ∃ w, m.word? = some w ∧ (Word.StoresBlock w ∨ Word.StoresDigits w)

theorem lastStored?_concat (ms : List Machine) (m : Machine) (a : Nat) :
    lastStored? (ms ++ [m]) a = (m.storedAt? a).or (lastStored? ms a) := by
  rw [lastStored?, List.reverse_append, List.reverse_singleton, List.singleton_append, List.findSome?_cons]
  cases m.storedAt? a with
  | none => rfl
  | some value => rfl

/-- The operation of a store stores a block or digits. -/
theorem op_of_stores {m : Machine} {w : UInt16} {op : Op} (hword : m.word? = some w) (hop : Op.ofWord? w = some op) :
    m.Stores ↔ op = .store ∨ op = .decimal := by
  have hhas := Op.ofWord?_eq_some_iff.1 hop
  constructor
  · rintro ⟨w', hword', hblock | hdigits⟩
    · obtain rfl := Option.some.inj (hword.symm.trans hword')
      exact .inl (Op.eq_of_has hhas hblock)
    · obtain rfl := Option.some.inj (hword.symm.trans hword')
      exact .inr (Op.eq_of_has hhas hdigits)
  · rintro (rfl | rfl)
    · exact ⟨w, hword, .inl hhas⟩
    · exact ⟨w, hword, .inr hhas⟩

end Machine

namespace Cpu

variable {δ ρ : Type} [Device δ] [RandomSource ρ] {c d d' : Cpu δ ρ} {ms : List Machine}

/-! ## One step -/

theorem byteAt_step {e : TraceEntry} (hm : d.machine.Sound) (h : step d = .ok e d') (a : Nat) :
    d'.machine.byteAt a = (d.machine.storedAt? a).getD (d.machine.byteAt a) := by
  obtain ⟨-, w, op, reply, hword, hop, hobstacle, hmachine⟩ := executed_of_ok hm h
  rw [hmachine, Machine.storedAt?, hword, Option.bind_some]
  exact Machine.byteAt_effect hm hop hobstacle reply a

theorem registers_index_step {e : TraceEntry} (hm : d.machine.Sound) (h : step d = .ok e d')
    (hstores : d.machine.Stores) :
    d'.machine.registers = d.machine.registers ∧ d'.machine.index = d.machine.index := by
  obtain ⟨-, w, op, reply, hword, hop, -, hmachine⟩ := executed_of_ok hm h
  rw [hmachine]
  exact Machine.registers_index_effect d.machine w reply ((Machine.op_of_stores hword hop).1 hstores)

theorem memory_step {e : TraceEntry} (hm : d.machine.Sound) (h : step d = .ok e d') (hstores : ¬ d.machine.Stores) :
    d'.machine.memory = d.machine.memory := by
  obtain ⟨-, w, op, reply, hword, hop, -, hmachine⟩ := executed_of_ok hm h
  have hother := mt (Machine.op_of_stores hword hop).2 hstores
  rw [hmachine]
  exact Machine.memory_effect d.machine w reply (fun hblock => hother (.inl hblock))
    fun hdigits => hother (.inr hdigits)

theorem memory_step_error {e : Failure} (hm : d.machine.Sound) (h : step d = .error e d') :
    d'.machine.memory = d.machine.memory := by
  obtain ⟨op, halted, hmachine⟩ := machine_of_error hm h
  rw [hmachine]
  exact Machine.memory_begun d.machine op

/-! ## Runs -/

/-- **The last store counts.** By induction on the run: an executed instruction decides the bytes that it covers, and
nothing else in a run touches the memory. -/
theorem byteAt_runs (hc : c.Bounded) (h : Runs c ms d) (a : Nat) :
    d.machine.byteAt a = (Machine.lastStored? ms a).getD (c.machine.byteAt a) := by
  induction h with
  | start => rfl
  | @executed ms d d' e hruns hstep ih =>
    have hm := (keeps_runs hc hruns).machine.toSound
    rw [byteAt_step hm hstep, Machine.lastStored?_concat]
    cases d.machine.storedAt? a with
    | none => exact ih
    | some value => rfl
  | @failed ms d d' e hruns hstep ih =>
    have hm := (keeps_runs hc hruns).machine.toSound
    rw [Machine.byteAt, memory_step_error hm hstep]
    exact ih
  | @outside ms d d' delay sound _ hmachine _ ih =>
    rw [hmachine]
    exact ih

/-- What leaves machine and fault alone goes on with a run. -/
theorem Runs.same (hc : c.Bounded) (h : Runs c ms d) (hmachine : d'.machine = d.machine) (hfault : d'.fault = d.fault) :
    Runs c ms d' := by
  have hm := (keeps_runs hc h).machine.toSound
  refine h.outside d.machine.delayTimer d.machine.soundTimer ?_ hfault
  rw [hmachine, Int.emod_eq_of_lt hm.delay_nonneg (by have := hm.delay_le; omega),
    Int.emod_eq_of_lt hm.sound_nonneg (by have := hm.sound_le; omega)]

/-- So does a tick of the timers. -/
theorem Runs.tick (hc : c.Bounded) (h : Runs c ms d) : Runs c ms d.tickTimers := by
  have hm := (keeps_runs hc h).machine.toSound.apart.ticked
  have hdelay : 0 ≤ d.machine.ticked.delayTimer := hm.delay_nonneg
  have hdelayle : d.machine.ticked.delayTimer ≤ 0xFF := hm.delay_le
  have hsound : 0 ≤ d.machine.ticked.soundTimer := hm.sound_nonneg
  have hsoundle : d.machine.ticked.soundTimer ≤ 0xFF := hm.sound_le
  rw [tickTimers_eq]
  refine h.outside d.machine.ticked.delayTimer d.machine.ticked.soundTimer ?_ rfl
  rw [Int.emod_eq_of_lt hdelay (by omega), Int.emod_eq_of_lt hsound (by omega)]
  rfl

end Cpu

end Chip8
