import Chip8.Proofs.Cpu.CallStack
import Chip8.Proofs.Cpu.Stores
import Chip8.Proofs.Host.Frames

/-!
# The memory of a session

A host only goes on with the run of its processor: by batches of instructions, by ticks, and by whatever its onlookers
do, if they keep to that as well. So what was said of the memory of a run holds under a host, too. Main statements:
`continues_run`, and `memory_last_writer`, the whole law.
-/

namespace Chip8

namespace Session

variable {δ ρ ω : Type} [Device δ] [RandomSource ρ] {c : Cpu δ ρ} {s t u : Session δ ρ ω}

/-- Every run from `c` to the processor of the first session goes on to that of the second. -/
def Continues (c : Cpu δ ρ) (s t : Session δ ρ ω) : Prop :=
  ∀ ms, c.Runs ms s.cpu → ∃ more, c.Runs (ms ++ more) t.cpu

theorem Continues.trans (h : Continues c s t) (h' : Continues c t u) : Continues c s u := by
  intro ms hruns
  obtain ⟨more, hmore⟩ := h ms hruns
  obtain ⟨rest, hrest⟩ := h' _ hmore
  exact ⟨more ++ rest, by rwa [← List.append_assoc]⟩

theorem continues_of_same (hc : c.Bounded) (hmachine : t.cpu.machine = s.cpu.machine)
    (hfault : t.cpu.fault = s.cpu.fault) : Continues c s t := by
  intro ms hruns
  exact ⟨[], by rw [List.append_nil]; exact hruns.same hc hmachine hfault⟩

/-- A frame goes on with a run, whether it completes or not. -/
theorem continues_runFrame (hc : c.Bounded) (s : Session δ ρ ω) : Continues c s (runFrame.after s) := by
  intro ms hruns
  obtain ⟨more, hmore⟩ := Cpu.runs_steps s.host.cyclesPerFrame hruns
  refine ⟨more, ?_⟩
  cases hsteps : Cpu.steps s.host.cyclesPerFrame s.cpu with
  | ok _ d =>
    rw [Act.after_of_ok hsteps] at hmore
    rw [Act.after_of_ok (runFrame_of_ok (Cpu.frame_of_ok hsteps))]
    exact hmore.tick hc
  | error e d =>
    rw [Act.after_of_error hsteps] at hmore
    rw [Act.after_of_error (runFrame_of_error (Cpu.frame_of_error hsteps))]
    exact hmore

/-- **A host goes on with a run** if its onlookers do. -/
theorem continues_run {k : Conduct (Session δ ρ ω)} (hc : c.Bounded) (hask : ∀ u, Continues c u (k.asks u).2)
    (hlook : ∀ u, Continues c u (k.onlookers.afterFrame u)) (patience : Nat) (s : Session δ ρ ω) :
    Continues c s ((run k patience).after s) := by
  have hkeeps : Act.Keeps (Continues c s) (run k patience) := by
    refine keeps_run ?_ ?_ ?_ ?_ patience
    · exact fun u hu => hu.trans (hask u)
    · exact fun u hu => hu.trans (hlook u)
    · exact fun u hu => hu.trans (continues_runFrame hc u)
    · exact fun u v hu hmachine hfault => hu.trans (continues_of_same hc hmachine hfault)
  exact hkeeps s (continues_of_same hc rfl rfl)

end Session

namespace Cpu

variable {δ ρ ω : Type} [Device δ] [RandomSource ρ] {c d : Cpu δ ρ} {ms : List Machine}

/-- **The law of the last writer.** In every run from a loaded program each byte is what the last executed store that
covers it has stored, and otherwise as the program was loaded. A store leaves registers and index register as they are.
No other instruction changes a byte, nor does one that fails, nor a tick of the timers or anything that is done to the
device; and a host only goes on with the run. -/
theorem memory_last_writer {rom : List UInt8} {c₀ : Cpu δ ρ} (hload : loadProgram rom c₀ = .ok () c)
    (hruns : Runs c ms d) :
    (∀ a, d.machine.byteAt a = (Machine.lastStored? ms a).getD (c.machine.byteAt a)) ∧
    (∀ e d', step d = .ok e d' → d.machine.Stores →
      d'.machine.registers = d.machine.registers ∧ d'.machine.index = d.machine.index) ∧
    (∀ e d', step d = .ok e d' → ¬ d.machine.Stores → d'.machine.memory = d.machine.memory) ∧
    (∀ e d', step d = .error e d' → d'.machine.memory = d.machine.memory) ∧
    (Runs c ms d.tickTimers ∧ d.tickTimers.machine.memory = d.machine.memory) ∧
    (∀ {α : Type} (act : Act δ α), Runs c ms ((act.within devicePart).after d) ∧
      ((act.within devicePart).after d).machine.memory = d.machine.memory) ∧
    ∀ (s : Session δ ρ ω) (k : Session.Conduct (Session δ ρ ω)) (patience : Nat), s.cpu = d →
      (∀ u, Session.Continues c u (k.asks u).2) → (∀ u, Session.Continues c u (k.onlookers.afterFrame u)) →
        ∃ more, Runs c (ms ++ more) ((Session.run k patience).after s).cpu := by
  have hc := (bounded_of_loadProgram hload).2
  have hm := (keeps_runs hc hruns).machine.toSound
  refine ⟨byteAt_runs hc hruns, fun e d' => registers_index_step hm, fun e d' => memory_step hm,
    fun e d' => memory_step_error hm, ⟨hruns.tick hc, ?_⟩, ?_, ?_⟩
  · rw [tickTimers_eq]
    rfl
  · intro α act
    rw [Act.after_within]
    exact ⟨hruns.same hc rfl rfl, rfl⟩
  · rintro s k patience rfl hask hlook
    exact Session.continues_run hc hask hlook patience s ms hruns

/-- A program that stores the byte 42 over its own last instruction, and zero after it. -/
def storing : Cpu FrameBuffer Cycle := (loadProgram [0x60, 0x2A, 0xA2, 0x04, 0xF1, 0x55]).after idle

theorem memory_last_writer_storing :
    ∃ ms d, Runs storing ms d ∧ d.machine.byteAt 0x204 = 42 ∧ d.machine.byteAt 0x205 = 0 ∧
      d.machine.byteAt 0x203 = 4 := by
  obtain ⟨_, hload⟩ := Act.ok_of_answer
    (show ((loadProgram [0x60, 0x2A, 0xA2, 0x04, 0xF1, 0x55]).answer idle).isOk = true by decide +kernel)
  obtain ⟨e, hset⟩ := Act.ok_of_answer (show (step.answer storing).isOk = true by decide +kernel)
  obtain ⟨e', hpoint⟩ := Act.ok_of_answer (show (step.answer (step.after storing)).isOk = true by decide +kernel)
  obtain ⟨e'', hstore⟩ :=
    Act.ok_of_answer (show (step.answer (step.after (step.after storing))).isOk = true by decide +kernel)
  have hruns := ((Runs.start.executed hset).executed hpoint).executed hstore
  have hlaw := (memory_last_writer (ω := Unit) hload hruns).1
  exact ⟨_, _, hruns, (hlaw 0x204).trans (by decide +kernel), (hlaw 0x205).trans (by decide +kernel),
    (hlaw 0x203).trans (by decide +kernel)⟩

end Cpu

end Chip8
