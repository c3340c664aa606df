import Chip8.Proofs.Cpu.Step

/-!
# Executing words

To execute a word is to decode it and to run its operation on a rig. A processor about to execute a word does just
that in its next step (`step_of_executed`, `step_of_refused`), but a word can be executed on any rig, also on one whose
machine is halted or has its program counter outside memory. `Rig.Executes` and `Rig.Refuses` say both at once. Main
statements: `executes_of_reply` and `refuses_of_obstacle`, by which a word of an operation without an obstacle has the
effect of that operation, and one with an obstacle is refused with nothing changed.
-/

namespace Chip8

variable {δ ρ : Type} [Device δ] [RandomSource ρ]

namespace Rig

/-- Decodes a word and runs its operation. -/
def executeWord (w : UInt16) : Act (Rig δ ρ) Unit := fun r =>
  match Decoder.standard.decode w.toNat with
  | .ok decoded => execute decoded.instruction.op decoded.args r
  | .error e => .error e r

theorem executeWord_eq {w : UInt16} {op : Op} (hop : Op.ofWord? w = some op) (r : Rig δ ρ) :
    executeWord w r = execute op (op.args w) r := by
  obtain ⟨inst, rfl, hdecode⟩ := Decoder.decode_standard hop
  rw [executeWord, hdecode]

end Rig

/-! ## As a step -/

namespace Cpu

variable {c : Cpu δ ρ} {w : UInt16}

/-- The processor about to execute the word. -/
structure AtWord (c : Cpu δ ρ) (w : UInt16) : Prop where
  running : c.machine.halted = false
  word : c.machine.word? = some w

/-- A word that is executed is executed by the step of a processor. -/
theorem step_of_executed {r : Rig δ ρ} (hc : c.AtWord w) (hmemory : c.machine.memory.size = 4096)
    (h : Rig.executeWord w c.rig = .ok () r) : ∃ e d, step c = .ok e d ∧ d.rig = r := by
  have hfetch := Machine.fetch_of_word hmemory hc.word
  cases hdecode : Decoder.standard.decode w.toNat with
  | error e => simp [Rig.executeWord, hdecode] at h
  | ok decoded =>
    have hexecute : Rig.execute decoded.instruction.op decoded.args c.rig = .ok () r := by
      simpa [Rig.executeWord, hdecode] using h
    have hstep : step c =
        { c.note (.executing c.machine.pc decoded) with rig := r }.complete
          { pc := c.machine.pc, before := c.snapshot?, word := some w, decoded := some decoded } := by
      simp [step, hc.running, hfetch, hdecode, executeDecoded, note, hexecute]
    exact ⟨_, _, hstep, rig_keep _ _⟩

/-- A word that is refused is refused in the step of a processor, which is then halted. -/
theorem step_of_refused {cause : FaultCause} (hc : c.AtWord w) (hmemory : c.machine.memory.size = 4096)
    (h : Rig.executeWord w c.rig = .error (.fault { cause, pc := some c.machine.pc }) c.rig) :
    ∃ d, step c = .error (.fault (c.located cause)) d ∧
      d.rig = { c.rig with machine := { c.machine with halted := true } } := by
  have hfetch := Machine.fetch_of_word hmemory hc.word
  cases hdecode : Decoder.standard.decode w.toNat with
  | error e =>
    obtain rfl : e = .fault { cause, pc := some c.machine.pc } := by simpa [Rig.executeWord, hdecode] using h
    simp [step, hc.running, hfetch, hdecode, abort, halt, note, Fault.locate, located, hc.word]
    rfl
  | ok decoded =>
    have hexecute : Rig.execute decoded.instruction.op decoded.args c.rig =
        .error (.fault { cause, pc := some c.machine.pc }) c.rig := by
      simpa [Rig.executeWord, hdecode] using h
    simp [step, hc.running, hfetch, hdecode, executeDecoded, note, hexecute, abort, halt, Fault.locate, located,
      hc.word]
    rfl

end Cpu

/-! ## Executed and refused words -/

namespace Rig

variable {w : UInt16} {op : Op} {r r' : Rig δ ρ}

/-- Executing the word takes the rig to the other one, and so does a step of a processor with this rig. -/
structure Executes (w : UInt16) (r r' : Rig δ ρ) : Prop where
  executed : executeWord w r = .ok () r'
  stepped : ∀ c : Cpu δ ρ, c.rig = r → c.AtWord w → ∃ e d, Cpu.step c = .ok e d ∧ d.rig = r'

/-- Executing the word faults with nothing changed, and a step of a processor with this rig halts with the fault. -/
structure Refuses (w : UInt16) (r : Rig δ ρ) (cause : FaultCause) : Prop where
  refused : executeWord w r = .error (.fault { cause, pc := some r.machine.pc }) r
  stepped : ∀ c : Cpu δ ρ, c.rig = r → c.AtWord w → ∃ d, Cpu.step c = .error (.fault (c.located cause)) d ∧
    d.rig = { r with machine := { r.machine with halted := true } }

theorem Executes.of_executed (hmemory : r.machine.memory.size = 4096) (h : executeWord w r = .ok () r') :
    Executes w r r' where
  executed := h
  stepped c hrig hc := by
    subst hrig
    exact Cpu.step_of_executed hc hmemory h

/-- A word takes a rig to one other rig. -/
theorem Executes.unique {r₁ r₂ : Rig δ ρ} (h₁ : Executes w r r₁) (h₂ : Executes w r r₂) : r₁ = r₂ := by
  have h := h₁.executed.symm.trans h₂.executed
  injection h

theorem Refuses.of_refused {cause : FaultCause} (hmemory : r.machine.memory.size = 4096)
    (h : executeWord w r = .error (.fault { cause, pc := some r.machine.pc }) r) : Refuses w r cause where
  refused := h
  stepped c hrig hc := by
    subst hrig
    exact Cpu.step_of_refused hc hmemory h

/-- **A word without an obstacle** has the effect of its operation, and counts as one cycle. -/
theorem executes_of_reply {reply : Reply} (hm : r.machine.Sound) (hop : Op.ofWord? w = some op)
    (h : r.machine.obstacle? w op = none) (hconsult : consult w op r = .ok reply r') :
    Executes w r (machinePart.put r' (r.machine.effect w reply op).counted) :=
  .of_executed hm.memory (by rw [executeWord_eq hop, execute_of_reply hm h hconsult])

/-- **A word with an obstacle** is refused. -/
theorem refuses_of_obstacle {cause : FaultCause} (hm : r.machine.Sound) (hop : Op.ofWord? w = some op)
    (h : r.machine.obstacle? w op = some cause) : Refuses w r cause :=
  .of_refused hm.memory (by rw [executeWord_eq hop, execute_of_obstacle hm h])

end Rig

end Chip8
