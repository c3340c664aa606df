import Chip8.Proofs.Cpu.Outcome
import Chip8.Proofs.Machine.Start

/-!
# Loading a program

A program is loaded as a whole or not at all. What was loaded leaves nothing behind: the machine is the fresh one of
the new program, whatever it has done before. Main statement: `loadProgram_fresh`.
-/

namespace Chip8.Cpu

variable {δ ρ : Type}

variable {rom : List UInt8} {c d : Cpu δ ρ}

/-- What is loaded is known, but for what the processor was made with. -/
theorem loaded_of_ok (h : loadProgram rom c = .ok () d) :
    d.machine.Fresh rom ∧ d.fault = none ∧ d.trace = c.trace.cleared := by
  rcases loadProgram_cases rom c with ⟨e, herror⟩ | ⟨machine, hstart, hload⟩
  · cases herror.symm.trans h
  · cases hload.symm.trans h
    exact ⟨Machine.start_eq_ok_iff_fresh.1 hstart, rfl, rfl⟩

/-- The error of a halted processor comes first. -/
theorem loadProgram_eq_error_iff {e : Failure} : loadProgram rom c = .error e d ↔
    d = c ∧ ((c.machine.halted = true ∧ e = .halted c.fault) ∨
      (c.machine.halted = false ∧ maxProgramSize < rom.length ∧ e = .mishap (.romTooLarge rom.length))) := by
  cases hrun : c.machine.halted with
  | true => simp [loadProgram_halted hrun, eq_comm, and_comm]
  | false =>
    rcases Nat.lt_or_ge maxProgramSize rom.length with hlarge | hsize
    · simp [loadProgram_of_large hrun hlarge, hlarge, eq_comm, and_comm]
    · obtain ⟨d', hload⟩ := exists_loadProgram hrun hsize
      simp [hload, Nat.not_lt.2 hsize]

/-- **Loading starts afresh or changes nothing.** A program can be loaded if and only if the processor has not halted
and the program is not too large. Then the machine is the fresh one of the program, whatever the processor has done
before, there is no fault and the trace is empty; device and random source go on as they are. If not, the processor is
wholly as it was, and the error is that of a halted processor before that of a program that is too large. -/
theorem loadProgram_fresh (rom : List UInt8) (c : Cpu δ ρ) :
    ((∃ d, loadProgram rom c = .ok () d) ↔ c.machine.halted = false ∧ rom.length ≤ 3584) ∧
    (∀ d, loadProgram rom c = .ok () d →
      d.machine.Fresh rom ∧ d.fault = none ∧ d.trace.entries = #[] ∧ d.trace.limit = c.trace.limit ∧
      d.device = c.device ∧ d.rig.random = c.rig.random ∧ d.maxCycles = c.maxCycles ∧
      ∀ c' d' : Cpu δ ρ, loadProgram rom c' = .ok () d' → d'.machine = d.machine) ∧
    ∀ e d, loadProgram rom c = .error e d → d = c ∧
      ((c.machine.halted = true ∧ e = .halted c.fault) ∨
        (c.machine.halted = false ∧ 3584 < rom.length ∧ ∃ m : Mishap, m.kind = .value ∧
          m.message = "ROM is " ++ Text.decimal rom.length ++ " bytes, maximum is 3584" ∧ e = .mishap m)) := by
  refine ⟨⟨?_, ?_⟩, ?_, ?_⟩
  · rintro ⟨d, hload⟩
    cases hrun : c.machine.halted with
    | true => cases (loadProgram_halted hrun rom).symm.trans hload
    | false => exact ⟨rfl, (loaded_of_ok hload).1.memory.length_le⟩
  · exact fun ⟨hrun, hsize⟩ => exists_loadProgram hrun hsize
  · intro d hload
    obtain ⟨hfresh, hfault, htrace⟩ := loaded_of_ok hload
    obtain ⟨hdevice, hrandom, hmax⟩ := made_of_loadProgram hload
    refine ⟨hfresh, hfault, by rw [htrace]; rfl, by rw [htrace]; rfl, hdevice, hrandom, hmax, fun c' d' hload' => ?_⟩
    have hstart := Machine.start_eq_ok_iff_fresh.2 hfresh
    have hstart' := Machine.start_eq_ok_iff_fresh.2 (loaded_of_ok hload').1
    exact Except.ok.inj (hstart'.symm.trans hstart)
  · intro e d hload
    obtain ⟨hsame, hhalted | ⟨hrun, hlarge, he⟩⟩ := loadProgram_eq_error_iff.1 hload
    · exact ⟨hsame, .inl hhalted⟩
    · exact ⟨hsame, .inr ⟨hrun, hlarge, _, rfl, rfl, he⟩⟩

end Chip8.Cpu
