import Chip8.Proofs.Cpu.CallStack
import Chip8.Proofs.Cpu.Stores
import Chip8.Proofs.Cpu.Strides
import Chip8.Proofs.Program.Listing

/-!
# Listing and execution

A program can be read in two ways: listed word by word before it runs, and shown instruction by instruction in the trace
of a run. The two take different routes from bytes to text. They agree at every even place of the program for as long as
the program has not stored anything there: the bytes in memory are still those that were loaded
(`byteAt_of_untouched`), so the word that is fetched is the one that was listed, and an entry shows the disassembly of
its word. Main statement: `step_listed`.
-/

namespace Chip8

namespace Machine

/-- Without a store that covers an address, nothing was stored there last. -/
theorem lastStored?_eq_none_iff {ms : List Machine} {a : Nat} :
    lastStored? ms a = none ↔ ∀ m ∈ ms, m.storedAt? a = none := by
  rw [lastStored?, List.findSome?_eq_none_iff]
  simp only [List.mem_reverse]

end Machine

namespace Cpu

variable {δ ρ : Type} [Device δ] [RandomSource ρ] {c₀ c d : Cpu δ ρ} {ms : List Machine} {rom : List UInt8}

/-- Where no executed instruction has stored, the program is as it was loaded. -/
theorem byteAt_of_untouched (hload : loadProgram rom c₀ = .ok () c) (hruns : Runs c ms d) {i : Nat}
    (huntouched : ∀ m ∈ ms, m.storedAt? (0x200 + i) = none) :
    d.machine.byteAt (0x200 + i) = Program.byteOf rom i := by
  obtain ⟨hstart, hc⟩ := bounded_of_loadProgram hload
  rw [byteAt_runs hc hruns, Machine.lastStored?_eq_none_iff.2 huntouched, Option.getD_none,
    Machine.byteAt_start hstart]

/-- The word that is about to be fetched from an untouched place is the word listed for it. -/
theorem word?_of_untouched (hload : loadProgram rom c₀ = .ok () c) (hruns : Runs c ms d) {k : Nat}
    (hpc : d.machine.pc = 0x200 + 2 * k) (hlast : d.machine.pc ≤ 0xFFD)
    (huntouched : ∀ m ∈ ms, m.storedAt? (0x200 + 2 * k) = none ∧ m.storedAt? (0x200 + 2 * k + 1) = none) :
    d.machine.word? =
      some (Program.wordOfBytes (Program.byteOf rom (2 * k)) (Program.byteOf rom (2 * k + 1))) := by
  have hfirst := byteAt_of_untouched hload hruns fun m hm => (huntouched m hm).1
  have hsecond := byteAt_of_untouched (i := 2 * k + 1) hload hruns fun m hm => (huntouched m hm).2
  have haddress : d.machine.pc.toNat = 0x200 + 2 * k := by omega
  rw [Machine.word?_of_le (by omega) hlast, haddress, Machine.wordAt, hfirst, ← hsecond]
  rfl

/-- **Listing and execution agree.** In any run from a loaded program, with a trace that keeps entries, let a step be
taken at an even distance from the start of the program, where the program has a byte and a word can be fetched, and
let no executed instruction have stored at this address or the next. Then the row of the listing at this distance has
the address of the step, and the word and the text of the entry that the step adds to the trace, whether it completes
or faults. -/
theorem step_listed (hload : loadProgram rom c₀ = .ok () c) (hruns : Runs c ms d) (hon : d.trace.limit ≠ some 0)
    {k : Nat} (hk : 2 * k < rom.length) (hpc : d.machine.pc = 0x200 + 2 * k) (hlast : d.machine.pc ≤ 0xFFD)
    (huntouched : ∀ m ∈ ms, m.storedAt? (0x200 + 2 * k) = none ∧ m.storedAt? (0x200 + 2 * k + 1) = none) :
    ∃ rows row, Program.listing Decoder.standard rom 0x200 = .ok rows ∧ rows[k]? = some row ∧
      row.address = d.machine.pc ∧
      (∀ e d', step d = .ok e d' → d'.trace.entries.back? = some e ∧
        e.pc = row.address ∧ e.word = some row.word ∧ e.instruction = row.text) ∧
      ∀ f d', step d = .error (.fault f) d' → ∃ e, d'.trace.entries.back? = some e ∧
        e.pc = row.address ∧ e.word = some row.word ∧ e.instruction = row.text ∧ e.error = some f.text := by
  obtain ⟨rows, hlisting, -, hrows⟩ := Program.listing_standard rom 0x200
  obtain ⟨row, hrow, hshows⟩ := hrows k hk
  have haddress : row.address = d.machine.pc := hshows.address.trans hpc.symm
  have hword := word?_of_untouched hload hruns hpc hlast huntouched
  have hm := (keeps_runs (bounded_of_loadProgram hload).2 hruns).machine.toSound.apart
  -- Both kinds of step are strides, and the entry of a stride shows the word that was fetched.
  have hentry {t : Stride} (ht : d.stride? = some t) : d.Strides t (step.after d) ∧
      (step.after d).trace.entries.back? = some t.entry ∧ t.entry.pc = row.address ∧
      t.entry.word = some row.word ∧ t.entry.instruction = row.text := by
    have hstrides := strides_of_stride? hm (by simpa [Trace.isOn] using hon) ht
    have hfetched : t.entry.word = some row.word := by
      rw [hshows.word, ← hword, ← hstrides.before]
      rfl
    refine ⟨hstrides, ?_, ?_, hfetched, ?_⟩
    · rw [hstrides.trace, Trace.back?_push hon]
    · rw [haddress, ← hstrides.before]
      rfl
    · have htext := t.disassemble_word hfetched
      rw [hshows.word, hshows.text] at htext
      exact (Except.ok.inj htext).symm
  refine ⟨rows, row, hlisting, hrow, haddress, ?_, ?_⟩
  · intro e d' hstep
    obtain ⟨hstrides, hshown⟩ := hentry (stride?_of_ok hstep)
    rw [Act.after_of_ok hstep] at hshown
    rw [hstrides.handed e d' hstep]
    exact hshown
  · intro f d' hstep
    obtain ⟨-, hback, hpc', hword', htext⟩ := hentry (stride?_of_fault hstep)
    rw [Act.after_of_error hstep] at hback
    exact ⟨_, hback, hpc', hword', htext, rfl⟩

/-- A program of three bytes. Its store covers an address outside the program, and its last word is no instruction. -/
def trailing : Cpu FrameBuffer Cycle := (loadProgram [0xF0, 0x55, 0xFF]).after idle

theorem step_listed_trailing :
    ∃ d f d' e, Runs trailing [trailing.machine] d ∧ d.machine.pc = 0x202 ∧ step d = .error (.fault f) d' ∧
      d'.trace.entries.back? = some e ∧ e.word = some 0xFF00 ∧ e.instruction = "DW 0xFF00" := by
  obtain ⟨_, hload⟩ :=
    Act.ok_of_answer (show ((loadProgram [0xF0, 0x55, 0xFF]).answer idle).isOk = true by decide +kernel)
  obtain ⟨_, hstore⟩ := Act.ok_of_answer (show (step.answer trailing).isOk = true by decide +kernel)
  have hruns : Runs trailing [trailing.machine] (step.after trailing) := Runs.start.executed hstore
  have hsound := (keeps_runs (bounded_of_loadProgram hload).2 hruns).machine.toSound
  obtain ⟨hpc, hrun, hlimit, htrouble⟩ :
      (step.after trailing).machine.pc = 0x202 ∧ (step.after trailing).machine.halted = false ∧
        (step.after trailing).trace.limit = none ∧
        (step.after trailing).machine.trouble? = some (.noInstruction 0xFF00) := by decide +kernel
  have hfault := step_of_trouble hsound hrun htrouble
  have huntouched : ∀ m ∈ [trailing.machine],
      m.storedAt? (0x200 + 2 * 1) = none ∧ m.storedAt? (0x200 + 2 * 1 + 1) = none := by decide +kernel
  have hlisting : Program.listing Decoder.standard [0xF0, 0x55, 0xFF] 0x200 =
      .ok [⟨0x200, 0xF055, "LD [I], V0"⟩, ⟨0x202, 0xFF00, "DW 0xFF00"⟩] := by decide +kernel
  obtain ⟨rows, row, hrows, hrow, -, -, hlaw⟩ := step_listed hload hruns (by rw [hlimit]; decide) (by decide)
    (by rw [hpc]; decide) (by rw [hpc]; decide) huntouched
  obtain ⟨e, hback, -, hword, htext, -⟩ := hlaw _ _ hfault
  obtain rfl := Except.ok.inj (hrows.symm.trans hlisting)
  obtain rfl := Option.some.inj hrow
  exact ⟨_, _, _, e, hruns, hpc, hfault, hback, hword, htext⟩

end Cpu

end Chip8
