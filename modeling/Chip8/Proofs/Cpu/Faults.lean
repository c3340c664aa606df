import Chip8.Proofs.Cpu.Step
import Chip8.Proofs.Cpu.Trace

/-!
# Faults of a step

When a step faults, with what, and what it leaves behind. `Machine.FaultsWith` lists the cases in terms of the digits
of the word at the program counter; `step_faults_iff` says that these are all there are, and that no other failure can
be met on a display with pixels. `fault_atomic` says that a step that faults has done nothing but halt.
-/

namespace Chip8

namespace Machine

variable {m : Machine}

/-! ## The cases -/

/-- Is this the word to be fetched next? -/
def Fetches (m : Machine) (word : Nat) : Prop := m.pc ≤ 0xFFD ∧ m.wordAt m.pc.toNat = word

/-- The cases in which the next step faults, family by family. -/
def FaultsWith (m : Machine) : FaultKind → Prop
  | .general => False
  | .outOfBounds =>
    0xFFD < m.pc ∨
    (∃ x y n : Nat, x < 16 ∧ y < 16 ∧ n < 16 ∧ m.Fetches (0xD000 + 0x100 * x + 0x10 * y + n) ∧
      1 ≤ n ∧ 0xFFF < m.index + n - 1) ∨
    (∃ x : Nat, x < 16 ∧ m.Fetches (0xF033 + 0x100 * x) ∧ 0xFFF < m.index + 2) ∨
    (∃ x : Nat, x < 16 ∧ (m.Fetches (0xF055 + 0x100 * x) ∨ m.Fetches (0xF065 + 0x100 * x)) ∧ 0xFFF < m.index + x)
  | .stackOverflow => (∃ nnn < 0x1000, m.Fetches (0x2000 + nnn)) ∧ m.sp = 15
  | .stackUnderflow => m.Fetches 0x00EE ∧ m.sp = -1
  | .unknownOpcode =>
    m.pc ≤ 0xFFD ∧ ∀ inst ∈ Instruction.all, Bits.and (m.wordAt m.pc.toNat) inst.mask ≠ inst.pattern
  | .invalidDigit => ∃ x < 16, m.Fetches (0xF029 + 0x100 * x) ∧ 0xF < (m.reg x).toNat

theorem Fetches.word {n : Nat} (hpc : 0 ≤ m.pc) (h : m.Fetches n) : ∃ w, m.word? = some w ∧ w.toNat = n := by
  obtain ⟨hle, rfl⟩ := h
  refine ⟨_, word?_of_le hpc hle, ?_⟩
  rw [UInt16.toNat_ofNat', Nat.mod_eq_of_lt (m.wordAt_lt _)]

theorem fetches_of_word {w : UInt16} (h : m.word? = some w) : m.Fetches w.toNat := by
  unfold word? at h
  split at h
  · next hpc =>
    refine ⟨hpc.2, ?_⟩
    rw [← Option.some.inj h, UInt16.toNat_ofNat', Nat.mod_eq_of_lt (m.wordAt_lt _)]
  · cases h

/-- What is fetched and has the digits of an operation is that operation. -/
theorem Fetches.trouble {n first bits last : Nat} (op : Op) (h : m.Fetches n) (hpc : 0 ≤ m.pc)
    (hfamily : op.family = ⟨first, bits, last⟩) (hfirst : n / 4096 = first) (hlast : n % 2 ^ bits = last) :
    ∃ w, w.toNat = n ∧ m.trouble? = m.obstacle? w op := by
  obtain ⟨w, hword, rfl⟩ := h.word hpc
  have hhas : op.family.Has w := by rw [hfamily]; exact ⟨hfirst, hlast⟩
  exact ⟨w, rfl, trouble?_of_word hword (Op.ofWord?_eq_some_iff.2 hhas)⟩

/-- An obstacle is one of the cases. -/
theorem faultsWith_of_obstacle {w : UInt16} {op : Op} {cause : FaultCause} (hword : m.word? = some w)
    (hop : op.family.Has w) (h : m.obstacle? w op = some cause) : m.FaultsWith cause.kind := by
  have hfetch := fetches_of_word hword
  obtain ⟨hfirst, hlast⟩ := hop
  have hlt := w.toNat_lt
  -- Seven operations have an obstacle. For each of them the digits of the family spell the word out.
  cases op <;> simp only [obstacle?, Option.ite_none_right_eq_some, Option.some.injEq, reduceCtorEq] at h
  all_goals obtain ⟨hcase, rfl⟩ := h
  all_goals simp only [Op.family] at hfirst hlast
  case ret =>
    refine ⟨?_, hcase⟩
    rwa [show w.toNat = 0x00EE by omega] at hfetch
  case call =>
    refine ⟨⟨Word.address w, Word.address_lt w, ?_⟩, hcase⟩
    rwa [show w.toNat = 0x2000 + Word.address w by unfold Word.address; omega] at hfetch
  case draw =>
    refine .inr (.inl ⟨Word.x w, Word.y w, Word.n w, Word.x_lt w, Word.y_lt w, Word.n_lt w, ?_, by omega, hcase.2⟩)
    rwa [show w.toNat = 0xD000 + 0x100 * Word.x w + 0x10 * Word.y w + Word.n w by
      unfold Word.x Word.y Word.n; omega] at hfetch
  case glyph =>
    refine ⟨Word.x w, Word.x_lt w, ?_, hcase⟩
    rwa [show w.toNat = 0xF029 + 0x100 * Word.x w by unfold Word.x; omega] at hfetch
  case decimal =>
    refine .inr (.inr (.inl ⟨Word.x w, Word.x_lt w, ?_, hcase⟩))
    rwa [show w.toNat = 0xF033 + 0x100 * Word.x w by unfold Word.x; omega] at hfetch
  case store =>
    refine .inr (.inr (.inr ⟨Word.x w, Word.x_lt w, .inl ?_, hcase⟩))
    rwa [show w.toNat = 0xF055 + 0x100 * Word.x w by unfold Word.x; omega] at hfetch
  case load =>
    refine .inr (.inr (.inr ⟨Word.x w, Word.x_lt w, .inr ?_, hcase⟩))
    rwa [show w.toNat = 0xF065 + 0x100 * Word.x w by unfold Word.x; omega] at hfetch

/-- What is going to stop the machine is one of the cases. -/
theorem faultsWith_of_trouble {cause : FaultCause} (hpc : 0 ≤ m.pc) (h : m.trouble? = some cause) :
    m.FaultsWith cause.kind := by
  by_cases hle : m.pc ≤ 0xFFD
  · have hword := word?_of_le hpc hle
    cases hop : Op.ofWord? (UInt16.ofNat (m.wordAt m.pc.toNat)) with
    | none =>
      obtain rfl : .noInstruction _ = cause := by simpa only [trouble?, hword, hop, Option.some.injEq] using h
      refine ⟨hle, fun inst hinst heq => Op.ofWord?_eq_none_iff.1 hop inst hinst ?_⟩
      rwa [Instruction.Covers, UInt16.toNat_ofNat', Nat.mod_eq_of_lt (m.wordAt_lt _)]
    | some op =>
      rw [trouble?_of_word hword hop] at h
      exact faultsWith_of_obstacle hword (Op.ofWord?_eq_some_iff.1 hop) h
  · obtain rfl : .fetchPastEnd m.pc = cause := by
      simpa only [trouble?, word?_of_lt (show 0xFFD < m.pc by omega), Option.some.injEq] using h
    exact .inl (by omega)

/-- Each of the cases is going to stop the machine. -/
theorem trouble_of_faultsWith {kind : FaultKind} (hpc : 0 ≤ m.pc) (h : m.FaultsWith kind) :
    ∃ cause, m.trouble? = some cause ∧ cause.kind = kind := by
  cases kind with
  | general => exact h.elim
  | outOfBounds =>
    rcases h with hlt | ⟨x, y, n, hx, hy, hn, hfetch, hrows, hcase⟩ | ⟨x, hx, hfetch, hcase⟩ | ⟨x, hx, hfetch, hcase⟩
    · exact ⟨_, by rw [trouble?, word?_of_lt hlt], rfl⟩
    · obtain ⟨w, hw, htrouble⟩ := hfetch.trouble .draw hpc rfl (by omega) (by omega)
      obtain rfl : Word.n w = n := by unfold Word.n; omega
      exact ⟨_, by rw [htrouble, obstacle?, if_pos ⟨by omega, hcase⟩], rfl⟩
    · obtain ⟨w, hw, htrouble⟩ := hfetch.trouble .decimal hpc rfl (by omega) (by omega)
      exact ⟨_, by rw [htrouble, obstacle?, if_pos hcase], rfl⟩
    · rcases hfetch with hfetch | hfetch
      · obtain ⟨w, hw, htrouble⟩ := hfetch.trouble .store hpc rfl (by omega) (by omega)
        obtain rfl : Word.x w = x := by unfold Word.x; omega
        exact ⟨_, by rw [htrouble, obstacle?, if_pos hcase], rfl⟩
      · obtain ⟨w, hw, htrouble⟩ := hfetch.trouble .load hpc rfl (by omega) (by omega)
        obtain rfl : Word.x w = x := by unfold Word.x; omega
        exact ⟨_, by rw [htrouble, obstacle?, if_pos hcase], rfl⟩
  | stackOverflow =>
    obtain ⟨⟨nnn, hnnn, hfetch⟩, hfull⟩ := h
    obtain ⟨w, -, htrouble⟩ := hfetch.trouble .call hpc rfl (by omega) (by omega)
    exact ⟨_, by rw [htrouble, obstacle?, if_pos hfull], rfl⟩
  | stackUnderflow =>
    obtain ⟨hfetch, hempty⟩ := h
    obtain ⟨w, -, htrouble⟩ := hfetch.trouble .ret hpc rfl rfl rfl
    exact ⟨_, by rw [htrouble, obstacle?, if_pos hempty], rfl⟩
  | unknownOpcode =>
    obtain ⟨hle, hnone⟩ := h
    have hop : Op.ofWord? (UInt16.ofNat (m.wordAt m.pc.toNat)) = none := by
      refine Op.ofWord?_eq_none_iff.2 fun inst hinst => ?_
      rw [Instruction.Covers, UInt16.toNat_ofNat', Nat.mod_eq_of_lt (m.wordAt_lt _)]
      exact hnone inst hinst
    exact ⟨.noInstruction _, by simp only [trouble?, word?_of_le hpc hle, hop]; rfl, rfl⟩
  | invalidDigit =>
    obtain ⟨x, hx, hfetch, hcase⟩ := h
    obtain ⟨w, hw, htrouble⟩ := hfetch.trouble .glyph hpc rfl (by omega) (by omega)
    obtain rfl : Word.x w = x := by unfold Word.x; omega
    exact ⟨_, by rw [htrouble, obstacle?, if_pos hcase], rfl⟩

theorem faultsWith_iff_trouble {kind : FaultKind} (hpc : 0 ≤ m.pc) :
    m.FaultsWith kind ↔ ∃ cause, m.trouble? = some cause ∧ cause.kind = kind := by
  constructor
  · exact trouble_of_faultsWith hpc
  · rintro ⟨cause, htrouble, rfl⟩
    exact faultsWith_of_trouble hpc htrouble

end Machine

namespace Cpu

/-! ## Faulting exactly in these cases -/

section

variable {δ ρ : Type} {c : Cpu δ ρ}

theorem opcode_located (hpc : 0 ≤ c.machine.pc) (cause : FaultCause) :
    (c.located cause).opcode =
      if c.machine.pc ≤ 0xFFD then some (c.machine.wordAt c.machine.pc.toNat : Int) else none := by
  split
  · next hle =>
    simp only [located, Machine.word?_of_le hpc hle, Option.map_some, UInt16.toNat_ofNat',
      Nat.mod_eq_of_lt (c.machine.wordAt_lt _)]
  · next hgt => simp only [located, Machine.word?_of_lt (show 0xFFD < c.machine.pc by omega), Option.map_none]

end

/-- **When a step faults.** On a display with at least one pixel and with a random number to be had, a step of a
running processor with a valid machine either completes and counts one instruction, or faults with its whole place;
no other failure is met. It faults in the cases of the list, and each time with the family of the case. -/
theorem step_faults_iff {ρ : Type} [RandomSource ρ] {c : Cpu FrameBuffer ρ} (hvalid : c.machine.validate = true)
    (hrun : c.machine.halted = false) (hwidth : 1 ≤ c.device.width) (hheight : 1 ≤ c.device.height)
    (hrandom : ∃ answer, RandomSource.next c.rig.random = .ok answer) :
    ((∃ e c', step c = .ok e c' ∧ c'.machine.cycles = c.machine.cycles + 1) ∨
      ∃ f c', step c = .error (.fault f) c' ∧ f.pc = some c.machine.pc ∧ f.opcode =
        if c.machine.pc ≤ 0xFFD then some (c.machine.wordAt c.machine.pc.toNat : Int) else none) ∧
    ∀ kind, (∃ f c', step c = .error (.fault f) c' ∧ f.kind = kind) ↔ c.machine.FaultsWith kind := by
  have hm := (Machine.validate_iff c.machine).1 hvalid
  constructor
  · cases htrouble : c.machine.trouble? with
    | some cause =>
      exact .inr ⟨_, _, step_of_trouble hm hrun htrouble, rfl, opcode_located hm.pc_nonneg cause⟩
    | none =>
      obtain ⟨w, op, reply, rig, -, -, -, -, hstep⟩ :=
        step_ok_of_sized (FrameBuffer.sized hwidth hheight) hm hrun ⟨rfl, rfl⟩ hrandom htrouble
      refine .inl ⟨_, _, hstep, ?_⟩
      rw [machine, rig_keep, ← machine, machine_executed, Machine.counted,
        (Machine.cycles_halted_effect _ w reply op).1]
  · intro kind
    rw [Machine.faultsWith_iff_trouble hm.pc_nonneg]
    constructor
    · rintro ⟨f, c', hstep, rfl⟩
      obtain ⟨cause, htrouble, rfl, -⟩ := (step_eq_fault_iff hm hrun).1 hstep
      exact ⟨cause, htrouble, rfl⟩
    · rintro ⟨cause, htrouble, rfl⟩
      exact ⟨_, _, step_of_trouble hm hrun htrouble, rfl⟩

/-- A processor about to return without a call. -/
def returning {δ : Type} (device : δ) : Cpu δ Cycle where
  rig :=
    { machine := { memory := (Array.replicate 4096 0).setIfInBounds 0x201 0xEE }
      device
      random := { numbers := #[7] } }
  trace := { limit := none }

theorem step_faults_iff_returning :
    ∃ f c', step (returning FrameBuffer.standard) = .error (.fault f) c' ∧ f.kind = .stackUnderflow := by
  have hfetches : (returning FrameBuffer.standard).machine.Fetches 0x00EE := ⟨by decide, by decide +kernel⟩
  have hcases := step_faults_iff (c := returning FrameBuffer.standard) (by decide +kernel) rfl (by decide) (by decide)
    ⟨(7, { numbers := #[7], position := 1 }), rfl⟩
  exact (hcases.2 .stackUnderflow).2 ⟨hfetches, rfl⟩

/-! ## Faulting without a trace -/

/-- **A step that faults is atomic.** Machine, device and random source are as before, but for the mark of a halted
machine; device and source were not even asked, as one that keeps count of that would show. The processor has
the fault, and a trace that is on has one more entry. -/
theorem fault_atomic {δ ρ : Type} [Device δ] [RandomSource ρ] {c c' : Cpu δ ρ} {f : Fault}
    (hvalid : c.machine.validate = true) (hrun : c.machine.halted = false) (hstep : step c = .error (.fault f) c') :
    c'.rig = { c.rig with machine := { c.machine with halted := true } } ∧ c'.fault = some f ∧
    c'.maxCycles = c.maxCycles ∧ f.pc = some c.machine.pc ∧
    (c.trace.limit = some 0 → c'.trace = c.trace) ∧
    (c.trace.limit ≠ some 0 → ∃ e, c'.trace = c.trace.push e ∧ c'.trace.entries.back? = some e ∧
      e.error = some f.text ∧ e.pc = c.machine.pc ∧ e.cycle = c.machine.cycles ∧
      e.passage = some ⟨c.machine.snapshot, { c.machine.snapshot with halted := true }⟩) := by
  have hm := (Machine.validate_iff c.machine).1 hvalid
  obtain ⟨cause, -, rfl, rfl⟩ := (step_eq_fault_iff hm hrun).1 hstep
  refine ⟨rig_stoppedBy c cause, fault_stoppedBy c cause, maxCycles_stoppedBy c cause, rfl, ?_, ?_⟩
  · intro hoff
    rw [trace_stoppedBy, if_neg (by simp [Trace.isOn, hoff])]
  · intro hon
    have hison : c.trace.isOn = true := by simp [Trace.isOn, hon]
    have htrace : (c.stoppedBy cause).trace = c.trace.push (c.faultEntry cause) := by
      rw [trace_stoppedBy, if_pos hison]
    refine ⟨c.faultEntry cause, htrace, ?_, rfl, rfl, rfl, ?_⟩
    · rw [htrace, Trace.back?_push hon]
    · simp only [faultEntry, snapshot?, hison, if_true, Option.map_some]

theorem fault_atomic_returning :
    ∃ f c', step (returning { inner := FrameBuffer.standard : Logged FrameBuffer }) = .error (.fault f) c' ∧
      c'.device.calls = #[] ∧ c'.trace.errors = [f.text] := by
  have hvalid : (returning { inner := FrameBuffer.standard : Logged FrameBuffer }).machine.validate = true := by
    decide +kernel
  have htrouble : (returning { inner := FrameBuffer.standard : Logged FrameBuffer }).machine.trouble? =
      some .stackEmpty := by decide +kernel
  have hstep := step_of_trouble ((Machine.validate_iff _).1 hvalid) rfl htrouble
  obtain ⟨hrig, -, -, -, -, htrace⟩ := fault_atomic hvalid rfl hstep
  obtain ⟨e, hpush, -, herror, -⟩ := htrace (by decide)
  refine ⟨_, _, hstep, ?_, ?_⟩
  · rw [device, hrig]
    rfl
  · rw [hpush]
    simp [Trace.errors, Trace.push, returning, herror]

end Cpu

end Chip8
