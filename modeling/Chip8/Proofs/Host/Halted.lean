import Chip8.Proofs.Cpu.Faults
import Chip8.Proofs.Cpu.Kept
import Chip8.Proofs.Host.Reach

/-!
# Halted for good

A processor that a fault has halted refuses to step, to run, to load a program and to run a frame, and a host that is
to run it hands the fault back without asking its onlookers anything. None of these refusals changes anything. What is
left to do are settings and ticks of the timers and key events, so timers and keypad are all that can ever change.
Main statement: `halted_forever`.
-/

namespace Chip8

namespace Cpu

variable {δ ρ : Type} {c d : Cpu δ ρ} {f : Fault}

/-! ## Halting -/

/-- Halted, with this fault to show for it. -/
structure HaltedBy (f : Fault) (c : Cpu δ ρ) : Prop where
  halted : c.machine.halted = true
  fault : c.fault = some f

theorem HaltedBy.keep (h : c.HaltedBy f) (e : TraceEntry) : (c.keep e).HaltedBy f :=
  ⟨by rw [machine, rig_keep]; exact h.halted, by rw [fault_keep]; exact h.fault⟩

theorem haltedBy_of_abort {p : Progress} {e : Failure} (h : c.abort p e = .error (.fault f) d) : d.HaltedBy f := by
  cases e with
  | fault g =>
    simp only [abort, EStateM.Result.error.injEq, Failure.fault.injEq] at h
    obtain ⟨rfl, rfl⟩ := h
    exact HaltedBy.keep ⟨rfl, rfl⟩ _
  | halted g => cases h
  | mishap m => cases h

variable [Device δ] [RandomSource ρ]

/-- **A step that faults** leaves a processor halted by its fault, whatever the processor was. -/
theorem haltedBy_of_step (h : step c = .error (.fault f) d) : d.HaltedBy f := by
  cases hrun : c.machine.halted with
  | true =>
    rw [step_halted hrun] at h
    cases h
  | false =>
    cases hfetch : Machine.fetch c.machine with
    | error e m =>
      rw [step_of_unfetched hrun hfetch] at h
      exact haltedBy_of_abort h
    | ok w m =>
      cases hdecode : Decoder.standard.decode w.toNat with
      | error e =>
        rw [step_of_undecoded hrun hfetch hdecode] at h
        exact haltedBy_of_abort h
      | ok decoded =>
        rw [step_of_decoded hrun hfetch hdecode, executeDecoded] at h
        dsimp only at h
        split at h
        · cases h
        · exact haltedBy_of_abort h

/-! ## Refusals -/

namespace HaltedBy

theorem step (h : c.HaltedBy f) : step c = .error (.halted (some f)) c := by
  rw [step_halted h.halted, h.fault]

theorem steps (h : c.HaltedBy f) {n : Nat} (hn : 1 ≤ n) : steps n c = .error (.halted (some f)) c := by
  obtain ⟨n, rfl⟩ := Nat.exists_eq_succ_of_ne_zero (show n ≠ 0 by omega)
  rw [Cpu.steps, Act.bind_run, h.step, onward_error]

theorem run (h : c.HaltedBy f) {cycles : Option Int} (hcycles : 1 ≤ cycles.getD c.maxCycles) :
    run cycles c = .error (.halted (some f)) c := by
  rw [Cpu.run, Act.bind_run, Act.get_run, onward_ok, Act.bind_run, h.steps (by omega), onward_error]

omit [Device δ] [RandomSource ρ] in
theorem loadProgram (h : c.HaltedBy f) (rom : List UInt8) : loadProgram rom c = .error (.halted (some f)) c := by
  rw [loadProgram_halted h.halted, h.fault]

end HaltedBy

end Cpu

/-! ## What can still change -/

namespace Cpu

variable {ρ : Type} {c d e : Cpu FrameBuffer ρ} {f : Fault}

/-- The processor with other timers and another keypad. -/
def touched (c : Cpu FrameBuffer ρ) (delay sound : Int) (keypad : Keypad) : Cpu FrameBuffer ρ :=
  { c with
    rig := { c.rig with
      machine := { c.machine with delayTimer := delay, soundTimer := sound }
      device := { c.device with keypad } } }

/-- Processors that are the same but for timers and keypad. -/
def Touched (c d : Cpu FrameBuffer ρ) : Prop := ∃ delay sound keypad, d = c.touched delay sound keypad

namespace Touched

theorem refl (c : Cpu FrameBuffer ρ) : c.Touched c :=
  ⟨c.machine.delayTimer, c.machine.soundTimer, c.device.keypad, rfl⟩

theorem trans (h : c.Touched d) (h' : d.Touched e) : c.Touched e := by
  obtain ⟨_, _, _, rfl⟩ := h
  obtain ⟨delay, sound, keypad, rfl⟩ := h'
  exact ⟨delay, sound, keypad, rfl⟩

theorem haltedBy (h : c.Touched d) (hc : c.HaltedBy f) : d.HaltedBy f := by
  obtain ⟨delay, sound, keypad, rfl⟩ := h
  exact ⟨hc.halted, hc.fault⟩

theorem setDelayTimer (c : Cpu FrameBuffer ρ) (value : Int) : c.Touched (c.setDelayTimer value) :=
  ⟨value % 256, c.machine.soundTimer, c.device.keypad, rfl⟩

theorem setSoundTimer (c : Cpu FrameBuffer ρ) (value : Int) : c.Touched (c.setSoundTimer value) :=
  ⟨c.machine.delayTimer, value % 256, c.device.keypad, rfl⟩

theorem tickTimers (c : Cpu FrameBuffer ρ) : c.Touched c.tickTimers :=
  ⟨_, _, c.device.keypad, tickTimers_eq c⟩

theorem key (c : Cpu FrameBuffer ρ) (event : KeyEvent) :
    c.Touched (devicePart.put c (event.act.after c.device)) := by
  obtain ⟨keypad, hkeypad⟩ := event.exists_after_act c.device
  exact ⟨c.machine.delayTimer, c.machine.soundTimer, keypad, congrArg (devicePart.put c) hkeypad⟩

/-! ## Refusals leave it at that -/

variable [RandomSource ρ] (hc : c.HaltedBy f)
include hc

theorem keeps_step : Act.Keeps c.Touched step := by
  intro d h
  rwa [Act.after_of_error (h.haltedBy hc).step]

theorem keeps_steps (n : Nat) : Act.Keeps c.Touched (steps n) := by
  induction n with
  | zero => exact Act.keeps_pure ()
  | succ n ih => exact (keeps_step hc).bind fun _ => ih

theorem keeps_run (cycles : Option Int) : Act.Keeps c.Touched (run cycles) := by
  refine Act.keeps_get.bind fun d => ?_
  refine (keeps_steps hc _).bind fun _ => ?_
  exact Act.keeps_get.bind fun d => Act.keeps_pure _

omit [RandomSource ρ] in
theorem keeps_loadProgram (rom : List UInt8) : Act.Keeps c.Touched (loadProgram rom) := by
  intro d h
  rwa [Act.after_of_error ((h.haltedBy hc).loadProgram rom)]

end Touched

end Cpu

/-- Anything that can be done with a session: an operation, a run of its host with any onlookers, or the handing over
to another host. -/
inductive Deed (ρ ω : Type) where
  | operation (op : Operation)
  | host (k : Session.Conduct (Session FrameBuffer ρ ω)) (patience : Nat)
  | handed (host : Host) (clock : Clock) (extra : ω)

namespace Session

variable {ρ ω : Type} [RandomSource ρ] {s : Session FrameBuffer ρ ω} {c : Cpu FrameBuffer ρ} {f : Fault}

/-- The session after one deed, done or failed. -/
def did (s : Session FrameBuffer ρ ω) : Deed ρ ω → Session FrameBuffer ρ ω
  | .operation op => op.act.after s
  | .host k patience => (run k patience).after s
  | .handed host clock extra => s.handed host clock extra

/-- The session after a row of deeds. -/
def done (s : Session FrameBuffer ρ ω) (deeds : List (Deed ρ ω)) : Session FrameBuffer ρ ω := deeds.foldl did s

theorem runFrame_haltedBy (h : s.cpu.HaltedBy f) (hcycles : 1 ≤ s.host.cyclesPerFrame) :
    runFrame s = .error (.halted (some f)) s :=
  runFrame_of_error (Cpu.frame_of_error (h.steps hcycles))

omit [RandomSource ρ] in
theorem keeps_touched_within {α : Type} {act : Act (Cpu FrameBuffer ρ) α} (h : Act.Keeps c.Touched act) :
    Act.Keeps (fun t : Session FrameBuffer ρ ω => c.Touched t.cpu) (act.within cpuPart) :=
  h.within (fun _ ht => ht) fun _ _ _ ht => ht

/-- An operation on a halted processor touches timers and keypad at most. -/
theorem keeps_touched_operation (hc : c.HaltedBy f) (op : Operation) :
    Act.Keeps (fun t : Session FrameBuffer ρ ω => c.Touched t.cpu) op.act := by
  cases op with
  | load rom => exact keeps_touched_within (Cpu.Touched.keeps_loadProgram hc rom)
  | step => exact (keeps_touched_within (Cpu.Touched.keeps_step hc)).bind fun _ => Act.keeps_pure ()
  | run cycles => exact (keeps_touched_within (Cpu.Touched.keeps_run hc cycles)).bind fun _ => Act.keeps_pure ()
  | setDelay value => exact Act.keeps_modify fun t ht => ht.trans (.setDelayTimer t.cpu value)
  | setSound value => exact Act.keeps_modify fun t ht => ht.trans (.setSoundTimer t.cpu value)
  | tick => exact Act.keeps_modify fun t ht => ht.trans (.tickTimers t.cpu)
  | frame =>
    refine Act.keeps_get.bind fun t => ?_
    refine (keeps_touched_within (Cpu.Touched.keeps_steps hc _)).bind fun _ => ?_
    exact Act.keeps_modify fun t ht => ht.trans (.tickTimers t.cpu)
  | key event =>
    refine keeps_touched_within fun d hd => ?_
    rw [Act.after_within]
    exact hd.trans (.key d event)

theorem touched_did (hc : c.HaltedBy f) (hs : c.Touched s.cpu) (deed : Deed ρ ω) : c.Touched (s.did deed).cpu := by
  cases deed with
  | operation op => exact keeps_touched_operation hc op s hs
  | host k patience =>
    rw [did, Act.after_of_ok (run_halted (hs.haltedBy hc).halted k patience)]
    exact hs
  | handed host clock extra => exact hs

theorem touched_done (hc : c.HaltedBy f) (hs : c.Touched s.cpu) (deeds : List (Deed ρ ω)) :
    c.Touched (s.done deeds).cpu := by
  induction deeds generalizing s with
  | nil => exact hs
  | cons deed deeds ih => exact ih (touched_did hc hs deed)

/-- **Halted for good.** Whatever is done with a session whose processor a fault has halted, the processor stays as it
is but for its timers and the keypad. Every step, every run of at least one instruction, every loading of a program
and every frame of at least one instruction is refused with that fault, and every run of a host hands it back, whoever
is looking on; and none of these has any effect on the session at all. -/
theorem halted_forever (hhalted : s.cpu.HaltedBy f) (deeds : List (Deed ρ ω)) :
    (∃ delay sound keypad, (s.done deeds).cpu = s.cpu.touched delay sound keypad) ∧
    Cpu.step (s.done deeds).cpu = .error (.halted (some f)) (s.done deeds).cpu ∧
    (∀ cycles : Option Int, 1 ≤ cycles.getD (s.done deeds).cpu.maxCycles →
      Cpu.run cycles (s.done deeds).cpu = .error (.halted (some f)) (s.done deeds).cpu) ∧
    (∀ rom, Cpu.loadProgram rom (s.done deeds).cpu = .error (.halted (some f)) (s.done deeds).cpu) ∧
    (1 ≤ (s.done deeds).host.cyclesPerFrame →
      runFrame (s.done deeds) = .error (.halted (some f)) (s.done deeds)) ∧
    ∀ k patience, run k patience (s.done deeds) = .ok (.alreadyHalted (some f)) (s.done deeds) := by
  have htouched := touched_done hhalted (.refl s.cpu) deeds
  have hstill := htouched.haltedBy hhalted
  refine ⟨htouched, hstill.step, fun _ hcycles => hstill.run hcycles, hstill.loadProgram, ?_, ?_⟩
  · exact fun hcycles => runFrame_haltedBy hstill hcycles
  · intro k patience
    rw [run_halted hstill.halted, hstill.fault]

/-- A processor in the hands of a host. -/
def hosted (cpu : Cpu FrameBuffer Cycle) : Session FrameBuffer Cycle Unit where
  cpu
  host := { cyclesPerFrame := 10, frameRate := 60 }
  extra := ()

/-- A return without a call, and then no program is loaded any more. -/
theorem halted_forever_returning :
    ∃ f c, Cpu.step (Cpu.returning FrameBuffer.standard) = .error (.fault f) c ∧
      Cpu.loadProgram [] ((hosted c).done [.operation .tick, .operation .frame, .host {} 3]).cpu =
        .error (.halted (some f)) ((hosted c).done [.operation .tick, .operation .frame, .host {} 3]).cpu := by
  have hvalid : (Cpu.returning FrameBuffer.standard).machine.validate = true := by decide +kernel
  have htrouble : (Cpu.returning FrameBuffer.standard).machine.trouble? = some .stackEmpty := by decide +kernel
  have hfaults : ∃ f c, Cpu.step (Cpu.returning FrameBuffer.standard) = .error (.fault f) c :=
    ⟨_, _, Cpu.step_of_trouble ((Machine.validate_iff _).1 hvalid) rfl htrouble⟩
  obtain ⟨f, c, hstep⟩ := hfaults
  have hhalted : (hosted c).cpu.HaltedBy f := Cpu.haltedBy_of_step hstep
  obtain ⟨-, -, -, hloads, -⟩ := halted_forever hhalted [.operation .tick, .operation .frame, .host {} 3]
  exact ⟨f, c, hstep, hloads []⟩

end Session

end Chip8
