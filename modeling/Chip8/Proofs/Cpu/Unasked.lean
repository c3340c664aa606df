import Chip8.Proofs.Cpu.Handling
import Chip8.Proofs.Rig.Abreast
import Mathlib.Logic.Function.Iterate

/-!
# What a program does not ask for

Keys and random numbers reach a program through four instructions only: EX9E, EXA1, FX0A and CXNN. Two processors with
the same machine and the same picture, but any keypads, any random sources and any key events in between, stay side by
side as long as none of the four is executed. And the random source goes on by one number for each CXNN, and for
nothing else. Main statement: `unseen_unless_asked`.
-/

namespace Chip8

open Act

/-! ## What is asked for -/

/-- Is the next instruction one of EX9E, EXA1, FX0A and CXNN? -/
def Machine.asks (m : Machine) : Bool :=
  m.drawsNumber || m.fetched?.any fun w =>
    w.toNat / 0x1000 == 0xE && (w.toNat % 0x100 == 0x9E || w.toNat % 0x100 == 0xA1) ||
      w.toNat / 0x1000 == 0xF && w.toNat % 0x100 == 0x0A

/-- What is decoded from the next word asks only if the machine does. -/
theorem Machine.asks_of_decode {m m' : Machine} {w : UInt16} {decoded : Decoded} (hrun : m.halted = false)
    (hfetch : fetch m = .ok w m') (hdecode : Decoder.standard.decode w.toNat = .ok decoded) (hasks : m.asks = false) :
    decoded.instruction.op.asks = false := by
  obtain ⟨⟨hfirst, hlast⟩, -⟩ := Decoder.has_of_decode hdecode
  simp only [asks, drawsNumber, fetched?_of_fetch hrun hfetch, Option.any_some, Bool.or_eq_false_iff,
    Bool.and_eq_false_iff, beq_eq_false_iff_ne] at hasks
  cases hop : decoded.instruction.op with
  | skipKey | skipNoKey | awaitKey | random =>
    rw [hop] at hfirst hlast
    simp only [Op.family, Nat.reducePow] at hfirst hlast
    omega
  | _ => rfl

namespace Cpu

variable {ρ : Type} {c d : Cpu FrameBuffer ρ}

/-! ## Processors side by side -/

/-- Processors side by side: the same machine, the same picture and the same fault. -/
structure Abreast (c d : Cpu FrameBuffer ρ) : Prop where
  rig : c.rig.Abreast d.rig
  fault : c.fault = d.fault

namespace Abreast

theorem machine (h : c.Abreast d) : c.machine = d.machine := h.rig.machine

theorem withMachine (h : c.Abreast d) (m : Machine) : (c.withMachine m).Abreast (d.withMachine m) :=
  ⟨⟨rfl, h.rig.picture⟩, h.fault⟩

theorem withKeypad (h : c.Abreast d) (keypad keypad' : Keypad) :
    (devicePart.put c { c.device with keypad }).Abreast (devicePart.put d { d.device with keypad := keypad' }) :=
  ⟨⟨h.rig.machine, h.rig.picture.width, h.rig.picture.height, h.rig.picture.rows⟩, h.fault⟩

theorem keep (h : c.Abreast d) (e e' : TraceEntry) : (c.keep e).Abreast (d.keep e') :=
  ⟨by rw [rig_keep, rig_keep]; exact h.rig, by rw [fault_keep, fault_keep]; exact h.fault⟩

theorem halt (h : c.Abreast d) (f : Fault) : (c.halt f).Abreast (d.halt f) := by
  refine ⟨⟨?_, h.rig.picture⟩, rfl⟩
  show { c.machine with halted := true } = { d.machine with halted := true }
  rw [h.machine]

theorem abort (h : c.Abreast d) {p q : Progress} (hpc : q.pc = p.pc) (hword : q.word = p.word) (e : Failure) :
    (Act.after (fun c => c.abort p e) c).Abreast (Act.after (fun d => d.abort q e) d) := by
  cases e with
  | fault f =>
    simp only [Act.after, Cpu.abort, hpc, hword]
    exact (h.halt _).keep _ _
  | halted f => exact h
  | mishap m => exact h

variable [RandomSource ρ]

theorem executeDecoded (h : c.Abreast d) {p q : Progress} (hpc : q.pc = p.pc) (hword : q.word = p.word)
    {decoded : Decoded} (hasks : decoded.instruction.op.asks = false) :
    (Act.after (fun c => c.executeDecoded p decoded) c).Abreast
      (Act.after (fun d => d.executeDecoded q decoded) d) := by
  rcases (Rig.Abreast.execute hasks decoded.args c.rig d.rig h.rig).cases with
    ⟨_, r, s, hr, hs, hrig⟩ | ⟨e, r, s, hr, hs, hrig⟩
  · simp only [Act.after, Cpu.executeDecoded, note, hr, hs, complete]
    exact keep (c := { c.note (.executing p.pc decoded) with rig := r })
      (d := { d.note (.executing q.pc decoded) with rig := s }) ⟨hrig, h.fault⟩ _ _
  · have hfailed : Abreast { c.note (.executing p.pc decoded) with rig := r }
        { d.note (.executing q.pc decoded) with rig := s } := ⟨hrig, h.fault⟩
    have habort := hfailed.abort (p := { p with decoded := some decoded }) (q := { q with decoded := some decoded })
      hpc hword e
    simpa only [Act.after, Cpu.executeDecoded, note, hr, hs] using habort

/-- **A step that asks for nothing** leaves processors side by side that were so before. -/
theorem after_step (h : c.Abreast d) (hasks : c.machine.asks = false) :
    (step.after c).Abreast (step.after d) := by
  by_cases hhalted : c.machine.halted = true
  · rw [Act.after_of_error (step_halted hhalted), Act.after_of_error (step_halted (h.machine ▸ hhalted))]
    exact h
  have hrun : c.machine.halted = false := by simpa using hhalted
  have hrun' : d.machine.halted = false := h.machine ▸ hrun
  have hpc : d.machine.pc = c.machine.pc := congrArg Machine.pc h.machine.symm
  cases hfetch : Machine.fetch c.machine with
  | error e m =>
    have hfetch' : Machine.fetch d.machine = .error e m := h.machine ▸ hfetch
    simp only [Act.after, step_of_unfetched hrun hfetch, step_of_unfetched hrun' hfetch']
    refine (h.withMachine m).abort ?_ ?_ e
    · exact hpc
    · rfl
  | ok w m =>
    have hfetch' : Machine.fetch d.machine = .ok w m := h.machine ▸ hfetch
    cases hdecode : Decoder.standard.decode w.toNat with
    | error e =>
      simp only [Act.after, step_of_undecoded hrun hfetch hdecode, step_of_undecoded hrun' hfetch' hdecode]
      refine (h.withMachine m).abort ?_ ?_ e
      · exact hpc
      · rfl
    | ok decoded =>
      simp only [Act.after, step_of_decoded hrun hfetch hdecode, step_of_decoded hrun' hfetch' hdecode]
      refine (h.withMachine m).executeDecoded ?_ ?_ (Machine.asks_of_decode hrun hfetch hdecode hasks)
      · exact hpc
      · rfl

/-! ## Side by side through a row of handlings -/

theorem after_handling (h : c.Abreast d) {handling : Handling} (hasks : handling = .step → c.machine.asks = false) :
    (handling.act.after c).Abreast (handling.act.after d) := by
  cases handling with
  | load rom =>
    have hhalted : d.machine.halted = c.machine.halted := congrArg Machine.halted h.machine.symm
    simp only [Act.after, Handling.act, loadProgram, hhalted]
    cases c.machine.halted with
    | true => exact h
    | false =>
      cases Machine.start rom with
      | error m => exact h
      | ok machine => exact ⟨⟨rfl, h.rig.picture⟩, rfl⟩
  | step =>
    rw [Handling.after_step, Handling.after_step]
    exact h.after_step (hasks rfl)
  | setDelay value =>
    exact ⟨⟨congrArg (fun m : Machine => { m with delayTimer := value % 256 }) h.machine, h.rig.picture⟩, h.fault⟩
  | setSound value =>
    exact ⟨⟨congrArg (fun m : Machine => { m with soundTimer := value % 256 }) h.machine, h.rig.picture⟩, h.fault⟩
  | tick =>
    have htick (e : Cpu FrameBuffer ρ) : Handling.tick.act.after e = e.withMachine e.machine.ticked := tickTimers_eq e
    rw [htick, htick, h.machine]
    exact h.withMachine _
  | key event =>
    obtain ⟨keypad, hkeypad⟩ := event.exists_after_act c.device
    obtain ⟨keypad', hkeypad'⟩ := event.exists_after_act d.device
    rw [Handling.after_key, Handling.after_key, hkeypad, hkeypad']
    exact h.withKeypad keypad keypad'

end Abreast

end Cpu

/-- Rows of handlings that are the same but for the key events in them. -/
inductive Handling.SameButKeys : List Handling → List Handling → Prop where
  | nil : SameButKeys [] []
  | left (event : KeyEvent) {hs hs' : List Handling} : SameButKeys hs hs' → SameButKeys (.key event :: hs) hs'
  | right (event : KeyEvent) {hs hs' : List Handling} : SameButKeys hs hs' → SameButKeys hs (.key event :: hs')
  | both (h : Handling) {hs hs' : List Handling} : SameButKeys hs hs' → SameButKeys (h :: hs) (h :: hs')

namespace Cpu

variable {ρ : Type} [RandomSource ρ] {c d : Cpu FrameBuffer ρ} {hs hs' : List Handling}

/-- None of the steps in a row of handlings executes an instruction that asks for keys or for a random number. -/
def Unasked (c : Cpu FrameBuffer ρ) : List Handling → Prop
  | [] => True
  | h :: hs => (h = .step → c.machine.asks = false) ∧ (h.act.after c).Unasked hs

theorem Abreast.handled (h : c.Abreast d) (hsame : Handling.SameButKeys hs hs') (hunasked : c.Unasked hs) :
    (c.handled hs).Abreast (d.handled hs') := by
  induction hsame generalizing c d with
  | nil => exact h
  | left event _ ih =>
    obtain ⟨keypad, hkeypad⟩ := event.exists_after_act c.device
    have hleft : ((Handling.key event).act.after c).Abreast d := by
      rw [Handling.after_key, hkeypad]
      exact h.withKeypad keypad d.device.keypad
    exact ih hleft hunasked.2
  | right event _ ih =>
    obtain ⟨keypad, hkeypad⟩ := event.exists_after_act d.device
    have hright : c.Abreast ((Handling.key event).act.after d) := by
      rw [Handling.after_key, hkeypad]
      exact h.withKeypad c.device.keypad keypad
    exact ih hright hunasked
  | both handling _ ih => exact ih (h.after_handling hunasked.1) hunasked.2

end Cpu

/-! ## Counting random numbers -/

/-- The source after one more number, or as it is if there is none to be had. -/
def RandomSource.rest {ρ : Type} [RandomSource ρ] (r : ρ) : ρ :=
  match next r with
  | .ok (_, r) => r
  | .error _ => r

/-- CXNN takes one number, whatever becomes of it. -/
theorem Rig.random_execute {δ ρ : Type} [Device δ] [RandomSource ρ] (w : UInt16) (r : Rig δ ρ) :
    ((execute .random (Op.args .random w)).after r).random = RandomSource.rest r.random := by
  cases hnext : RandomSource.next r.random with
  | error m =>
    simp [Act.after, execute, perform, assignRandom, Op.args, Arguments.two, draw, hnext, RandomSource.rest]
  | ok answer =>
    obtain ⟨n, random⟩ := answer
    let assigned : Act (Rig δ ρ) Unit := do
      onMachine (Machine.assign (Word.x w) (Bits.and n (Word.byte w)))
      onMachine Machine.countCycle
    have hdrawn : execute .random (Op.args .random w) r = assigned { r with random } := by
      simp [assigned, execute, perform, assignRandom, Op.args, Arguments.two, draw, hnext]
    have hkept : Act.Keeps (fun s : Rig δ ρ => s.random = random) assigned :=
      ((kept_random (· = random)).onMachine _).bind fun _ => (kept_random (· = random)).onMachine _
    have hrest : RandomSource.rest r.random = random := by simp only [RandomSource.rest, hnext]
    rw [hrest]
    simpa only [Act.after, hdrawn] using hkept { r with random } rfl

namespace Cpu

variable {ρ : Type} [RandomSource ρ] {c d : Cpu FrameBuffer ρ} {hs : List Handling}

theorem random_executeDecoded (c : Cpu FrameBuffer ρ) (p : Progress) (decoded : Decoded) :
    (Act.after (fun c => c.executeDecoded p decoded) c).rig.random =
      ((Rig.execute decoded.instruction.op decoded.args).after c.rig).random := by
  cases hexecute : Rig.execute decoded.instruction.op decoded.args c.rig with
  | ok _ rig => simp only [Act.after, executeDecoded, note, hexecute, complete, rig_keep]
  | error e rig =>
    have habort := (Rig.kept_random (· = rig.random)).abort { p with decoded := some decoded } e
      { c.note (.executing p.pc decoded) with rig } rfl
    simpa only [Act.after, executeDecoded, note, hexecute] using habort

theorem random_step_of_draws (hdraws : c.machine.drawsNumber = true) :
    (step.after c).rig.random = RandomSource.rest c.rig.random := by
  obtain ⟨w, hword, hfirst⟩ : ∃ w, c.machine.fetched? = some w ∧ w.toNat / 0x1000 = 0xC := by
    simpa [Machine.drawsNumber, Option.any_eq_true] using hdraws
  obtain ⟨hrun, m, hfetch⟩ := Machine.fetch_of_fetched? hword
  have hop : Op.ofWord? w = some .random := Op.ofWord?_eq_some_iff.2 ⟨hfirst, Nat.mod_one _⟩
  obtain ⟨inst, hinst, hdecode⟩ := Decoder.decode_standard hop
  simp only [Act.after, step_of_decoded hrun hfetch hdecode]
  refine (random_executeDecoded _ _ _).trans ?_
  rw [hinst]
  exact Rig.random_execute w _

/-- Is the handling a step that executes CXNN? -/
def draws (c : Cpu FrameBuffer ρ) (h : Handling) : Bool := h == .step && c.machine.drawsNumber

/-- How often CXNN is executed in a row of handlings. -/
def drawCount (c : Cpu FrameBuffer ρ) : List Handling → Nat
  | [] => 0
  | h :: hs => (if c.draws h then 1 else 0) + (h.act.after c).drawCount hs

/-- One handling takes one random number if it executes CXNN, and else none. -/
theorem random_after_handling (c : Cpu FrameBuffer ρ) (h : Handling) :
    (h.act.after c).rig.random = if c.draws h then RandomSource.rest c.rig.random else c.rig.random := by
  split
  · next hdraws =>
    obtain ⟨hstep, hnumber⟩ : h = .step ∧ c.machine.drawsNumber = true := by simpa [draws] using hdraws
    rw [hstep, Handling.after_step]
    exact random_step_of_draws hnumber
  · next hdraws =>
    refine (Rig.kept_random (· = c.rig.random)).after_handling ?_ (fun _ _ => rfl) rfl
    intro hstep hnumber
    exact absurd (show c.draws h = true by simp [draws, hstep, hnumber]) hdraws

theorem random_handled (c : Cpu FrameBuffer ρ) (hs : List Handling) :
    (c.handled hs).rig.random = RandomSource.rest^[c.drawCount hs] c.rig.random := by
  induction hs generalizing c with
  | nil => rfl
  | cons h hs ih =>
    show ((h.act.after c).handled hs).rig.random = _
    rw [ih, random_after_handling, drawCount, Nat.add_comm]
    split
    · rw [Function.iterate_succ_apply]
    · rfl

/-- **Keys and random numbers are seen by those who ask.** Processors with the same machine, picture and fault, but any
keypads and random sources, have the same machine, picture and fault after any handlings that are the same but for key
events, as long as no step executes EX9E, EXA1, FX0A or CXNN. And whatever is done to a processor, its random source
goes on by one number for each CXNN executed, and by no other. -/
theorem unseen_unless_asked :
    (∀ (c d : Cpu FrameBuffer ρ) (hs hs' : List Handling), c.Abreast d → Handling.SameButKeys hs hs' → c.Unasked hs →
      (c.handled hs).Abreast (d.handled hs')) ∧
    ∀ (c : Cpu FrameBuffer ρ) (hs : List Handling),
      (c.handled hs).rig.random = RandomSource.rest^[c.drawCount hs] c.rig.random :=
  ⟨fun _ _ _ _ habreast hsame hunasked => habreast.handled hsame hunasked, random_handled⟩

/-- A processor about to draw a random number, after a jump to it. -/
def rolling (keypad : Keypad) (random : Cycle) : Cpu FrameBuffer Cycle where
  rig :=
    { machine := { memory := Machine.startMemory [0x12, 0x04, 0x00, 0x00, 0xC0, 0xFF] }
      device := { FrameBuffer.standard with keypad }
      random }
  trace := { limit := none }

/-- The jump is the same with a key held and another source, and the number after it is the first of the source. -/
theorem unseen_unless_asked_rolling :
    ((rolling {} { numbers := #[7] }).handled [.key (.press 5), .step]).Abreast
        ((rolling { held := 4, active := some 2 } { numbers := #[9] }).handled [.step]) ∧
      ((rolling {} { numbers := #[7] }).handled [.step, .step, .load []]).rig.random =
        { numbers := #[7], position := 1 } := by
  obtain ⟨habreast, hrandom⟩ := @unseen_unless_asked Cycle _
  constructor
  · refine habreast _ _ _ _ ⟨⟨rfl, rfl, rfl, rfl⟩, rfl⟩ (.left _ (.both _ .nil)) ⟨?_, ?_, trivial⟩
    · intro hstep
      cases hstep
    · intro _
      decide +kernel
  · have hcount : (rolling {} { numbers := #[7] }).drawCount [.step, .step, .load []] = 1 := by decide +kernel
    rw [hrandom, hcount]
    rfl

end Cpu

end Chip8
