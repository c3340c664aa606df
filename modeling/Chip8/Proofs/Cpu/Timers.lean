import Chip8.Proofs.Cpu.Arithmetic
import Chip8.Proofs.Cpu.Frames
import Chip8.Proofs.Cpu.Runs

/-!
# The timers of a processor

One instruction sets the delay timer to the value of a register, and one the sound timer; no other instruction touches
them. What happens to a timer is told by the instructions that were executed and the frames that were completed, in
their order: it has been counting down by the frame since it was set last, and stops at zero (`Timer.due`). Main
statements: `timer_step`, `timer_steps` for a batch of instructions, and `timer_tickTimers` for the end of a frame.
-/

namespace Chip8

/-- The timers of a machine. -/
inductive Timer where
  | delay
  | sound
  deriving DecidableEq, Repr

/-- The operation that sets a timer. -/
def Timer.setter : Timer → Op
  | delay => .setDelay
  | sound => .setSound

/-- The last two digits of a word that sets a timer. -/
def Timer.code : Timer → Nat
  | delay => 0x15
  | sound => 0x18

/-- A word that sets the timer to a register. -/
def Word.SetsTimer (w : UInt16) (τ : Timer) : Prop := w.toNat / 0x1000 = 0xF ∧ w.toNat % 0x100 = τ.code

instance (w : UInt16) (τ : Timer) : Decidable (Word.SetsTimer w τ) := inferInstanceAs (Decidable (_ ∧ _))

theorem Word.setsTimer_iff {w : UInt16} {op : Op} {τ : Timer} (hop : Op.ofWord? w = some op) :
    Word.SetsTimer w τ ↔ op = τ.setter := by
  have hhas := Op.ofWord?_eq_some_iff.1 hop
  constructor
  · intro hsets
    cases τ <;> exact Op.eq_of_has hhas hsets
  · rintro rfl
    cases τ <;> exact hhas

namespace Machine

variable {m : Machine} {τ : Timer}

/-- A timer of the machine. -/
def timer (m : Machine) : Timer → Int
  | .delay => m.delayTimer
  | .sound => m.soundTimer

/-- What the next instruction is about to set a timer to. -/
def setsTimer? (m : Machine) (τ : Timer) : Option UInt8 :=
  m.word?.bind fun w => if Word.SetsTimer w τ then some (m.reg (Word.x w)) else none

/-- **An operation sets its own timer** to the register of its word, and leaves the other as it is. -/
theorem timer_effect (m : Machine) (w : UInt16) (r : Reply) (op : Op) (τ : Timer) :
    (m.effect w r op).timer τ = if op = τ.setter then ((m.reg (Word.x w)).toNat : Int) else m.timer τ := by
  cases op with
  | setDelay | setSound => cases τ <;> rfl
  | store => rw [effect, stored_eq]; cases τ <;> rfl
  | load => rw [effect, loaded_eq]; cases τ <;> rfl
  | awaitKey =>
    simp only [effect]
    split <;> cases τ <;> rfl
  | _ => cases τ <;> rfl

theorem timer_begun (m : Machine) (op : Op) (τ : Timer) : (m.begun op).timer τ = m.timer τ := by
  cases op <;> cases τ <;> rfl

theorem SoundApart.timer_nonneg (hm : m.SoundApart) (τ : Timer) : 0 ≤ m.timer τ := by
  cases τ with
  | delay => exact hm.delay_nonneg
  | sound => exact hm.sound_nonneg

/-- A timer at zero does not tick, so it never wraps around. -/
theorem SoundApart.timer_ticked (hm : m.SoundApart) (τ : Timer) : m.ticked.timer τ = max (m.timer τ - 1) 0 := by
  have hdown (t : Int) (hle : t ≤ 0xFF) (h : 0 ≤ t) : (if 0 < t then (t - 1) % 256 else t) = max (t - 1) 0 := by
    split <;> omega
  cases τ with
  | delay => exact hdown m.delayTimer hm.delay_le hm.delay_nonneg
  | sound => exact hdown m.soundTimer hm.sound_le hm.sound_nonneg

end Machine

/-! ## What has happened to a timer -/

namespace Timer

/-- What counts for a timer. -/
inductive Event where
  /-- An instruction was executed by a machine that was like this before. -/
  | executed (m : Machine)
  /-- A frame was completed. -/
  | frame

/-- What an event sets a timer to. -/
def Event.sets? (τ : Timer) : Event → Option UInt8
  | executed m => m.setsTimer? τ
  | frame => none

def Event.isFrame : Event → Bool
  | executed _ => false
  | frame => true

/-- What a timer was set to last. -/
def lastSet? (τ : Timer) (es : List Event) : Option UInt8 := es.reverse.findSome? (Event.sets? τ)

/-- The frames completed since a timer was set last, or all of them if it was not set. -/
def framesSince (τ : Timer) (es : List Event) : Nat :=
  (es.reverse.takeWhile fun e => (e.sets? τ).isNone).countP Event.isFrame

/-- What a timer shows after these events: what it was set to last, or what it showed before the first of them, less
the frames since then, and zero once there are as many of them. -/
def due (τ : Timer) (start : Int) (es : List Event) : Int :=
  max ((τ.lastSet? es).elim start (fun v => (v.toNat : Int)) - τ.framesSince es) 0

variable {τ : Timer} {start : Int} {es : List Event} {m : Machine}

theorem due_nil (hstart : 0 ≤ start) : τ.due start [] = start := by
  show max (start - ((0 : Nat) : Int)) 0 = start
  omega

/-- An instruction that sets the timer makes it start again. -/
theorem due_executed : τ.due start (es ++ [.executed m]) =
    (m.setsTimer? τ).elim (τ.due start es) fun v => (v.toNat : Int) := by
  rw [due, due, lastSet?, framesSince, List.reverse_append, List.reverse_singleton, List.singleton_append,
    List.findSome?_cons, List.takeWhile_cons, Event.sets?]
  cases m.setsTimer? τ with
  | none => simp [lastSet?, framesSince, Event.isFrame]
  | some v => simp

/-- A frame takes one from the timer, unless it is zero. -/
theorem due_frame : τ.due start (es ++ [.frame]) = max (τ.due start es - 1) 0 := by
  have hlast : τ.lastSet? (es ++ [.frame]) = τ.lastSet? es := by
    rw [lastSet?, List.reverse_append]
    rfl
  have hframes : τ.framesSince (es ++ [.frame]) = τ.framesSince es + 1 := by
    rw [framesSince, List.reverse_append]
    exact List.countP_cons_of_pos rfl
  rw [due, due, hlast, hframes]
  push_cast
  omega

end Timer

namespace Cpu

variable {δ ρ : Type} [Device δ] [RandomSource ρ] {c d : Cpu δ ρ} {τ : Timer}

/-! ## One step -/

/-- Only a sound machine completes a step. -/
theorem sound_of_ok {e : TraceEntry} (hm : c.machine.SoundApart) (h : step c = .ok e d) : c.machine.Sound := by
  cases hrun : c.machine.halted with
  | true => cases (step_halted hrun).symm.trans h
  | false =>
    rcases fault_or_sound hm hrun with ⟨cause, hfault⟩ | ⟨hsound, -⟩
    · cases hfault.symm.trans h
    · exact hsound

/-- **A step that completes** sets a timer if its word says so, and leaves it as it is if not. -/
theorem timer_step {e : TraceEntry} (hm : c.machine.SoundApart) (h : step c = .ok e d) (τ : Timer) :
    d.machine.timer τ = (c.machine.setsTimer? τ).elim (c.machine.timer τ) fun v => (v.toNat : Int) := by
  obtain ⟨-, w, op, reply, hword, hop, -, hmachine⟩ := executed_of_ok (sound_of_ok hm h) h
  have heffect : d.machine.timer τ = (c.machine.effect w reply op).timer τ := by
    rw [hmachine]
    cases τ <;> rfl
  rw [heffect, Machine.timer_effect, Machine.setsTimer?, hword, Option.bind_some]
  by_cases hsets : op = τ.setter
  · rw [if_pos hsets, if_pos ((Word.setsTimer_iff hop).2 hsets)]
    rfl
  · rw [if_neg hsets, if_neg (mt (Word.setsTimer_iff hop).1 hsets)]
    rfl

/-- A step that fails leaves the timers as they are. -/
theorem timer_step_error {e : Failure} (hm : c.machine.SoundApart) (h : step c = .error e d) (τ : Timer) :
    d.machine.timer τ = c.machine.timer τ := by
  have hstopped (halted : Bool) : ({ c.machine with halted } : Machine).timer τ = c.machine.timer τ := by
    cases τ <;> rfl
  cases hrun : c.machine.halted with
  | true =>
    rw [step_halted hrun] at h
    cases h
    rfl
  | false =>
    rcases fault_or_sound hm hrun with ⟨cause, hfault⟩ | ⟨hsound, -⟩
    · rw [hfault] at h
      cases h
      rw [machine, rig_stoppedBy]
      exact hstopped true
    · obtain ⟨op, halted, hmachine⟩ := machine_of_error hsound h
      rw [hmachine, ← Machine.timer_begun c.machine op]
      cases τ <;> rfl

/-- What reads the delay timer completes, with the delay timer in its register. -/
theorem step_readDelay {x : Nat} (hm : c.machine.SoundApart) (hrun : c.machine.halted = false) (hx : x < 16)
    (hword : c.machine.word? = some (.ofNat (0xF007 + 0x100 * x))) :
    ∃ e d, step c = .ok e d ∧ ((d.machine.reg x).toNat : Int) = c.machine.delayTimer := by
  obtain ⟨hop, hdigit⟩ : Op.ofWord? (.ofNat (0xF007 + 0x100 * x)) = some .readDelay ∧ _ :=
    Op.ofWord?_register hx rfl (by decide) rfl
  have hsound := hm.sound_of_word hword
  have hstep := step_of_reply hsound hrun hword hop rfl (show Rig.consult _ .readDelay c.rig = .ok {} c.rig from rfl)
  refine ⟨_, _, hstep, ?_⟩
  rw [machine, rig_keep]
  show ((((c.machine.assigned _ c.machine.delayTimer).counted).reg x).toNat : Int) = c.machine.delayTimer
  rw [hdigit, Machine.reg_assigned hsound.registers hx, if_pos rfl, Machine.toNat_ofInt,
    Int.emod_eq_of_lt hm.delay_nonneg (Int.lt_of_le_of_lt hm.delay_le (by decide))]

/-! ## Batches and frames -/

/-- The machines just before the instructions of a batch, as far as these complete. -/
def batch : Nat → Cpu δ ρ → List Machine
  | 0, _ => []
  | n + 1, c => match step c with
    | .ok _ d => c.machine :: batch n d
    | .error _ _ => []

variable {start : Int} {es : List Timer.Event}

/-- A batch sets a timer as its instructions do, by induction on their number. -/
theorem timer_steps (n : Nat) (hm : c.machine.SoundApart) (h : c.machine.timer τ = τ.due start es) :
    ((steps n).after c).machine.timer τ = τ.due start (es ++ (batch n c).map .executed) := by
  induction n generalizing c es with
  | zero => rwa [batch, List.map_nil, List.append_nil]
  | succ n ih =>
    cases hstep : step c with
    | ok e d =>
      have hafter : (steps (n + 1)).after c = (steps n).after d := by
        simp only [Act.after, steps, Act.bind_run, hstep, onward_ok]
      have hd : d.machine.SoundApart := Act.after_of_ok hstep ▸ soundApart_step hm
      have htimer : d.machine.timer τ = τ.due start (es ++ [.executed c.machine]) := by
        rw [timer_step hm hstep, Timer.due_executed, h]
      have hbatch : batch (n + 1) c = c.machine :: batch n d := by simp only [batch, hstep]
      rw [hafter, hbatch, List.map_cons, List.append_cons]
      exact ih hd htimer
    | error e d =>
      have hafter : (steps (n + 1)).after c = d := by
        simp only [Act.after, steps, Act.bind_run, hstep, onward_error]
      have hbatch : batch (n + 1) c = [] := by simp only [batch, hstep]
      rw [hafter, hbatch, List.map_nil, List.append_nil, timer_step_error hm hstep, h]

theorem keeps_steps_apart (n : Nat) :
    Act.Keeps (fun c : Cpu δ ρ => c.machine.SoundApart) (steps n : Act (Cpu δ ρ) Unit) := by
  induction n with
  | zero => exact Act.keeps_pure ()
  | succ n ih => exact Act.Keeps.bind (fun c hc => soundApart_step hc) fun _ => ih

omit [Device δ] [RandomSource ρ] in
/-- The end of a frame takes one from a timer, unless it is zero. -/
theorem timer_tickTimers (hm : c.machine.SoundApart) (h : c.machine.timer τ = τ.due start es) :
    c.tickTimers.machine.timer τ = τ.due start (es ++ [.frame]) := by
  rw [tickTimers_eq, Timer.due_frame, ← h]
  exact hm.timer_ticked τ

end Cpu

end Chip8
