import Chip8.Proofs.Machine.CallStack

/-!
# Machines without their timers

Two machines that are the same but for their timers stay so, whatever operation they carry out, as long as none of them
reads the delay timer. Main statements: `likeness_butTimers`, and `ButTimers.respects_call` and
`ButTimers.respects_ret` for the two operations of which a likeness says nothing.
-/

namespace Chip8.Machine

open Act

/-- The machine with both timers at zero. -/
def untimed (m : Machine) : Machine := { m with delayTimer := 0, soundTimer := 0 }

/-- The same but for the timers. -/
def ButTimers (m n : Machine) : Prop := n.untimed = m.untimed

namespace ButTimers

variable {m n : Machine}

/-- What does not read the timers is the same. -/
theorem agree {α : Type} {f : Machine → α} (h : m.ButTimers n) (hf : ∀ m, f m.untimed = f m) : f n = f m := by
  rw [← hf n, ← hf m, h]

/-- What neither reads nor sets the timers leaves the machines the same. -/
theorem map {f : Machine → Machine} (h : m.ButTimers n) (hf : ∀ m, f m.untimed = (f m).untimed) :
    (f m).ButTimers (f n) :=
  h.agree (f := fun m => (f m).untimed) fun m => by rw [← hf m]; exact (hf m.untimed).symm

theorem halted_eq (h : m.ButTimers n) : n.halted = m.halted := h.agree (f := fun m => m.halted) fun _ => rfl

theorem pc_eq (h : m.ButTimers n) : n.pc = m.pc := h.agree (f := fun m => m.pc) fun _ => rfl

theorem sp_eq (h : m.ButTimers n) : n.sp = m.sp := h.agree (f := fun m => m.sp) fun _ => rfl

theorem stack_eq (h : m.ButTimers n) : n.stack = m.stack := h.agree (f := fun m => m.stack) fun _ => rfl

theorem withStack (h : m.ButTimers n) (stack : Array Int) : ButTimers { m with stack } { n with stack } :=
  h.map (f := fun m => { m with stack }) fun _ => rfl

theorem withSp (h : m.ButTimers n) (sp : Int) : ButTimers { m with sp } { n with sp } :=
  h.map (f := fun m => { m with sp }) fun _ => rfl

end ButTimers

/-- Being the same but for the timers is a likeness. -/
theorem likeness_butTimers : Likeness ButTimers where
  memory h := h.agree (f := fun m => m.memory) fun _ => rfl
  registers h := h.agree (f := fun m => m.registers) fun _ => rfl
  index h := h.agree (f := fun m => m.index) fun _ => rfl
  pc h := h.pc_eq
  withMemory memory h := h.map (f := fun m => { m with memory }) fun _ => rfl
  withRegisters registers h := h.map (f := fun m => { m with registers }) fun _ => rfl
  withIndex index h := h.map (f := fun m => { m with index }) fun _ => rfl
  withPc pc h := h.map (f := fun m => { m with pc }) fun _ => rfl
  withDelay _ h := h
  withSound _ h := h
  counted h := h.map (f := fun m => { m with cycles := m.cycles + 1 }) fun _ => rfl

namespace ButTimers

theorem respects_push (address : Int) : Respects ButTimers (push address) := by
  intro m n h
  have hsp := h.sp_eq
  by_cases hfull : m.sp = 15
  · rw [push_full hfull, push_full (hsp.trans hfull), h.pc_eq]
    exact .error _ h
  · have hmoved := h.withSp (m.sp + 1)
    cases hwrite : Cells.write .noEntryToWrite m.stack (m.sp + 1) (address % 65536) with
    | ok stack => simpa [push, hfull, hsp, h.stack_eq, hwrite] using Same.ok () (hmoved.withStack stack)
    | error e => simpa [push, hfull, hsp, h.stack_eq, hwrite] using Same.error (.mishap e) hmoved

theorem respects_pop : Respects ButTimers pop := by
  intro m n h
  have hsp := h.sp_eq
  by_cases hempty : m.sp = -1
  · rw [pop_empty hempty, pop_empty (hsp.trans hempty), h.pc_eq]
    exact .error _ h
  · cases hread : Cells.read .noEntryToRead m.stack m.sp with
    | ok address => simpa [pop, hempty, hsp, h.stack_eq, hread] using Same.ok address (h.withSp (m.sp - 1))
    | error e => simpa [pop, hempty, hsp, h.stack_eq, hread] using Same.error (.mishap e) h

theorem respects_call (args : List Int) : Respects ButTimers (call args) := by
  refine respects_get_bind fun m n h => ?_
  rw [h.pc_eq]
  refine (respects_push _).bind (fun _ => ?_) m n h
  exact (respects_ofExcept _).bind fun address => likeness_butTimers.setPc address

theorem respects_ret : Respects ButTimers ret := respects_pop.bind fun address => likeness_butTimers.setPc address

end ButTimers

end Chip8.Machine
