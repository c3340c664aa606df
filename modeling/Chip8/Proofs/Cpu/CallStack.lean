import Chip8.Proofs.Cpu.Alike
import Chip8.Proofs.Cpu.Runs

/-!
# Calls and returns over a run

What a run makes of the stack is a list that starts empty: an executed call appends the address after it, an executed
return takes the last one off (`pushdown`). The stack holds sixteen addresses, and in a run that started with a program
none of them is changed by being stored in sixteen bits. Between a call and its return the calls and returns are
matched among themselves, so that the list comes back to what it was (`foldl_balanced`) and the return goes to the
address after its call. Main statement: `callStack_pushdown`.
-/

namespace Chip8

namespace Op

theorem ofWord?_eq_call_iff {w : UInt16} : ofWord? w = some .call ↔ w.toNat / 0x1000 = 2 := by
  rw [ofWord?_eq_some_iff]
  simp [family, Family.Has, Nat.mod_one]

theorem ofWord?_eq_ret_iff {w : UInt16} : ofWord? w = some .ret ↔ w.toNat = 0x00EE := by
  rw [ofWord?_eq_some_iff]
  simp only [family, Family.Has]
  omega

end Op

namespace Machine

variable {m : Machine}

/-! ## The list of a run -/

/-- Is the next word a call, 2NNN? -/
def calls (m : Machine) : Bool := m.word?.any fun w => w.toNat / 0x1000 == 2

/-- Is the next word a return, 00EE? -/
def returns (m : Machine) : Bool := m.word? == some 0x00EE

/-- The list of return addresses after the next instruction. -/
def afterCall (stack : List Int) (m : Machine) : List Int :=
  if m.calls then stack ++ [m.pc + 2] else if m.returns then stack.dropLast else stack

/-- The list of return addresses after a row of instructions. -/
def pushdown (ms : List Machine) : List Int := ms.foldl afterCall []

theorem pushdown_concat (ms : List Machine) (m : Machine) : pushdown (ms ++ [m]) = afterCall (pushdown ms) m := by
  rw [pushdown, List.foldl_append]
  rfl

theorem calls_iff {w : UInt16} {op : Op} (hword : m.word? = some w) (hop : Op.ofWord? w = some op) :
    m.calls = true ↔ op = .call := by
  have hcalls : m.calls = true ↔ w.toNat / 0x1000 = 2 := by simp [calls, hword]
  rw [hcalls, ← Op.ofWord?_eq_call_iff, hop, Option.some_inj]

theorem returns_iff {w : UInt16} {op : Op} (hword : m.word? = some w) (hop : Op.ofWord? w = some op) :
    m.returns = true ↔ op = .ret := by
  have hreturns : m.returns = true ↔ w.toNat = 0x00EE := by simp [returns, hword, ← UInt16.toNat_inj]
  rw [hreturns, ← Op.ofWord?_eq_ret_iff, hop, Option.some_inj]

theorem trouble?_of_calls (h : m.calls = true) : m.trouble? = if m.sp = 15 then some .stackFull else none := by
  obtain ⟨w, hword, hcall⟩ : ∃ w, m.word? = some w ∧ w.toNat / 0x1000 = 2 := by
    simpa [calls, Option.any_eq_true] using h
  rw [trouble?_of_word hword (Op.ofWord?_eq_call_iff.2 hcall)]
  rfl

theorem trouble?_of_returns (h : m.returns = true) : m.trouble? = if m.sp = -1 then some .stackEmpty else none := by
  have hword : m.word? = some 0x00EE := by simpa [returns] using h
  rw [trouble?_of_word hword (Op.ofWord?_eq_ret_iff.2 rfl)]
  rfl

theorem calls_of_returns (h : m.returns = true) : m.calls = false := by
  have hword : m.word? = some 0x00EE := by simpa [returns] using h
  simp [calls, hword]

theorem afterCall_of_returns (h : m.returns = true) (stack : List Int) : afterCall stack m = stack.dropLast := by
  rw [afterCall, if_neg (by simp [calls_of_returns h]), if_pos h]

/-! ## One instruction -/

/-- What an executed instruction does to the list of return addresses. -/
theorem live_executed (hm : m.Bounded) {w : UInt16} {op : Op} (hword : m.word? = some w) (hop : Op.ofWord? w = some op)
    (hobstacle : m.obstacle? w op = none) (r : Reply) :
    (m.effect w r op).live = afterCall m.live m ∧
      (m.returns = true → m.live.getLast? = some (m.effect w r op).pc) := by
  have hstacked := hm.toSound.stacked
  have hcalls := calls_iff hword hop
  have hreturns := returns_iff hword hop
  by_cases hcall : op = .call
  · subst hcall
    have hsp : m.sp ≠ 15 := by simpa [obstacle?] using hobstacle
    have hpc := le_of_word hword
    have hlow := hm.pc_nonneg
    -- The address after a fetched word fits sixteen bits.
    have hmask : (m.pc + 2) % 65536 = m.pc + 2 := by omega
    refine ⟨?_, fun hret => absurd (hreturns.1 hret) (by decide)⟩
    rw [afterCall, if_pos (hcalls.2 rfl), ← hmask]
    exact hstacked.live_pushed hsp (m.pc + 2)
  by_cases hret : op = .ret
  · subst hret
    have hsp : m.sp ≠ -1 := by simpa [obstacle?] using hobstacle
    have hpopped := hstacked.live_popped hsp
    have hlive : (m.effect w r .ret).live = ({ m with sp := m.sp - 1 } : Machine).live := live_congr rfl rfl
    refine ⟨?_, fun _ => ?_⟩
    · rw [afterCall_of_returns (hreturns.2 rfl), hpopped, List.dropLast_concat, hlive]
    · rw [hpopped, List.getLast?_concat]
      rfl
  · have hplain : ¬ m.calls = true := fun h => hcall (hcalls.1 h)
    have hplain' : ¬ m.returns = true := fun h => hret (hreturns.1 h)
    refine ⟨?_, fun h => absurd h hplain'⟩
    rw [afterCall, if_neg hplain, if_neg hplain', live_effect m w r hcall hret]

/-! ## Matched calls and returns -/

/-- Rows of instructions in which every call has its return and every return its call. -/
inductive Balanced : List Machine → Prop where
  | nil : Balanced []
  | plain {m : Machine} {ms : List Machine} : m.calls = false → m.returns = false → Balanced ms → Balanced (m :: ms)
  | nested {call ret : Machine} {body ms : List Machine} : call.calls = true → Balanced body → ret.returns = true →
    Balanced ms → Balanced (call :: (body ++ ret :: ms))

/-- Matched calls and returns leave the list as it was. -/
theorem foldl_balanced {ms : List Machine} (h : Balanced ms) (stack : List Int) : ms.foldl afterCall stack = stack := by
  induction h generalizing stack with
  | nil => rfl
  | @plain m ms hcalls hreturns _ ih =>
    have hstay : afterCall stack m = stack := by simp [afterCall, hcalls, hreturns]
    rw [List.foldl_cons, hstay, ih]
  | @nested call ret body ms hcalls _ hreturns _ ihbody ih =>
    have hpush : afterCall stack call = stack ++ [call.pc + 2] := by rw [afterCall, if_pos hcalls]
    rw [List.foldl_cons, hpush, List.foldl_append, ihbody, List.foldl_cons, afterCall_of_returns hreturns,
      List.dropLast_concat, ih]

/-- What is on top of the list when a call's return comes. -/
theorem pushdown_before_return {front body : List Machine} {call : Machine} (hcalls : call.calls = true)
    (hbody : Balanced body) : pushdown (front ++ call :: body) = pushdown front ++ [call.pc + 2] := by
  rw [pushdown, List.foldl_append, List.foldl_cons, foldl_balanced hbody, afterCall, if_pos hcalls]
  rfl

end Machine

namespace Cpu

open Machine (pushdown Balanced)

variable {δ ρ : Type} [Device δ] [RandomSource ρ] {c d : Cpu δ ρ} {ms : List Machine}

/-! ## Over a run -/

/-- The stack is the list of the run, and after a return the program counter is the address that it took off. -/
theorem live_runs (hc : c.Bounded) (hempty : c.machine.live = []) (h : Runs c ms d) :
    d.machine.live = pushdown ms ∧
      ∀ front m, ms = front ++ [m] → m.returns = true → (pushdown front).getLast? = some d.machine.pc := by
  induction h with
  | start =>
    refine ⟨hempty, ?_⟩
    intro front m hms
    simp at hms
  | @executed ms d d' e hruns hstep ih =>
    have hbounded := keeps_runs hc hruns
    obtain ⟨-, w, op, reply, hword, hop, hobstacle, hmachine⟩ := executed_of_ok hbounded.machine.toSound hstep
    obtain ⟨hlive, hpc⟩ := Machine.live_executed hbounded.machine hword hop hobstacle reply
    have hcounted : d'.machine.live = (d.machine.effect w reply op).live := by
      rw [hmachine]
      exact Machine.live_congr rfl rfl
    refine ⟨?_, ?_⟩
    · rw [hcounted, hlive, ih.1, Machine.pushdown_concat]
    · intro front m hms hreturns
      obtain ⟨rfl, hm⟩ := List.append_inj' hms rfl
      obtain rfl : d.machine = m := List.cons.inj hm |>.1
      rw [← ih.1, hpc hreturns, hmachine]
      rfl
  | @failed ms d d' e hruns hstep ih =>
    obtain ⟨op, halted, hmachine⟩ := machine_of_error (keeps_runs hc hruns).machine.toSound hstep
    have hlive : d'.machine.live = d.machine.live := by
      rw [hmachine]
      exact (Machine.live_congr rfl rfl).trans (Machine.live_begun d.machine op)
    have hpc : d'.machine.pc = d.machine.pc := by
      rw [hmachine]
      cases op <;> rfl
    refine ⟨hlive.trans ih.1, ?_⟩
    intro front m hms hreturns
    rw [hpc]
    exact ih.2 front m hms hreturns
  | @outside ms d d' delay sound hruns hmachine hfault ih =>
    have hlive : d'.machine.live = d.machine.live := by
      rw [hmachine]
      exact Machine.live_congr rfl rfl
    have hpc : d'.machine.pc = d.machine.pc := by rw [hmachine]
    refine ⟨hlive.trans ih.1, ?_⟩
    intro front m hms hreturns
    rw [hpc]
    exact ih.2 front m hms hreturns

/-! ## Faults of the stack -/

theorem step_faults_iff_trouble (hm : d.machine.Sound) (hrun : d.machine.halted = false) :
    (∃ f d', step d = .error (.fault f) d') ↔ ∃ cause, d.machine.trouble? = some cause := by
  constructor
  · rintro ⟨f, d', hstep⟩
    obtain ⟨cause, htrouble, -⟩ := (step_eq_fault_iff hm hrun).1 hstep
    exact ⟨cause, htrouble⟩
  · rintro ⟨cause, htrouble⟩
    exact ⟨_, _, step_of_trouble hm hrun htrouble⟩

theorem call_faults_iff (hm : d.machine.Sound) (hrun : d.machine.halted = false) (hcalls : d.machine.calls = true) :
    (∃ f d', step d = .error (.fault f) d') ↔ d.machine.live.length = 16 := by
  have hlength := hm.stacked.length_live
  have hfull : d.machine.live.length = 16 ↔ d.machine.sp = 15 := by omega
  rw [step_faults_iff_trouble hm hrun, Machine.trouble?_of_calls hcalls, hfull]
  by_cases hsp : d.machine.sp = 15
  · simp [hsp]
  · simp [hsp]

theorem return_faults_iff (hm : d.machine.Sound) (hrun : d.machine.halted = false)
    (hreturns : d.machine.returns = true) :
    (∃ f d', step d = .error (.fault f) d') ↔ d.machine.live = [] := by
  have hlength := hm.stacked.length_live
  have hempty : d.machine.live = [] ↔ d.machine.sp = -1 := by
    rw [← List.length_eq_zero_iff]
    omega
  rw [step_faults_iff_trouble hm hrun, Machine.trouble?_of_returns hreturns, hempty]
  by_cases hsp : d.machine.sp = -1
  · simp [hsp]
  · simp [hsp]

/-- **The stack is a bounded list.** In every run from a loaded program the return addresses in use are the list that
the executed calls and returns make of the empty one; a return goes to the address that it takes off, which is the one
after its call, whatever calls and returns are matched in between; a call faults if and only if the list has sixteen
addresses, and a return if and only if it is empty. And entries that are not in use make no difference to anything. -/
theorem callStack_pushdown {rom : List UInt8} {c₀ : Cpu δ ρ} (hload : loadProgram rom c₀ = .ok () c)
    (hruns : Runs c ms d) :
    d.machine.live = pushdown ms ∧
    (∀ front m, ms = front ++ [m] → m.returns = true → (pushdown front).getLast? = some d.machine.pc) ∧
    (∀ front call body ret, ms = front ++ call :: (body ++ [ret]) → call.calls = true → Balanced body →
      ret.returns = true → d.machine.pc = call.pc + 2) ∧
    (d.machine.halted = false → d.machine.calls = true →
      ((∃ f d', step d = .error (.fault f) d') ↔ (pushdown ms).length = 16)) ∧
    (d.machine.halted = false → d.machine.returns = true →
      ((∃ f d', step d = .error (.fault f) d') ↔ pushdown ms = [])) ∧
    ∀ e e' : Cpu δ ρ, e.Alike e' → ∀ moves,
      (e'.play moves).1 = (e.play moves).1 ∧ (e.play moves).2.Alike (e'.play moves).2 := by
  obtain ⟨hstart, hbounded⟩ := bounded_of_loadProgram hload
  have hempty : c.machine.live = [] := by
    rw [(Machine.start_eq_ok_iff.1 hstart).2]
    rfl
  have hsound := (keeps_runs hbounded hruns).machine.toSound
  obtain ⟨hlive, hreturned⟩ := live_runs hbounded hempty hruns
  refine ⟨hlive, hreturned, ?_, ?_, ?_, fun e e' h moves => h.play moves⟩
  · intro front call body ret hms hcalls hbody hreturns
    have hpc := hreturned (front ++ call :: body) ret (by rw [hms]; simp) hreturns
    rw [Machine.pushdown_before_return hcalls hbody, List.getLast?_concat] at hpc
    exact (Option.some.inj hpc).symm
  · intro hrun hcalls
    rw [call_faults_iff hsound hrun hcalls, hlive]
  · intro hrun hreturns
    rw [return_faults_iff hsound hrun hreturns, hlive]

/-- A processor with an empty program. -/
def idle : Cpu FrameBuffer Cycle where
  rig := { machine := Machine.empty, device := FrameBuffer.standard, random := { numbers := #[7] } }
  trace := { limit := none }

/-- A program that calls 0x204 and returns from there. -/
def calling : Cpu FrameBuffer Cycle := (loadProgram [0x22, 0x04, 0x00, 0x00, 0x00, 0xEE]).after idle

theorem callStack_pushdown_calling :
    ∃ d, Runs calling [calling.machine, (step.after calling).machine] d ∧ d.machine.pc = 0x202 := by
  obtain ⟨_, hload⟩ := Act.ok_of_answer
    (show ((loadProgram [0x22, 0x04, 0x00, 0x00, 0x00, 0xEE]).answer idle).isOk = true by decide +kernel)
  obtain ⟨e, hcall⟩ := Act.ok_of_answer (show (step.answer calling).isOk = true by decide +kernel)
  obtain ⟨e', hret⟩ := Act.ok_of_answer (show (step.answer (step.after calling)).isOk = true by decide +kernel)
  have hcalls : calling.machine.calls = true := by decide +kernel
  have hreturns : (step.after calling).machine.returns = true := by decide +kernel
  have hruns : Runs calling [calling.machine, (step.after calling).machine] (step.after (step.after calling)) :=
    (Runs.start.executed hcall).executed hret
  have hmatch := (callStack_pushdown hload hruns).2.2.1
  have hpc := hmatch [] calling.machine [] (step.after calling).machine (by simp) hcalls .nil hreturns
  refine ⟨_, hruns, ?_⟩
  rw [hpc, show calling.machine.pc = 0x200 by decide +kernel]
  rfl

end Cpu

end Chip8
