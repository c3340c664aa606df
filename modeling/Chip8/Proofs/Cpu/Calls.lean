import Chip8.Proofs.Cpu.Kept
import Chip8.Proofs.Rig.Calls

/-!
# Calls of a step

The calls that a step makes to its device, by the digits of the word at the program counter. The device is any whose
display has a fixed size, and its answers are its own; a device that writes down its calls has exactly these in its
log after the step. A step that faults makes none. Main statement: `step_calls`, which says the same of the flag that a
sprite leaves, and of every run that each pixel it draws lies on the display.
-/

namespace Chip8

namespace Machine

variable {m : Machine}

/-- The calls to which a word leads, by its digits. -/
def wordCalls (m : Machine) (width height : Int) (w : UInt16) : List DeviceCall :=
  let vx := (m.reg (Word.x w)).toNat
  let vy := (m.reg (Word.y w)).toNat
  if w = 0x00E0 then [.clear]
  else if w.toNat / 0x1000 = 0xD then m.spriteCalls width height vx vy (Word.n w)
  else if w.toNat / 0x1000 = 0xE ∧ (w.toNat % 0x100 = 0x9E ∨ w.toNat % 0x100 = 0xA1) then
    if vx ≤ 0xF then [.heldKeys] else []
  else if w.toNat / 0x1000 = 0xF ∧ w.toNat % 0x100 = 0x0A then [.activeKey]
  else []

/-- The digits of a word lead to the calls of the operation that it stands for. -/
theorem wordCalls_eq (m : Machine) (width height : Int) {w : UInt16} {op : Op} (hop : Op.ofWord? w = some op) :
    m.wordCalls width height w = m.callsOf width height w op := by
  obtain ⟨hfirst, hlast⟩ := Op.ofWord?_eq_some_iff.1 hop
  have hclear : w = 0x00E0 ↔ w.toNat = 0xE0 := by
    rw [← UInt16.toNat_inj]
    rfl
  have hkey : (m.reg (Word.x w)).toNat ≤ 0xF ↔ (m.reg (Word.x w)).toNat < 16 := by omega
  unfold wordCalls
  simp only [hclear, hkey]
  cases op
  all_goals simp only [Op.family] at hfirst hlast
  case clear => exact if_pos (by omega)
  case draw => rw [if_neg (by omega), if_pos hfirst]; rfl
  case skipKey | skipNoKey => rw [if_neg (by omega), if_neg (by omega), if_pos (by omega)]; rfl
  case awaitKey => rw [if_neg (by omega), if_neg (by omega), if_neg (by omega), if_pos (by omega)]; rfl
  all_goals rw [if_neg (by omega), if_neg (by omega), if_neg (by omega), if_neg (by omega)]; rfl

/-- The flag after a sprite says whether it put a pixel out. -/
theorem reg_flag_draw (hm : m.registers.size = 16) (w : UInt16) (r : Reply) :
    (m.effect w r .draw).reg 15 = if r.hit then 1 else 0 := by
  have hcleared : (m.flagged false).registers.size = 16 := by simpa [flagged] using hm
  exact (reg_withReg hcleared (by decide) (if r.hit then 1 else 0) 15).trans (if_pos rfl)

end Machine

namespace Cpu

open DeviceCall (makeAll)

variable {δ ρ : Type}

/-! ## One step -/

section Step

variable [Device δ] [RandomSource ρ] {P : δ → Prop} {width height : Int} {c : Cpu δ ρ} {w : UInt16} {op : Op}

/-- A step without an obstacle leaves the device as the calls of its word make it, whether it completes or gets lost
for want of a random number. -/
theorem device_step (hsized : Device.Sized P width height) (hdevice : P c.device) (hm : c.machine.Sound)
    (hrun : c.machine.halted = false) (hword : c.machine.word? = some w) (hop : Op.ofWord? w = some op)
    (hobstacle : c.machine.obstacle? w op = none) :
    (step.after c).device = (makeAll (c.machine.wordCalls width height w) c.device).2 := by
  have hconsulted := Rig.device_consult hsized (r := c.rig) hdevice w op
  rw [Machine.wordCalls_eq _ _ _ hop]
  cases hconsult : Rig.consult w op c.rig with
  | ok reply rig =>
    rw [Act.after_of_ok hconsult] at hconsulted
    rw [Act.after_of_ok (step_of_reply hm hrun hword hop hobstacle hconsult), device, rig_keep]
    exact hconsulted
  | error e rig =>
    obtain ⟨mishap, rfl⟩ := Rig.mishapsOnly_consult w op c.rig e rig hconsult
    rw [Act.after_of_error hconsult] at hconsulted
    rw [Act.after_of_error (step_of_lost hm hrun hword hop hobstacle hconsult)]
    exact hconsulted

/-- A sprite that lies in memory is drawn, and its flag is set if and only if a call has put a pixel out. -/
theorem step_sprite (hsized : Device.Sized P width height) (hdevice : P c.device) (hm : c.machine.Sound)
    (hrun : c.machine.halted = false) (hword : c.machine.word? = some w) (hop : Op.ofWord? w = some .draw)
    (hobstacle : c.machine.obstacle? w .draw = none) :
    ∃ e c', step c = .ok e c' ∧
      c'.machine.reg 15 = if true ∈ (makeAll (c.machine.wordCalls width height w) c.device).1 then 1 else 0 := by
  have hconsult := Rig.consult_sprite hsized (r := c.rig) hdevice w
  refine ⟨_, _, step_of_reply hm hrun hword hop hobstacle hconsult, ?_⟩
  have hflag := Machine.reg_flag_draw hm.registers w
    { hit := (makeAll (c.machine.callsOf width height w .draw) c.device).1.any id }
  rw [machine, rig_keep, Machine.wordCalls_eq _ _ _ hop]
  refine hflag.trans ?_
  simp only [List.any_eq_true, id_eq, exists_eq_right]

end Step

/-! ## Runs -/

section Runs

variable [Device δ] [RandomSource ρ] {P : δ → Prop} {width height : Int}

/-- What steps bring a processor to, when between two of them anything may happen that makes no call to the device:
programs are loaded, timers tick, keys are pressed, memory is changed. -/
inductive Proceeds (P : δ → Prop) (c : Cpu (Logged δ) ρ) : Cpu (Logged δ) ρ → Prop where
  | start : Proceeds P c c
  | step {d : Cpu (Logged δ) ρ} : Proceeds P c d → Proceeds P c (step.after d)
  | outside {d d' : Cpu (Logged δ) ρ} : Proceeds P c d → d'.device.calls = d.device.calls → P d'.device.inner →
    Proceeds P c d'

theorem grown_of_proceeds (hsized : Device.Sized P width height) {c d : Cpu (Logged δ) ρ} (hdevice : P c.device.inner)
    (h : Proceeds P c d) : d.device.Grown P width height c.device.calls := by
  induction h with
  | start => exact .start hdevice
  | @step d _ ih =>
    have hkept := Rig.kept_device (ρ := ρ) (Logged.sized_grown hsized c.device.calls)
    exact hkept.step (Rig.keeps_draw fun _ _ h => h) d ih
  | @outside d d' _ hcalls hinner ih => exact ⟨hinner, hcalls ▸ ih.grown⟩

/-- **The calls of a step.** Whatever a device answers whose display has a fixed size: a step that faults makes no call
to it, and any other step just the calls to which the digits of its word lead, in this order, so that the device is
what they make of it. A sprite that meets no fault is drawn, and leaves the flag set if and only if one of its calls
answered that a pixel was put out. And in every run each pixel drawn lies on the display and is drawn with a one. -/
theorem step_calls (hsized : Device.Sized P width height) {c : Cpu (Logged δ) ρ} (hdevice : P c.device.inner)
    (hvalid : c.machine.validate = true) (hrun : c.machine.halted = false) :
    (∀ f c', step c = .error (.fault f) c' → c'.device = c.device) ∧
    ((∀ f c', step c ≠ .error (.fault f) c') → ∃ w, c.machine.word? = some w ∧
      (step.after c).device.calls = c.device.calls ++ (c.machine.wordCalls width height w).toArray ∧
      (step.after c).device.inner = (makeAll (c.machine.wordCalls width height w) c.device.inner).2 ∧
      (w.toNat / 0x1000 = 0xD → ∃ e c', step c = .ok e c' ∧ c'.machine.reg 15 =
        if true ∈ (makeAll (c.machine.wordCalls width height w) c.device.inner).1 then 1 else 0)) ∧
    ∀ d, Proceeds P c d → ∃ more : List DeviceCall, d.device.calls = c.device.calls ++ more.toArray ∧
      ∀ x y bit, .draw x y bit ∈ more → (0 ≤ x ∧ x < width) ∧ (0 ≤ y ∧ y < height) ∧ bit = 1 := by
  have hm := (Machine.validate_iff c.machine).1 hvalid
  have hlogged := Logged.sized hsized
  refine ⟨?_, ?_, ?_⟩
  · intro f c' hstep
    obtain ⟨cause, -, -, rfl⟩ := (step_eq_fault_iff hm hrun).1 hstep
    rw [device, rig_stoppedBy]
    rfl
  · intro hnofault
    have htrouble : c.machine.trouble? = none := by
      cases htrouble : c.machine.trouble? with
      | none => rfl
      | some cause => exact absurd (step_of_trouble hm hrun htrouble) (hnofault _ _)
    obtain ⟨w, op, hword, hop, hobstacle⟩ := Machine.trouble?_eq_none htrouble
    have hwithin := Machine.wordCalls_eq c.machine width height hop ▸
      c.machine.within_callsOf hsized.one_le_width hsized.one_le_height w op
    have hmade := DeviceCall.makeAll_logged hsized hwithin hdevice
    have hafter := device_step hlogged hdevice hm hrun hword hop hobstacle
    rw [hmade] at hafter
    refine ⟨w, hword, by rw [hafter], by rw [hafter], ?_⟩
    intro hfirst
    obtain rfl : op = .draw := by
      have hdraw : Op.draw.family.Has w := ⟨hfirst, by simp [Op.family, Nat.mod_one]⟩
      exact Op.eq_of_has (Op.ofWord?_eq_some_iff.1 hop) hdraw
    have hsprite := step_sprite hlogged hdevice hm hrun hword hop hobstacle
    rwa [hmade] at hsprite
  · intro d hproceeds
    obtain ⟨more, hcalls, hmore⟩ := (grown_of_proceeds hsized hdevice hproceeds).grown
    exact ⟨more, hcalls, fun x y bit hdraw => hmore _ hdraw⟩

/-- A processor about to draw a sprite of one row across the right edge. -/
def wrapping : Cpu (Logged FrameBuffer) Cycle where
  rig :=
    { machine :=
        { memory := ((Array.replicate 4096 0).setIfInBounds 0x200 0xD0).setIfInBounds 0x201 0x11
          registers := (Array.replicate 16 0).setIfInBounds 0 62
          index := 0x200 }
      device := { inner := FrameBuffer.standard }
      random := { numbers := #[7] } }
  trace := { limit := none }

theorem step_calls_wrapping :
    (step.after wrapping).device.calls = #[.draw 62 0 1, .draw 63 0 1, .draw 1 0 1] ∧
      ∃ e c', step wrapping = .ok e c' ∧ c'.machine.reg 15 = 0 := by
  have hvalid : wrapping.machine.validate = true := by decide +kernel
  have hsized := FrameBuffer.sized (show (1 : Int) ≤ 64 by decide) (show (1 : Int) ≤ 32 by decide)
  obtain ⟨-, hcalls, -⟩ := step_calls hsized (c := wrapping) ⟨rfl, rfl⟩ hvalid rfl
  have htrouble : wrapping.machine.trouble? = none := by decide +kernel
  have hnofault : ∀ f c', step wrapping ≠ .error (.fault f) c' := by
    intro f c' hstep
    obtain ⟨cause, hcause, -⟩ := (step_eq_fault_iff ((Machine.validate_iff _).1 hvalid) rfl).1 hstep
    rw [htrouble] at hcause
    cases hcause
  obtain ⟨w, hword, hlog, -, hsprite⟩ := hcalls hnofault
  obtain rfl : w = 0xD011 := Option.some.inj (hword.symm.trans (by decide +kernel))
  have hmade : wrapping.machine.wordCalls 64 32 0xD011 = [.draw 62 0 1, .draw 63 0 1, .draw 1 0 1] := by
    decide +kernel
  rw [hmade] at hlog hsprite
  refine ⟨hlog, ?_⟩
  obtain ⟨e, c', hstep, hflag⟩ := hsprite (by decide)
  exact ⟨e, c', hstep, hflag.trans (by decide +kernel)⟩

end Runs

end Cpu

end Chip8
