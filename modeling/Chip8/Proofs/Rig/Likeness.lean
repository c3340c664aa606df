import Chip8.Proofs.Machine.Likeness
import Chip8.Rig.Execute

/-!
# Rigs that are alike

What an operation does to two rigs at once, as far as it asks them the same and gets the same answers. A coupling is a
relation between rigs that comes with a likeness of their machines and lasts through what is done to the display; it
may say something of the keypad and the random source or not. Every operation respects it, provided that those do
which ask for what the coupling says nothing of (`Coupling.execute`). Rigs with machines that are alike and with the
same device and random source are coupled: that is `Beside`.
-/

namespace Chip8.Rig

open Act

variable {δ ρ : Type}

section

variable [Device δ]

/-- A relation between rigs whose machines are related by `M`, and whose displays answer alike. -/
structure Coupling (M : Machine → Machine → Prop) (R : Rig δ ρ → Rig δ ρ → Prop) : Prop where
  machine {r s : Rig δ ρ} : R r s → M r.machine s.machine
  withMachine {r s : Rig δ ρ} {m n : Machine} : R r s → M m n → R { r with machine := m } { s with machine := n }
  width {r s : Rig δ ρ} : R r s → Device.width s.device = Device.width r.device
  height {r s : Rig δ ρ} : R r s → Device.height s.device = Device.height r.device
  clearDisplay : Respects R clearDisplay
  turnPixel : ∀ x y, Respects R (turnPixel x y)

namespace Coupling

variable {M : Machine → Machine → Prop} {R : Rig δ ρ → Rig δ ρ → Prop} (hC : Coupling M R)
include hC

theorem onMachine {α : Type} {act : Act Machine α} (hact : Respects M act) : Respects R (onMachine act) := by
  refine hact.within (fun r s h => hC.machine h) ?_
  intro r s m n h hmachine
  exact hC.withMachine h hmachine

theorem drawColumns (left top : Int) (line : UInt8) (columns : List Nat) (hit : Bool) :
    Respects R (drawColumns left top line columns hit) := by
  induction columns generalizing hit with
  | nil => exact respects_pure hit
  | cons column rest ih =>
    refine Respects.ite ?_ (ih hit)
    refine respects_get_bind fun r s h => ?_
    rw [hC.width h, hC.height h]
    refine (respects_ofExcept _).bind (fun x => ?_) r s h
    refine (respects_ofExcept _).bind fun y => ?_
    exact (hC.turnPixel x y).bind fun out => ih (hit || out)

variable (hM : Machine.Likeness M)
include hM

theorem skipOnKey (hheld : ∀ key, Respects R (isHeld key)) (wanted : Bool) (args : List Int) :
    Respects R (skipOnKey wanted args) := by
  refine (respects_ofExcept _).bind fun x => ?_
  refine (hC.onMachine (hM.cell x)).bind fun key => ?_
  exact (hheld key).bind fun held => hC.onMachine (hM.skipIf _)

theorem awaitKey (hkey : Respects R activeKey) (args : List Int) : Respects R (awaitKey args) := by
  refine hkey.bind fun key => ?_
  cases key with
  | none => exact respects_pure ()
  | some key => exact (respects_ofExcept _).bind fun x => hC.onMachine (hM.assign x key)

theorem assignRandom [RandomSource ρ] (hdraw : Respects R draw) (args : List Int) : Respects R (assignRandom args) := by
  refine (respects_ofExcept _).bind fun (x, mask) => ?_
  exact hdraw.bind fun n => hC.onMachine (hM.assign x _)

theorem drawRows (left top : Int) (row count : Nat) (hit : Bool) : Respects R (drawRows left top row count hit) := by
  induction count generalizing row hit with
  | zero => exact respects_pure hit
  | succ count ih =>
    refine respects_get_bind fun r s h => ?_
    rw [hM.index (hC.machine h)]
    refine (hC.onMachine (hM.memoryCell _)).bind (fun line => ?_) r s h
    exact (hC.drawColumns left _ line _ hit).bind fun hit => ih (row + 1) hit

theorem drawSprite (args : List Int) : Respects R (drawSprite args) := by
  refine (respects_ofExcept _).bind fun (x, y, rows) => ?_
  -- Whether or not the range is checked first, the rest is the same.
  have hrest : Respects R (do
      let left ← Rig.onMachine (Machine.cell x)
      let top ← Rig.onMachine (Machine.cell y)
      Rig.onMachine (Machine.setFlag false)
      let hit ← Rig.drawRows left.toNat top.toNat 0 rows.toNat false
      Rig.onMachine (Machine.setFlag hit)
      Rig.onMachine Machine.advance) := by
    refine (hC.onMachine (hM.cell x)).bind fun left => ?_
    refine (hC.onMachine (hM.cell y)).bind fun top => ?_
    refine (hC.onMachine (hM.setFlag false)).bind fun _ => ?_
    refine (hC.drawRows hM _ _ 0 _ false).bind fun hit => ?_
    exact (hC.onMachine (hM.setFlag hit)).bind fun _ => hC.onMachine hM.advance
  refine Respects.ite ?_ hrest
  refine respects_get_bind fun r s h => ?_
  rw [hM.index (hC.machine h)]
  exact (hC.onMachine (hM.checkRange _ _)).bind (fun _ => hrest) r s h

variable [RandomSource ρ] {op : Op} (hcall : ∀ args, Respects M (Machine.call args)) (hret : Respects M Machine.ret)
  (hdelay : op = .readDelay → ∀ args, Respects M (Machine.readDelay args))
  (hheld : op = .skipKey ∨ op = .skipNoKey → ∀ key, Respects R (isHeld key))
  (hkey : op = .awaitKey → Respects R activeKey) (hdraw : op = .random → Respects R draw)
include hcall hret hdelay hheld hkey hdraw

/-- **Every operation respects a coupling**, if those do which ask for more than memory, registers and display. -/
theorem perform (args : List Int) : Respects R (perform op args) := by
  cases op with
  | clear => exact hC.clearDisplay.bind fun _ => hC.onMachine hM.advance
  | ret => exact hC.onMachine hret
  | call => exact hC.onMachine (hcall args)
  | readDelay => exact hC.onMachine (hdelay rfl args)
  | jump => exact hC.onMachine (hM.jump args)
  | skipEqByte => exact hC.onMachine (hM.skipEqByte args)
  | skipNeByte => exact hC.onMachine (hM.skipNeByte args)
  | skipEqReg => exact hC.onMachine (hM.skipEqReg args)
  | setByte => exact hC.onMachine (hM.setByte args)
  | addByte => exact hC.onMachine (hM.addByte args)
  | setReg => exact hC.onMachine (hM.setReg args)
  | orReg | andReg | xorReg => exact hC.onMachine (hM.combine _ args)
  | addReg => exact hC.onMachine (hM.addReg args)
  | subReg => exact hC.onMachine (hM.subReg args)
  | shiftRight => exact hC.onMachine (hM.shiftRight args)
  | subFromReg => exact hC.onMachine (hM.subFromReg args)
  | shiftLeft => exact hC.onMachine (hM.shiftLeft args)
  | skipNeReg => exact hC.onMachine (hM.skipNeReg args)
  | setIndex => exact hC.onMachine (hM.setIndexTo args)
  | jumpOffset => exact hC.onMachine (hM.jumpOffset args)
  | random => exact hC.assignRandom hM (hdraw rfl) args
  | draw => exact hC.drawSprite hM args
  | skipKey => exact hC.skipOnKey hM (hheld (.inl rfl)) true args
  | skipNoKey => exact hC.skipOnKey hM (hheld (.inr rfl)) false args
  | awaitKey => exact hC.awaitKey hM (hkey rfl) args
  | setDelay => exact hC.onMachine (hM.setDelay args)
  | setSound => exact hC.onMachine (hM.setSound args)
  | addIndex => exact hC.onMachine (hM.addIndex args)
  | glyph => exact hC.onMachine (hM.glyph args)
  | decimal => exact hC.onMachine (hM.decimal args)
  | store => exact hC.onMachine (hM.store args)
  | load => exact hC.onMachine (hM.load args)

theorem execute (args : List Int) : Respects R (execute op args) :=
  (hC.perform hM hcall hret hdelay hheld hkey hdraw args).bind fun _ => hC.onMachine hM.countCycle

end Coupling

end

/-! ## The same world outside -/

/-- Rigs with machines that are alike, and with the same world outside. -/
structure Beside (R : Machine → Machine → Prop) (r s : Rig δ ρ) : Prop where
  machine : R r.machine s.machine
  device : s.device = r.device
  random : s.random = r.random

namespace Beside

variable {R : Machine → Machine → Prop}

theorem draw [RandomSource ρ] : Respects (Beside R) (draw : Act (Rig δ ρ) Int) := by
  intro r s h
  unfold Rig.draw
  rw [h.random]
  cases RandomSource.next r.random with
  | ok answer => exact .ok _ ⟨h.machine, h.device, rfl⟩
  | error m => exact .error _ h

variable [Device δ]

theorem coupling : Coupling R (Beside R : Rig δ ρ → Rig δ ρ → Prop) where
  machine h := h.machine
  withMachine h hmachine := ⟨hmachine, h.device, h.random⟩
  width h := congrArg Device.width h.device
  height h := congrArg Device.height h.device
  clearDisplay := by
    refine respects_modify fun r s h => ?_
    rw [h.device]
    exact ⟨h.machine, rfl, h.random⟩
  turnPixel := by
    intro x y r s h
    unfold Rig.turnPixel
    rw [h.device]
    cases Device.draw r.device x y 1 with
    | ok answer => exact .ok _ ⟨h.machine, rfl, h.random⟩
    | error m => exact .error _ h

theorem heldKeys : Respects (Beside R) (heldKeys : Act (Rig δ ρ) Int) := by
  intro r s h
  unfold Rig.heldKeys
  rw [h.device]
  exact .ok _ ⟨h.machine, rfl, h.random⟩

theorem activeKey : Respects (Beside R) (activeKey : Act (Rig δ ρ) (Option Int)) := by
  intro r s h
  unfold Rig.activeKey
  rw [h.device]
  exact .ok _ ⟨h.machine, rfl, h.random⟩

theorem isHeld (key : UInt8) : Respects (Beside R) (isHeld key : Act (Rig δ ρ) Bool) :=
  (heldKeys.bind fun _ => respects_pure _).ite (respects_pure false)

/-- **Every operation respects a likeness** if calls and returns do, and the reading of the delay timer where it is at
hand. -/
theorem execute [RandomSource ρ] (hR : Machine.Likeness R) (hcall : ∀ args, Respects R (Machine.call args))
    (hret : Respects R Machine.ret) {op : Op}
    (hdelay : op = .readDelay → ∀ args, Respects R (Machine.readDelay args)) (args : List Int) :
    Respects (Beside R) (execute op args : Act (Rig δ ρ) Unit) :=
  coupling.execute hR hcall hret hdelay (fun _ => isHeld) (fun _ => activeKey) (fun _ => draw) args

end Beside

end Chip8.Rig
