import Chip8.Proofs.Act
import Chip8.Rig.Execute

/-!
# What operations keep

A property of rigs that says nothing of the machine is kept by whatever is done to the machine. If clearing, drawing
and asking for keys keep it too, then every operation does, on any machine, sound or not, and whether it completes or
not; only the operation that draws a random number has to be looked at apart. Main statement: `Kept.execute`.
-/

namespace Chip8.Rig

variable {δ ρ : Type} [Device δ] {I : Rig δ ρ → Prop}

/-- What neither the machine nor the calls of an operation can break. -/
structure Kept (I : Rig δ ρ → Prop) : Prop where
  withMachine : ∀ r machine, I r → I { r with machine }
  clearDisplay : Act.Keeps I clearDisplay
  heldKeys : Act.Keeps I heldKeys
  activeKey : Act.Keeps I activeKey
  drawColumns : ∀ left top line columns hit, Act.Keeps I (drawColumns left top line columns hit)

/-- What turning over a pixel keeps wherever it is, a row of a sprite keeps. -/
theorem keeps_drawColumns_of_turnPixel (hturn : ∀ x y, Act.Keeps I (turnPixel x y)) (left top : Int) (line : UInt8)
    (columns : List Nat) (hit : Bool) : Act.Keeps I (drawColumns left top line columns hit) := by
  induction columns generalizing hit with
  | nil => exact Act.keeps_pure hit
  | cons column rest ih =>
    refine Act.Keeps.ite ?_ (ih hit)
    refine Act.keeps_get.bind fun r => ?_
    refine (Act.keeps_ofExcept _).bind fun x => ?_
    refine (Act.keeps_ofExcept _).bind fun y => ?_
    exact (hturn x y).bind fun out => ih (hit || out)

namespace Kept

variable (hI : Kept I)
include hI

theorem onMachine {α : Type} (act : Act Machine α) : Act.Keeps I (onMachine act) :=
  Act.Keeps.within (J := fun _ => True) (fun _ _ => trivial) (fun _ _ => trivial) fun r machine h _ =>
    hI.withMachine r machine h

theorem isHeld (key : UInt8) : Act.Keeps I (isHeld key) :=
  Act.Keeps.ite (hI.heldKeys.bind fun _ => Act.keeps_pure _) (Act.keeps_pure false)

theorem skipOnKey (wanted : Bool) (args : List Int) : Act.Keeps I (skipOnKey wanted args) := by
  refine (Act.keeps_ofExcept _).bind fun x => ?_
  refine (hI.onMachine _).bind fun key => ?_
  exact (hI.isHeld key).bind fun held => hI.onMachine _

theorem awaitKey (args : List Int) : Act.Keeps I (awaitKey args) := by
  refine hI.activeKey.bind fun key => ?_
  cases key with
  | none => exact Act.keeps_pure ()
  | some key => exact (Act.keeps_ofExcept _).bind fun x => hI.onMachine _

theorem drawRows (left top : Int) (row count : Nat) (hit : Bool) :
    Act.Keeps I (drawRows left top row count hit) := by
  induction count generalizing row hit with
  | zero => exact Act.keeps_pure hit
  | succ count ih =>
    refine Act.keeps_get.bind fun r => ?_
    refine (hI.onMachine _).bind fun line => ?_
    exact (hI.drawColumns left _ line _ hit).bind fun hit => ih (row + 1) hit

theorem drawSprite (args : List Int) : Act.Keeps I (drawSprite args) := by
  refine (Act.keeps_ofExcept _).bind fun (x, y, rows) => ?_
  -- Whether or not the range is checked first, the rest is the same.
  have hrest : Act.Keeps I (do
      let left ← Rig.onMachine (Machine.cell x)
      let top ← Rig.onMachine (Machine.cell y)
      Rig.onMachine (Machine.setFlag false)
      let hit ← Rig.drawRows left.toNat top.toNat 0 rows.toNat false
      Rig.onMachine (Machine.setFlag hit)
      Rig.onMachine Machine.advance) := by
    refine (hI.onMachine _).bind fun left => ?_
    refine (hI.onMachine _).bind fun top => ?_
    refine (hI.onMachine _).bind fun _ => ?_
    refine (hI.drawRows _ _ 0 _ false).bind fun hit => ?_
    exact (hI.onMachine _).bind fun _ => hI.onMachine _
  refine Act.Keeps.ite ?_ hrest
  refine Act.keeps_get.bind fun r => ?_
  exact (hI.onMachine _).bind fun _ => hrest

variable [RandomSource ρ]

/-- **What the world outside keeps, operations keep**, the random source apart. -/
theorem execute (op : Op) (args : List Int) (hdraw : op = .random → Act.Keeps I draw) :
    Act.Keeps I (execute op args) := by
  refine Act.Keeps.bind ?_ fun _ => hI.onMachine _
  cases op with
  | clear => exact hI.clearDisplay.bind fun _ => hI.onMachine _
  | draw => exact hI.drawSprite args
  | skipKey => exact hI.skipOnKey true args
  | skipNoKey => exact hI.skipOnKey false args
  | awaitKey => exact hI.awaitKey args
  | random =>
    refine (Act.keeps_ofExcept _).bind fun (x, mask) => ?_
    exact (hdraw rfl).bind fun n => hI.onMachine _
  | _ => exact hI.onMachine _

end Kept

/-! ## What is kept -/

/-- No operation but the drawing of a random number touches the random source. -/
theorem kept_random (Q : ρ → Prop) : Kept fun r : Rig δ ρ => Q r.random where
  withMachine _ _ h := h
  clearDisplay := Act.keeps_modify fun _ h => h
  heldKeys _ h := h
  activeKey _ h := h
  drawColumns := by
    refine keeps_drawColumns_of_turnPixel fun x y r h => ?_
    cases hdraw : Device.draw r.device x y 1 with
    | ok answer => simpa only [Act.after, turnPixel, hdraw] using h
    | error m => simpa only [Act.after, turnPixel, hdraw] using h

/-- No operation touches the keypad of a frame buffer. -/
theorem kept_keypad (k : Keypad) : Kept fun r : Rig FrameBuffer ρ => r.device.keypad = k where
  withMachine _ _ h := h
  clearDisplay := Act.keeps_modify fun _ h => h
  heldKeys _ h := h
  activeKey _ h := h
  drawColumns := by
    refine keeps_drawColumns_of_turnPixel fun x y r h => ?_
    have hdraw : Device.draw r.device x y 1 = r.device.drawPixel x y 1 := rfl
    by_cases hinside : r.device.inside x y = true
    · rw [FrameBuffer.drawPixel_eq hinside (by decide)] at hdraw
      simpa only [Act.after, turnPixel, hdraw, FrameBuffer.turned] using h
    · rw [FrameBuffer.drawPixel_error (by simpa using hinside)] at hdraw
      simpa only [Act.after, turnPixel, hdraw] using h

omit [Device δ] in
/-- What says nothing of the random source is kept when a number is drawn from it. -/
theorem keeps_draw [RandomSource ρ] {I : Rig δ ρ → Prop} (h : ∀ r random, I r → I { r with random }) :
    Act.Keeps I draw := by
  intro r hr
  cases hnext : RandomSource.next r.random with
  | ok answer => simpa only [Act.after, draw, hnext] using h r answer.2 hr
  | error m => simpa only [Act.after, draw, hnext] using hr

end Chip8.Rig
