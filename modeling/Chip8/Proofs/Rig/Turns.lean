import Chip8.Proofs.Machine.Rows
import Chip8.Rig.Sprite

/-!
# Sprites as turns of pixels

Drawing a sprite reads memory and turns pixels over, one after the other. Memory does not change meanwhile, so the
places to turn over are known beforehand: `spritePlaces` lists them, and `drawRows_eq` says that drawing is turning
them over in this order, on the device alone. A device is `Sized` if it has a display of a fixed size with at least
one pixel and accepts every pixel of it; on such a device turning over never fails (`turnAll_ok`).
-/

namespace Chip8

variable {δ ρ : Type}

namespace Rig

/-- The device as a part of a rig. -/
def devicePart : Part (Rig δ ρ) δ := ⟨Rig.device, fun r device => { r with device }⟩

/-! ## Parts of a rig -/

@[simp] theorem machine_put_machinePart (r : Rig δ ρ) (m : Machine) : (machinePart.put r m).machine = m := rfl

@[simp] theorem device_put_machinePart (r : Rig δ ρ) (m : Machine) : (machinePart.put r m).device = r.device := rfl

@[simp] theorem machinePart_put_machine (r : Rig δ ρ) : machinePart.put r r.machine = r := rfl

@[simp] theorem devicePart_get (r : Rig δ ρ) : devicePart.get r = r.device := rfl

@[simp] theorem machine_put_devicePart (r : Rig δ ρ) (d : δ) : (devicePart.put r d).machine = r.machine := rfl

@[simp] theorem device_put_devicePart (r : Rig δ ρ) (d : δ) : (devicePart.put r d).device = d := rfl

@[simp] theorem devicePart_put_device (r : Rig δ ρ) : devicePart.put r r.device = r := rfl

/-- Of two devices put into a rig, the second stays. -/
@[simp] theorem devicePart_back_put {α : Type} (r : Rig δ ρ) (d : δ) (result : EStateM.Result Failure δ α) :
    devicePart.back (devicePart.put r d) result = devicePart.back r result := by
  cases result <;> rfl

theorem onMachine_run {α : Type} (act : Act Machine α) (r : Rig δ ρ) :
    onMachine act r = machinePart.back r (act r.machine) := Act.within_run _ _ _

section Turns

variable [Device δ]

/-! ## Turning over -/

/-- Turns over the pixel at a place of the display. -/
def turn (x y : Int) : Act δ Bool := fun d =>
  match Device.draw d x y 1 with
  | .ok (hit, d) => .ok hit d
  | .error m => .error (.mishap m) d

/-- Turns over the pixel that a place comes to, wrapped round the edges. -/
def turnWrapped (place : Int × Int) : Act δ Bool := do
  let device ← get
  let x ← Act.ofExcept (wrap place.1 (Device.width device))
  let y ← Act.ofExcept (wrap place.2 (Device.height device))
  turn x y

/-- Turns over the pixels of places one after the other, and tells whether any was put out, now or before. -/
def turnAll : List (Int × Int) → Bool → Act δ Bool
  | [], hit => pure hit
  | place :: rest, hit => do
    let out ← turnWrapped place
    turnAll rest (hit || out)

theorem turnPixel_eq (x y : Int) (r : Rig δ ρ) : turnPixel x y r = devicePart.back r (turn x y r.device) := by
  simp only [turnPixel, turn]
  cases Device.draw r.device x y 1 <;> simp only [Part.back_ok, Part.back_error, devicePart]

theorem turnAll_append (front back : List (Int × Int)) (hit : Bool) :
    (turnAll (front ++ back) hit : Act δ Bool) = (turnAll front hit >>= turnAll back) := by
  funext d
  induction front generalizing hit d with
  | nil => simp [turnAll]
  | cons place rest ih =>
    simp only [List.cons_append, turnAll, Act.bind_run]
    cases turnWrapped place d with
    | ok out d => simp only [onward_ok, ih, Act.bind_run]
    | error e d => simp only [onward_error]

/-! ## The places of a sprite -/

/-- The places that a row of a sprite turns over, from left to right. -/
def linePlaces (left top : Int) (line : UInt8) (columns : List Nat) : List (Int × Int) :=
  (columns.filter (hasPixel line)).map fun (column : Nat) => (left + column, top)

/-- The places that the rows of a sprite turn over, from row `row` on. -/
def spritePlaces (m : Machine) (left top : Int) (row : Nat) : Nat → List (Int × Int)
  | 0 => []
  | count + 1 =>
    linePlaces left (top + row) (m.byteAt (m.index.toNat + row)) (List.range 8) ++
      spritePlaces m left top (row + 1) count

/-- The places of a sprite are those of its rows, one after the other. -/
theorem spritePlaces_eq (m : Machine) (left top : Int) (row count : Nat) :
    spritePlaces m left top row count =
      (List.range' row count).flatMap fun (row : Nat) =>
        linePlaces left (top + row) (m.byteAt (m.index.toNat + row)) (List.range 8) := by
  induction count generalizing row with
  | zero => rfl
  | succ count ih => rw [spritePlaces, ih, List.range'_succ, List.flatMap_cons]

theorem spritePlaces_congr {m m' : Machine} {left top : Int} {row count : Nat} (hmemory : m'.memory = m.memory)
    (hindex : m'.index = m.index) : spritePlaces m' left top row count = spritePlaces m left top row count := by
  simp only [spritePlaces_eq, Machine.byteAt, hmemory, hindex]

theorem drawColumns_eq (left top : Int) (line : UInt8) (columns : List Nat) (hit : Bool) (r : Rig δ ρ) :
    drawColumns left top line columns hit r =
      devicePart.back r (turnAll (linePlaces left top line columns) hit r.device) := by
  induction columns generalizing hit r with
  | nil => simp [drawColumns, linePlaces, turnAll]
  | cons column rest ih =>
    by_cases hpixel : hasPixel line column = true
    · have hplaces : linePlaces left top line (column :: rest) =
          (left + column, top) :: linePlaces left top line rest := by simp [linePlaces, hpixel]
      rw [drawColumns, if_pos hpixel, hplaces, turnAll]
      simp only [Act.bind_run, Act.get_run, onward_ok, turnWrapped]
      cases wrap (left + column) (Device.width r.device) with
      | error m => simp
      | ok x =>
        cases wrap top (Device.height r.device) with
        | error m => simp
        | ok y =>
          -- Both sides have wrapped the place by the size that the device has at this moment.
          simp only [Act.ofExcept_ok_run, onward_ok, Act.bind_run, turnPixel_eq]
          cases turn x y r.device with
          | error e d => simp
          | ok out d =>
            simp only [Part.back_ok, onward_ok, ih, device_put_devicePart, devicePart_back_put]
    · have hplaces : linePlaces left top line (column :: rest) = linePlaces left top line rest := by
        simp [linePlaces, hpixel]
      rw [drawColumns, if_neg hpixel, hplaces, ih]

/-- **Drawing is turning over.** The rows of a sprite that lies in memory are drawn on the device alone. -/
theorem drawRows_eq {left top : Int} {row count : Nat} {hit : Bool} {r : Rig δ ρ} (hm : r.machine.memory.size = 4096)
    (hindex : 0 ≤ r.machine.index) (hlast : count ≠ 0 → r.machine.index + row + count ≤ 4096) :
    drawRows left top row count hit r =
      devicePart.back r (turnAll (spritePlaces r.machine left top row count) hit r.device) := by
  induction count generalizing row hit r with
  | zero => simp [drawRows, spritePlaces, turnAll]
  | succ count ih =>
    have hlast := hlast (by omega)
    have hline := Machine.memoryCell_eq hm (show 0 ≤ r.machine.index + row by omega) (by omega)
    rw [show (r.machine.index + row).toNat = r.machine.index.toNat + row by omega] at hline
    simp only [drawRows, spritePlaces, Act.bind_run, Act.get_run, onward_ok, onMachine_run, hline, Part.back_ok,
      machinePart_put_machine, drawColumns_eq, turnAll_append]
    cases turnAll (linePlaces left (top + row) (r.machine.byteAt (r.machine.index.toNat + row)) (List.range 8)) hit
      r.device with
    | error e d => simp
    | ok hit d =>
      -- The first row has changed the device only, so the rest is drawn from the same memory.
      have hrest := @ih (row + 1) hit (devicePart.put r d) hm hindex
        (fun _ => show r.machine.index + (row + 1 : Nat) + count ≤ 4096 by omega)
      simp only [Part.back_ok, onward_ok]
      rw [hrest, devicePart_back_put, machine_put_devicePart, device_put_devicePart]

theorem mishapsOnly_turn (x y : Int) : Act.MishapsOnly (turn x y : Act δ Bool) := by
  intro d e d' h
  simp only [turn] at h
  split at h
  · cases h
  · next m _ =>
    cases h
    exact ⟨m, rfl⟩

theorem mishapsOnly_turnWrapped (place : Int × Int) : Act.MishapsOnly (turnWrapped place : Act δ Bool) := by
  refine Act.mishapsOnly_get.bind fun d => ?_
  refine (Act.mishapsOnly_ofExcept _).bind fun x => ?_
  exact (Act.mishapsOnly_ofExcept _).bind fun y => mishapsOnly_turn x y

/-- Turning over ends early only by mishap. -/
theorem mishapsOnly_turnAll (places : List (Int × Int)) (hit : Bool) :
    Act.MishapsOnly (turnAll places hit : Act δ Bool) := by
  induction places generalizing hit with
  | nil => exact Act.mishapsOnly_pure hit
  | cons place rest ih => exact (mishapsOnly_turnWrapped place).bind fun out => ih (hit || out)

end Turns

end Rig

/-! ## Displays of a fixed size -/

/-- A property of devices under which the display has `width` by `height` pixels, at least one, and each of them can be
turned over; whatever the device is asked, the property stays. -/
structure Device.Sized [Device δ] (P : δ → Prop) (width height : Int) : Prop where
  one_le_width : 1 ≤ width
  one_le_height : 1 ≤ height
  width_eq : ∀ d, P d → Device.width d = width
  height_eq : ∀ d, P d → Device.height d = height
  draw : ∀ d x y, P d → 0 ≤ x → x < width → 0 ≤ y → y < height → ∃ hit d', Device.draw d x y 1 = .ok (hit, d') ∧ P d'
  clear : ∀ d, P d → P (Device.clear d)
  heldKeys : ∀ d, P d → P (Device.heldKeys d).2
  activeKey : ∀ d, P d → P (Device.activeKey d).2

/-- A frame buffer with pixels keeps its size. -/
theorem FrameBuffer.sized {width height : Int} (hwidth : 1 ≤ width) (hheight : 1 ≤ height) :
    Device.Sized (fun f : FrameBuffer => f.width = width ∧ f.height = height) width height where
  one_le_width := hwidth
  one_le_height := hheight
  width_eq := fun _ h => h.1
  height_eq := fun _ h => h.2
  draw := by
    rintro f x y ⟨rfl, rfl⟩ hx hxlt hy hylt
    have hinside : f.inside x y = true := by simp [inside, hx, hxlt, hy, hylt]
    exact ⟨_, _, drawPixel_eq hinside (by decide), rfl, rfl⟩
  clear := fun _ h => h
  heldKeys := fun _ h => h
  activeKey := fun _ h => h

/-- Writing the calls down does not change the size. -/
theorem Logged.sized [Device δ] {P : δ → Prop} {width height : Int} (h : Device.Sized P width height) :
    Device.Sized (fun d : Logged δ => P d.inner) width height where
  one_le_width := h.one_le_width
  one_le_height := h.one_le_height
  width_eq := fun d => h.width_eq d.inner
  height_eq := fun d => h.height_eq d.inner
  draw := by
    intro d x y hd hx hxlt hy hylt
    obtain ⟨hit, d', hdraw, hd'⟩ := h.draw d.inner x y hd hx hxlt hy hylt
    exact ⟨hit, { inner := d', calls := d.calls.push (.draw x y 1) }, by simp [Device.draw, hdraw, Except.map], hd'⟩
  clear := fun d => h.clear d.inner
  heldKeys := fun d => h.heldKeys d.inner
  activeKey := fun d => h.activeKey d.inner

namespace Rig

variable [Device δ]

/-- A place always comes to a pixel. -/
theorem wrap_eq {place size : Int} (h : 1 ≤ size) : wrap place size = .ok (place % size) := by
  rw [wrap, if_neg (by omega), Int.fmod_eq_emod_of_nonneg place (by omega)]

/-- **Turning over cannot fail.** On a display of a fixed size every place comes to a pixel. -/
theorem turnAll_ok {P : δ → Prop} {width height : Int} (hsized : Device.Sized P width height)
    (places : List (Int × Int)) (hit : Bool) {d : δ} (hd : P d) :
    ∃ out d', turnAll places hit d = .ok out d' ∧ P d' := by
  have hwidth := hsized.one_le_width
  have hheight := hsized.one_le_height
  induction places generalizing hit d with
  | nil => exact ⟨hit, d, rfl, hd⟩
  | cons place rest ih =>
    obtain ⟨out, d', hdraw, hd'⟩ := hsized.draw d (place.1 % width) (place.2 % height) hd
      (Int.emod_nonneg _ (by omega)) (Int.emod_lt_of_pos _ (by omega))
      (Int.emod_nonneg _ (by omega)) (Int.emod_lt_of_pos _ (by omega))
    obtain ⟨hit', d'', hrest, hd''⟩ := ih (hit || out) hd'
    refine ⟨hit', d'', ?_, hd''⟩
    simp [turnAll, turnWrapped, turn, hsized.width_eq d hd, hsized.height_eq d hd, wrap_eq hwidth, wrap_eq hheight,
      hdraw, hrest]

end Rig

end Chip8
