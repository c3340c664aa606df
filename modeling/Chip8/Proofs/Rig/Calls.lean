import Chip8.Proofs.Rig.Kept
import Chip8.Proofs.Rig.Perform

/-!
# Calls of an operation

What an operation asks of its device, as a list of calls that is known before the first of them is made. The device
may answer what it likes, and answer otherwise each time: the answers decide what the operation does, but not what it
asks. `callsOf` is the list, operation by operation, and `device_consult` says that an operation leaves the device as
these calls make it. Main statement: `kept_device`, by which whatever a device of a fixed size keeps under such calls
is kept by every operation, on any machine.
-/

namespace Chip8

/-! ## Making calls -/

namespace DeviceCall

variable {δ : Type}

/-- Is it a call that a display of this size can answer? Only a pixel can be refused. -/
def Within (width height : Int) : DeviceCall → Prop
  | .draw x y bit => (0 ≤ x ∧ x < width) ∧ (0 ≤ y ∧ y < height) ∧ bit = 1
  | _ => True

/-- The call that turns over the pixel a place comes to, wrapped round the edges. -/
def turning (width height : Int) (place : Int × Int) : DeviceCall :=
  .draw (place.1 % width) (place.2 % height) 1

theorem within_turning {width height : Int} (hwidth : 1 ≤ width) (hheight : 1 ≤ height) (place : Int × Int) :
    (turning width height place).Within width height :=
  ⟨⟨Int.emod_nonneg _ (by omega), Int.emod_lt_of_pos _ (by omega)⟩,
    ⟨Int.emod_nonneg _ (by omega), Int.emod_lt_of_pos _ (by omega)⟩, rfl⟩

variable [Device δ]

/-- A call: whether the answer is that a pixel was put out, and the device after it. -/
def make (d : δ) : DeviceCall → Bool × δ
  | .clear => (false, Device.clear d)
  | .draw x y bit =>
    match Device.draw d x y bit with
    | .ok answer => answer
    | .error _ => (false, d)
  | .heldKeys => (false, (Device.heldKeys d).2)
  | .activeKey => (false, (Device.activeKey d).2)

/-- The answers to calls made one after the other, and the device after the last of them. -/
def makeAll : List DeviceCall → δ → List Bool × δ
  | [], d => ([], d)
  | call :: rest, d =>
    let after := makeAll rest (make d call).2
    ((make d call).1 :: after.1, after.2)

theorem makeAll_nil (d : δ) : makeAll [] d = ([], d) := rfl

theorem makeAll_singleton (call : DeviceCall) (d : δ) : makeAll [call] d = ([(make d call).1], (make d call).2) := rfl

section Sized

variable {P : δ → Prop} {width height : Int} (hsized : Device.Sized P width height)
include hsized

theorem sized_make {d : δ} (hd : P d) {call : DeviceCall} (hcall : call.Within width height) : P (make d call).2 := by
  cases call with
  | clear => exact hsized.clear d hd
  | heldKeys => exact hsized.heldKeys d hd
  | activeKey => exact hsized.activeKey d hd
  | draw x y bit =>
    obtain ⟨⟨hx, hxlt⟩, ⟨hy, hylt⟩, rfl⟩ := hcall
    obtain ⟨hit, d', hdraw, hd'⟩ := hsized.draw d x y hd hx hxlt hy hylt
    simpa only [make, hdraw] using hd'

theorem sized_makeAll {calls : List DeviceCall} (hcalls : ∀ call ∈ calls, call.Within width height) {d : δ}
    (hd : P d) : P (makeAll calls d).2 := by
  induction calls generalizing d with
  | nil => exact hd
  | cons call rest ih =>
    have hmade := sized_make hsized hd (hcalls call List.mem_cons_self)
    exact ih (fun call h => hcalls call (List.mem_cons_of_mem _ h)) hmade

/-- A device that writes its calls down answers as the device inside does. -/
theorem make_logged {d : Logged δ} (hd : P d.inner) {call : DeviceCall} (hcall : call.Within width height) :
    make d call = ((make d.inner call).1, { inner := (make d.inner call).2, calls := d.calls.push call }) := by
  cases call with
  | draw x y bit =>
    obtain ⟨⟨hx, hxlt⟩, ⟨hy, hylt⟩, rfl⟩ := hcall
    obtain ⟨hit, d', hdraw, -⟩ := hsized.draw d.inner x y hd hx hxlt hy hylt
    have hlogged : Device.draw d x y 1 = .ok (hit, { inner := d', calls := d.calls.push (.draw x y 1) }) := by
      simp [Device.draw, hdraw, Except.map]
    simp only [make, hdraw, hlogged]
  | _ => rfl

theorem makeAll_logged {calls : List DeviceCall} (hcalls : ∀ call ∈ calls, call.Within width height) {d : Logged δ}
    (hd : P d.inner) :
    makeAll calls d =
      ((makeAll calls d.inner).1, { inner := (makeAll calls d.inner).2, calls := d.calls ++ calls.toArray }) := by
  induction calls generalizing d with
  | nil => simp [makeAll]
  | cons call rest ih =>
    have hcall := hcalls call List.mem_cons_self
    have hrest := fun call h => hcalls call (List.mem_cons_of_mem _ h)
    have hmade := make_logged hsized hd hcall
    have hinner : P (make d call).2.inner := by
      rw [hmade]
      exact sized_make hsized hd hcall
    rw [makeAll, ih hrest hinner, hmade]
    simp [makeAll]

end Sized

end DeviceCall

/-! ## The log of a device -/

namespace Logged

variable {δ : Type} {P : δ → Prop} {width height : Int} {old : Array DeviceCall} {d : Logged δ}

/-- The log has grown by calls that a display of this size can answer. -/
structure Grown (P : δ → Prop) (width height : Int) (old : Array DeviceCall) (d : Logged δ) : Prop where
  inner : P d.inner
  grown : ∃ more : List DeviceCall, d.calls = old ++ more.toArray ∧ ∀ call ∈ more, call.Within width height

theorem Grown.start (hd : P d.inner) : Grown P width height d.calls d :=
  ⟨hd, [], by simp, fun call hcall => by cases hcall⟩

theorem Grown.push (h : Grown P width height old d) {inner : δ} (hinner : P inner) (call : DeviceCall)
    (hcall : call.Within width height) : Grown P width height old { inner, calls := d.calls.push call } := by
  obtain ⟨-, more, hcalls, hwithin⟩ := h
  refine ⟨hinner, more ++ [call], ?_, ?_⟩
  · simp [hcalls]
  · intro other hother
    rcases List.mem_append.1 hother with hmore | hlast
    · exact hwithin other hmore
    · rwa [List.mem_singleton.1 hlast]

/-- Under calls that it can answer the log of a device grows by just these. -/
theorem sized_grown [Device δ] (hsized : Device.Sized P width height) (old : Array DeviceCall) :
    Device.Sized (Grown P width height old) width height where
  one_le_width := hsized.one_le_width
  one_le_height := hsized.one_le_height
  width_eq := fun d h => hsized.width_eq d.inner h.inner
  height_eq := fun d h => hsized.height_eq d.inner h.inner
  draw := by
    intro d x y h hx hxlt hy hylt
    obtain ⟨hit, inner, hdraw, hinner⟩ := hsized.draw d.inner x y h.inner hx hxlt hy hylt
    refine ⟨hit, { inner, calls := d.calls.push (.draw x y 1) }, ?_, ?_⟩
    · simp [Device.draw, hdraw, Except.map]
    · exact h.push hinner (.draw x y 1) ⟨⟨hx, hxlt⟩, ⟨hy, hylt⟩, rfl⟩
  clear := fun d h => h.push (hsized.clear d.inner h.inner) .clear trivial
  heldKeys := fun d h => h.push (hsized.heldKeys d.inner h.inner) .heldKeys trivial
  activeKey := fun d h => h.push (hsized.activeKey d.inner h.inner) .activeKey trivial

end Logged

/-! ## The calls of an operation -/

namespace Machine

/-- The calls that draw a sprite with its corner at a place: row by row and from left to right, one for each bit that
is set, wrapped round the edges. -/
def spriteCalls (m : Machine) (width height : Int) (left top rows : Nat) : List DeviceCall :=
  (List.range rows).flatMap fun row =>
    ((List.range 8).filter fun column => (m.byteAt (m.index.toNat + row)).toNat.testBit (7 - column)).map
      fun column => .draw (((left + column : Nat) : Int) % width) (((top + row : Nat) : Int) % height) 1

/-- The calls of an operation that meets no obstacle, on a display of this size. -/
def callsOf (m : Machine) (width height : Int) (w : UInt16) : Op → List DeviceCall
  | .clear => [.clear]
  | .draw => m.spriteCalls width height (m.reg (Word.x w)).toNat (m.reg (Word.y w)).toNat (Word.n w)
  | .skipKey | .skipNoKey => if (m.reg (Word.x w)).toNat < 16 then [.heldKeys] else []
  | .awaitKey => [.activeKey]
  | _ => []

/-- The calls that draw a sprite turn over its places one after the other. -/
theorem spriteCalls_eq (m : Machine) (width height : Int) (left top rows : Nat) :
    m.spriteCalls width height left top rows =
      (Rig.spritePlaces m left top 0 rows).map (DeviceCall.turning width height) := by
  rw [Rig.spritePlaces_eq, List.map_flatMap, spriteCalls, List.range_eq_range' (n := rows)]
  simp only [Rig.linePlaces, List.map_map]
  rfl

/-- An operation asks of its device nothing that the device could refuse. -/
theorem within_callsOf (m : Machine) {width height : Int} (hwidth : 1 ≤ width) (hheight : 1 ≤ height) (w : UInt16)
    (op : Op) : ∀ call ∈ m.callsOf width height w op, call.Within width height := by
  intro call hcall
  cases op with
  | draw =>
    rw [callsOf, spriteCalls_eq] at hcall
    obtain ⟨place, -, rfl⟩ := List.mem_map.1 hcall
    exact DeviceCall.within_turning hwidth hheight place
  | clear | awaitKey =>
    obtain rfl := List.mem_singleton.1 hcall
    trivial
  | skipKey | skipNoKey =>
    simp only [callsOf, List.mem_ite_nil_right, List.mem_singleton] at hcall
    obtain ⟨-, rfl⟩ := hcall
    trivial
  | _ => cases hcall

end Machine

namespace Rig

open DeviceCall (makeAll turning)

variable {δ ρ : Type} {P : δ → Prop} {width height : Int}

/-! ## By calls -/

variable [Device δ]

section Consult

variable (hsized : Device.Sized P width height)
include hsized

/-- Turning over is making calls, and what it tells is whether one of them answered that a pixel was put out. -/
theorem turnAll_eq (places : List (Int × Int)) (hit : Bool) {d : δ} (hd : P d) :
    turnAll places hit d =
      .ok (hit || (makeAll (places.map (turning width height)) d).1.any id)
        (makeAll (places.map (turning width height)) d).2 := by
  have hwidth := hsized.one_le_width
  have hheight := hsized.one_le_height
  induction places generalizing hit d with
  | nil => simp [turnAll, makeAll]
  | cons place rest ih =>
    obtain ⟨⟨hx, hxlt⟩, ⟨hy, hylt⟩, -⟩ := DeviceCall.within_turning hwidth hheight place
    obtain ⟨out, d', hdraw, hd'⟩ := hsized.draw d (place.1 % width) (place.2 % height) hd hx hxlt hy hylt
    have hmade : DeviceCall.make d (turning width height place) = (out, d') := by
      simp only [DeviceCall.make, turning, hdraw]
    simp [turnAll, turnWrapped, turn, hsized.width_eq d hd, hsized.height_eq d hd, wrap_eq hwidth, wrap_eq hheight,
      hdraw, ih (hit || out) hd', makeAll, hmade, Bool.or_assoc]

variable [RandomSource ρ]

/-- What a sprite is told: whether one of its calls answered that a pixel was put out. -/
theorem consult_sprite {r : Rig δ ρ} (hdevice : P r.device) (w : UInt16) :
    consult w .draw r =
      .ok { hit := (makeAll (r.machine.callsOf width height w .draw) r.device).1.any id }
        (devicePart.put r (makeAll (r.machine.callsOf width height w .draw) r.device).2) := by
  simp only [consult, Act.bind_run, Act.get_run, onward_ok, Act.within_run, devicePart_get,
    turnAll_eq hsized _ false hdevice, Part.back_ok, Act.pure_run, Machine.callsOf, Machine.spriteCalls_eq,
    Bool.false_or]

/-- **The calls of an operation.** Whether its answers come or not, it leaves the device as its calls make it. -/
theorem device_consult {r : Rig δ ρ} (hdevice : P r.device) (w : UInt16) (op : Op) :
    ((consult w op).after r).device = (makeAll (r.machine.callsOf width height w op) r.device).2 := by
  cases op with
  | draw => rw [Act.after_of_ok (consult_sprite hsized hdevice w), device_put_devicePart]
  | skipKey | skipNoKey =>
    by_cases hkey : (r.machine.reg (Word.x w)).toNat < 16
    · simp [Act.after, consult, isHeld, hkey, heldKeys_run, Machine.callsOf, DeviceCall.makeAll_singleton,
        DeviceCall.make]
    · simp [Act.after, consult, isHeld, hkey, Machine.callsOf, DeviceCall.makeAll_nil]
  | random =>
    cases hnext : RandomSource.next r.random with
    | ok answer => simp [Act.after, consult, draw, hnext, Machine.callsOf, DeviceCall.makeAll_nil]
    | error m => simp [Act.after, consult, draw, hnext, Machine.callsOf, DeviceCall.makeAll_nil]
  | _ => rfl

end Consult

/-! ## Whatever the machine -/

/-- **What calls keep, operations keep.** On any machine, sound or not, an operation keeps what the device keeps under
calls that a display of its size can answer. -/
theorem kept_device (hsized : Device.Sized P width height) : Kept fun r : Rig δ ρ => P r.device where
  withMachine _ _ hdevice := hdevice
  clearDisplay := Act.keeps_modify fun r hdevice => hsized.clear r.device hdevice
  heldKeys r hdevice := hsized.heldKeys r.device hdevice
  activeKey r hdevice := hsized.activeKey r.device hdevice
  drawColumns := by
    intro left top line columns hit r hdevice
    have hturn : drawColumns left top line columns hit r = _ :=
      (drawColumns_eq left top line columns hit r).trans
        (congrArg (devicePart.back r) (turnAll_eq hsized (linePlaces left top line columns) hit hdevice))
    rw [Act.after_of_ok hturn, device_put_devicePart]
    refine DeviceCall.sized_makeAll hsized ?_ hdevice
    intro call hcall
    obtain ⟨place, -, rfl⟩ := List.mem_map.1 hcall
    exact DeviceCall.within_turning hsized.one_le_width hsized.one_le_height place

end Rig

end Chip8
