import Chip8.Display.FrameBuffer

/-!
# Devices

A device is what instructions see of the world outside: a display of some size to clear and draw on, and keys to ask
for. Asking may change a device, since a device may keep count of what it was asked, and only drawing can fail. Two
devices need no screen: `Script` gives fixed answers, and `Logged` writes down the calls made to another device.
-/

namespace Chip8

/-- What instructions ask of a device. -/
class Device (δ : Type) where
  width : δ → Int
  height : δ → Int
  /-- Puts every pixel out. -/
  clear : δ → δ
  /-- Turns a pixel over if the bit is not zero, and tells whether that put it out. -/
  draw : δ → Int → Int → Int → Except Mishap (Bool × δ)
  /-- The mask of the keys held. -/
  heldKeys : δ → Int × δ
  /-- The key pressed last, if it is active. -/
  activeKey : δ → Option Int × δ

instance : Device FrameBuffer where
  width f := f.width
  height f := f.height
  clear := FrameBuffer.clear
  draw := FrameBuffer.drawPixel
  heldKeys f := (f.keypad.held, f)
  activeKey f := (f.keypad.active.map Int.ofNat, f)

/-! ## Fixed answers -/

/-- A device with the same answer to every question. -/
structure Script where
  width : Int := 64
  height : Int := 32
  keys : Int := 0
  key : Option Int := none
  collide : Bool := false
  deriving DecidableEq, Repr

instance : Device Script where
  width s := s.width
  height s := s.height
  clear s := s
  draw s _ _ _ := .ok (s.collide, s)
  heldKeys s := (s.keys, s)
  activeKey s := (s.key, s)

/-! ## Calls written down -/

/-- A call to a device. -/
inductive DeviceCall where
  | clear
  | draw (x y bit : Int)
  | heldKeys
  | activeKey
  deriving DecidableEq, Repr

/-- A device with the calls made to it, oldest first. -/
structure Logged (δ : Type) where
  inner : δ
  calls : Array DeviceCall := #[]
  deriving Repr

instance {δ : Type} [Device δ] : Device (Logged δ) where
  width d := Device.width d.inner
  height d := Device.height d.inner
  clear d := { inner := Device.clear d.inner, calls := d.calls.push .clear }
  draw d x y bit :=
    (Device.draw d.inner x y bit).map fun (hit, inner) => (hit, { inner, calls := d.calls.push (.draw x y bit) })
  heldKeys d :=
    let (mask, inner) := Device.heldKeys d.inner
    (mask, { inner, calls := d.calls.push .heldKeys })
  activeKey d :=
    let (key, inner) := Device.activeKey d.inner
    (key, { inner, calls := d.calls.push .activeKey })

/-! ## Either of two devices -/

instance {δ σ : Type} [Device δ] [Device σ] : Device (δ ⊕ σ) where
  width
    | .inl d => Device.width d
    | .inr d => Device.width d
  height
    | .inl d => Device.height d
    | .inr d => Device.height d
  clear
    | .inl d => .inl (Device.clear d)
    | .inr d => .inr (Device.clear d)
  draw
    | .inl d, x, y, bit => (Device.draw d x y bit).map fun (hit, d) => (hit, .inl d)
    | .inr d, x, y, bit => (Device.draw d x y bit).map fun (hit, d) => (hit, .inr d)
  heldKeys
    | .inl d => let (mask, d) := Device.heldKeys d; (mask, .inl d)
    | .inr d => let (mask, d) := Device.heldKeys d; (mask, .inr d)
  activeKey
    | .inl d => let (key, d) := Device.activeKey d; (key, .inl d)
    | .inr d => let (key, d) := Device.activeKey d; (key, .inr d)

end Chip8
