import Chip8.Display.Device
import Chip8.Machine.Basic
import Chip8.Random.Source

/-!
# The rig

A machine wired to a device and to a random source. Instructions act on a rig; most touch the machine alone.
-/

namespace Chip8

/-- A machine, its device and its random source. -/
structure Rig (δ ρ : Type) where
  machine : Machine
  device : δ
  random : ρ

namespace Rig

variable {δ ρ α : Type}

/-- The machine of a rig. -/
def machinePart : Part (Rig δ ρ) Machine := ⟨Rig.machine, fun r machine => { r with machine }⟩

/-- An action on the machine alone. -/
def onMachine (act : Act Machine α) : Act (Rig δ ρ) α := act.within machinePart

/-- The next number of the random source. -/
def draw [RandomSource ρ] : Act (Rig δ ρ) Int := fun r =>
  match RandomSource.next r.random with
  | .ok (n, random) => .ok n { r with random }
  | .error m => .error (.mishap m) r

/-! ## Calls to the device -/

variable [Device δ]

/-- Clears the display. -/
def clearDisplay : Act (Rig δ ρ) Unit := modify fun r => { r with device := Device.clear r.device }

/-- Turns over the pixel at a place, and tells whether that put it out. -/
def turnPixel (x y : Int) : Act (Rig δ ρ) Bool := fun r =>
  match Device.draw r.device x y 1 with
  | .ok (hit, device) => .ok hit { r with device }
  | .error m => .error (.mishap m) r

/-- The mask of the keys held. -/
def heldKeys : Act (Rig δ ρ) Int := fun r =>
  let (mask, device) := Device.heldKeys r.device
  .ok mask { r with device }

/-- The active key. -/
def activeKey : Act (Rig δ ρ) (Option Int) := fun r =>
  let (key, device) := Device.activeKey r.device
  .ok key { r with device }

end Rig

end Chip8
