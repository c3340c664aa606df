import Chip8.Bits
import Chip8.Failure

/-!
# The keypad

Sixteen keys, the mask of those held, and the key that answers when a program asks for one. Pressing a key makes it
that key. Releasing it hands over to the highest key still held, and releasing another key changes nothing. Main
statements: `holds_pressed`, `holds_released` and `highestHeld_eq_none_iff`.
-/

namespace Chip8

/-- The keys held, as a mask, and the active key. -/
structure Keypad where
  held : Nat := 0
  active : Option Nat := none
  deriving DecidableEq, Repr

namespace Keypad

/-- Is this the number of a key? -/
def isKey (key : Int) : Bool := 0 ≤ key && key < 16

/-- Is the key held? -/
def holds (k : Keypad) (key : Nat) : Bool := k.held.testBit key

/-- The highest key in a mask. -/
def highestHeld (held : Nat) : Option Nat := (List.range 16).reverse.find? fun key => held.testBit key

/-- The keypad after key `n` went down. -/
def pressed (k : Keypad) (n : Nat) : Keypad := { held := k.held ||| 1 <<< n, active := some n }

/-- The keypad after key `n` went up. -/
def released (k : Keypad) (n : Nat) : Keypad :=
  let held := Bits.without k.held (1 <<< n)
  { held, active := if k.active = some n then highestHeld held else k.active }

/-- Presses a key. -/
def press (k : Keypad) (key : Int) : Except Mishap Keypad :=
  if isKey key then .ok (k.pressed key.toNat) else .error (.invalidKey key)

/-- Releases a key. -/
def release (k : Keypad) (key : Int) : Except Mishap Keypad :=
  if isKey key then .ok (k.released key.toNat) else .error (.invalidKey key)

/-- The keypad with no key held. -/
def allUp : Keypad := {}

/-! ## What the mask holds -/

private theorem testBit_one_shiftLeft (n i : Nat) : (1 <<< n).testBit i = decide (n = i) := by
  rw [Nat.one_shiftLeft, Nat.testBit_two_pow]

theorem holds_pressed (k : Keypad) (n i : Nat) : (k.pressed n).holds i = (k.holds i || decide (n = i)) := by
  rw [holds, pressed, Nat.testBit_or, testBit_one_shiftLeft, holds]

theorem holds_released (k : Keypad) (n i : Nat) : (k.released n).holds i = (k.holds i && !decide (n = i)) := by
  rw [holds, released, Bits.testBit_without, testBit_one_shiftLeft, holds]

theorem highestHeld_eq_none_iff (held : Nat) : highestHeld held = none ↔ ∀ i < 16, held.testBit i = false := by
  simp [highestHeld]

theorem testBit_of_highestHeld {held n : Nat} (h : highestHeld held = some n) : held.testBit n = true := by
  simpa using List.find?_some h

end Keypad

end Chip8
