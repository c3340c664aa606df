import Chip8.Text.Integer

/-!
# Amounts

A number as a form delivers it: a whole number, a real number of which only the whole part counts, or a text.
-/

namespace Chip8.Showcase

/-- A number from a form. -/
inductive Amount where
  | whole (n : Int)
  | real (x : Float)
  | text (t : String)

/-- The whole part of a real number of absolute value `m * 2 ^ (e - 1075)`. -/
def wholePart (m e : Nat) : Nat := if 1075 ≤ e then m <<< (e - 1075) else m >>> (1075 - e)

/-- The whole part of a finite real number, read off its sign, exponent and fraction. -/
def truncated (x : Float) : Int :=
  let bits := x.toBits.toNat
  let exponent := bits / 0x10000000000000 % 0x800
  let fraction := bits % 0x10000000000000
  let size := wholePart (if exponent = 0 then fraction else 0x10000000000000 + fraction) (max exponent 1)
  if bits < 0x8000000000000000 then size else -(size : Int)

/-- The whole number of an amount. -/
def Amount.toInt : Amount → Except Mishap Int
  | whole n => .ok n
  | real x =>
    if x.isNaN then .error .notANumber else if x.isInf then .error .infinite else .ok (truncated x)
  | text t => Text.readInteger t

end Chip8.Showcase
