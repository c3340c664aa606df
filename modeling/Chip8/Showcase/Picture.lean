import Chip8.Display.FrameBuffer

/-!
# Pictures

A frame buffer as a grey picture, each pixel a square of eight by eight points. Main statement: `length_enlarged`.
-/

namespace Chip8.Showcase

/-- Points along the side of a pixel. -/
def pointsPerPixel : Nat := 8

/-- Every entry that many times over. -/
def enlarged {α : Type} (times : Nat) (xs : List α) : List α := xs.flatMap fun x => List.replicate times x

theorem length_enlarged {α : Type} (times : Nat) (xs : List α) : (enlarged times xs).length = xs.length * times := by
  induction xs with
  | nil => simp [enlarged]
  | cons x xs ih =>
    simp only [enlarged, List.flatMap_cons, List.length_append, List.length_replicate, List.length_cons] at ih ⊢
    rw [ih, Nat.add_mul, Nat.one_mul, Nat.add_comm]

/-- Rows of grey levels; a level stands for all three colours. -/
abbrev Picture : Type := List (List UInt8)

/-- The picture of a frame buffer. -/
def pictureOf (f : FrameBuffer) : Picture :=
  enlarged pointsPerPixel (f.rows.toList.map fun row =>
    enlarged pointsPerPixel (row.toList.map fun lit => if lit then 255 else 0))

end Chip8.Showcase
