import Chip8.Display.Window
import Chip8.Proofs.Display.Pixels

/-!
# What a window shows

The calls of a window say what it shows, once the window system is taken at its word: setting a mode gives a fresh
surface, a fill paints a rectangle of it or all of it, and a flip shows it as it is then. `Glass` follows the calls, and
`Surface.Shows` says that a surface is the picture of a frame buffer. Main statement: `Window.shows_paint`, that the
calls a rendering makes show the frame buffer, whatever was painted before.
-/

namespace Chip8

/-! ## Surfaces -/

/-- Is this window pixel inside the rectangle? A rectangle with a blank has no pixel. -/
def Rectangle.covers (r : Rectangle) (x y : Int) : Bool :=
  match r.left, r.top, r.width, r.height with
  | some left, some top, some width, some height => left ≤ x && x < left + width && top ≤ y && y < top + height
  | _, _, _, _ => false

/-- A surface of a size, with the colour last painted on each pixel. A fresh one has none. -/
structure Surface where
  width : Length
  height : Length
  colourAt : Int → Int → Option Colour := fun _ _ => none

namespace Surface

/-- Paints a rectangle, or without one the whole surface. -/
def fill (colour : Colour) (area : Option Rectangle) (s : Surface) : Surface :=
  { s with colourAt := fun x y => if area.all (·.covers x y) then some colour else s.colourAt x y }

/-- Paints rectangles one after another. -/
def fillAll (colour : Colour) (areas : List Rectangle) (s : Surface) : Surface :=
  areas.foldl (fun s area => s.fill colour (some area)) s

theorem size_fillAll (colour : Colour) (areas : List Rectangle) (s : Surface) :
    (s.fillAll colour areas).width = s.width ∧ (s.fillAll colour areas).height = s.height := by
  induction areas generalizing s with
  | nil => exact ⟨rfl, rfl⟩
  | cons area areas ih => exact ih (s.fill colour (some area))

@[simp] theorem colourAt_fill (colour : Colour) (area : Option Rectangle) (s : Surface) (x y : Int) :
    (s.fill colour area).colourAt x y = if area.all (·.covers x y) then some colour else s.colourAt x y := rfl

/-- Rectangles of one colour may overlap; what any of them covers has that colour. -/
theorem colourAt_fillAll (colour : Colour) (areas : List Rectangle) (s : Surface) (x y : Int) :
    (s.fillAll colour areas).colourAt x y = if areas.any (·.covers x y) then some colour else s.colourAt x y := by
  induction areas generalizing s with
  | nil => rfl
  | cons area areas ih =>
    have hrest := ih (s.fill colour (some area))
    rw [fillAll] at hrest ⊢
    rw [List.foldl_cons, hrest, colourAt_fill, List.any_cons, Option.all_some]
    cases area.covers x y <;> simp

/-- The surface is the picture of a frame buffer, each of whose pixels is a square of `scale` window pixels. -/
structure Shows (s : Surface) (scale : Int) (f : FrameBuffer) : Prop where
  width : s.width = some (f.width * scale)
  height : s.height = some (f.height * scale)
  colour : ∀ x y, 0 ≤ x → x < f.width * scale → 0 ≤ y → y < f.height * scale →
    s.colourAt x y = some (if f.pixel (x / scale).toNat (y / scale).toNat then Window.litColour else Window.darkColour)

theorem Shows.same {s : Surface} {scale : Int} {f g : FrameBuffer} (h : s.Shows scale f) (hsame : f.SamePicture g) :
    s.Shows scale g where
  width := by rw [hsame.width, h.width]
  height := by rw [hsame.height, h.height]
  colour := by
    rw [hsame.width, hsame.height]
    simp only [hsame.pixel]
    exact h.colour

end Surface

/-! ## The window system -/

/-- The surface of the window, if there is one, and the picture that it shows, if any yet. -/
structure Glass where
  surface : Option Surface := none
  shown : Option Surface := none

namespace Glass

/-- What the window system makes of a call. -/
def make (g : Glass) : WindowCall → Glass
  | .init | .caption _ => g
  | .setMode width height => { surface := some { width, height }, shown := none }
  | .fill colour area => { g with surface := g.surface.map (·.fill colour area) }
  | .flip => { g with shown := g.surface }
  | .quit => {}

/-- What it has made of all calls, the oldest first. -/
def of (calls : List WindowCall) : Glass := calls.foldl make {}

theorem foldl_make_fills (colour : Colour) (areas : List Rectangle) (g : Glass) :
    (areas.map fun area => .fill colour (some area)).foldl make g =
      { g with surface := g.surface.map (·.fillAll colour areas) } := by
  induction areas generalizing g with
  | nil => cases hsurface : g.surface <;> simp [Surface.fillAll, ← hsurface]
  | cons area areas ih =>
    rw [List.map_cons, List.foldl_cons, ih, make, Option.map_map]
    rfl

end Glass

namespace Window

variable {w : Window} {scale : Int}

/-- The glass behind which the window is. -/
def glass (w : Window) : Glass := Glass.of w.calls.toList

theorem glass_call (w : Window) (calls : List WindowCall) : (w.call calls).glass = calls.foldl Glass.make w.glass := by
  simp [glass, call, Glass.of]

/-! ## Rendering -/

/-- The square of a frame buffer pixel has the window pixels whose place, divided by the scale, is its place. -/
theorem covers_square (hscale : 0 < scale) (x y : Nat) (X Y : Int) :
    (square (some scale) x y).covers X Y = true ↔ X / scale = x ∧ Y / scale = y := by
  rw [Int.ediv_eq_iff_of_pos hscale, Int.ediv_eq_iff_of_pos hscale]
  simp [square, scaled, Rectangle.covers, and_assoc]

/-- The squares of the lit pixels cover the window pixels that fall on one. -/
theorem any_square_covers (f : FrameBuffer) (hscale : 0 < scale) {X Y : Int} (hX : 0 ≤ X) (hY : 0 ≤ Y) :
    ((f.litPixels.map fun (x, y) => square (some scale) x y).any (·.covers X Y)) =
      f.pixel (X / scale).toNat (Y / scale).toNat := by
  have hX' : 0 ≤ X / scale := Int.ediv_nonneg hX (Int.le_of_lt hscale)
  have hY' : 0 ≤ Y / scale := Int.ediv_nonneg hY (Int.le_of_lt hscale)
  rw [Bool.eq_iff_iff, ← FrameBuffer.mem_litPixels]
  simp only [List.any_map, List.any_eq_true, Function.comp_apply, covers_square hscale]
  constructor
  · rintro ⟨⟨x, y⟩, hmem, hx, hy⟩
    rwa [hx, hy, Int.toNat_natCast, Int.toNat_natCast]
  · intro hmem
    exact ⟨_, hmem, (Int.toNat_of_nonneg hX').symm, (Int.toNat_of_nonneg hY').symm⟩

/-- **What a rendering paints is the frame buffer.** Whatever was on the surface is painted over. -/
theorem shows_paint {surface : Surface} (hscale : 0 < scale) (hw : w.scale = some scale)
    (hsurface : w.glass.surface = some surface) (hwidth : surface.width = some (w.screen.width * scale))
    (hheight : surface.height = some (w.screen.height * scale)) :
    ∃ picture, (w.call w.paint).glass = { surface := some picture, shown := some picture } ∧
      picture.Shows scale w.screen := by
  let squares := w.screen.litPixels.map fun (x, y) => square (some scale) x y
  let picture := (surface.fill darkColour none).fillAll litColour squares
  have hpaint : w.paint =
      .fill darkColour none :: (squares.map fun area => .fill litColour (some area)) ++ [.flip] := by
    rw [paint, hw, List.map_map]
    rfl
  refine ⟨picture, ?_, ?_⟩
  · rw [glass_call, hpaint, List.cons_append, List.foldl_cons, List.foldl_append, Glass.foldl_make_fills]
    simp [Glass.make, hsurface, picture]
  · obtain ⟨hpictureWidth, hpictureHeight⟩ := Surface.size_fillAll litColour squares (surface.fill darkColour none)
    refine ⟨hpictureWidth.trans hwidth, hpictureHeight.trans hheight, fun X Y hX _ hY _ => ?_⟩
    rw [Surface.colourAt_fillAll, Surface.colourAt_fill, any_square_covers _ hscale hX hY]
    cases w.screen.pixel (X / scale).toNat (Y / scale).toNat <;> rfl

end Window

end Chip8
