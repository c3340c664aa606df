import Chip8.Display.FrameBuffer
import Mathlib.Data.List.Nodup

/-!
# The pixels of a frame buffer

A frame buffer shows its pixels in three ways: one at a time, as the list of those lit, and as text. The three agree:
the list has the lit pixels in reading order (`mem_litPixels`, `litPixels_pairwise`), and the text has a line for each
row (`Shaped.lines_renderText`) and a mark for each of the list (`count_renderText`). On a display with as many rows and
columns as it says, turning a pixel over changes that pixel and no other (`Shaped.pixel_turned`).
-/

namespace Chip8

/-- The positions of a list go up. -/
theorem pairwise_zipIdx {α : Type} (l : List α) (n : Nat) : (l.zipIdx n).Pairwise fun p q => p.2 < q.2 := by
  have hpositions : ((l.zipIdx n).map Prod.snd).Pairwise (· < ·) := by
    rw [List.zipIdx_map_snd]
    exact List.pairwise_lt_range' 1
  exact List.pairwise_map.1 hpositions

namespace FrameBuffer

variable {f g : FrameBuffer}

/-! ## Shape -/

/-- There are as many rows and columns as the display says. -/
structure Shaped (f : FrameBuffer) : Prop where
  size_rows : f.rows.size = f.height.toNat
  size_row : ∀ {y : Nat} {row : Array Bool}, f.rows[y]? = some row → row.size = f.width.toNat

theorem getElem?_darkRows (width height : Int) (y : Nat) :
    (darkRows width height)[y]? = if y < height.toNat then some (Array.replicate width.toNat false) else none := by
  unfold darkRows
  split
  · rw [if_neg (by omega), Array.getElem?_empty]
  · rw [Array.getElem?_replicate]

theorem shaped_of_dark (h : f.rows = darkRows f.width f.height) : f.Shaped where
  size_rows := by
    rw [h, darkRows]
    split
    · simp; omega
    · simp
  size_row {y row} hrow := by
    rw [h, getElem?_darkRows] at hrow
    split at hrow
    · obtain rfl := Option.some.inj hrow
      simp
    · cases hrow

theorem shaped_blank (width height : Int) : (blank width height).Shaped := shaped_of_dark rfl

theorem shaped_clear (f : FrameBuffer) : f.clear.Shaped := shaped_of_dark rfl

theorem Shaped.turned (h : f.Shaped) (x y : Nat) : (f.turned x y).Shaped where
  size_rows := by rw [FrameBuffer.turned, Array.size_modify, h.size_rows]
  size_row {y' row} hrow := by
    rw [FrameBuffer.turned, Array.getElem?_modify] at hrow
    split at hrow
    · obtain ⟨row', hrow', rfl⟩ := Option.map_eq_some_iff.1 hrow
      exact Array.size_modify.trans (h.size_row hrow')
    · exact h.size_row hrow

/-- Where it can be laid out at all, a new display is the dark one. -/
theorem eq_blank_of_create {width height : Int} (h : create width height = .ok f) : f = blank width height := by
  unfold create at h
  split at h
  · exact (Except.ok.inj h).symm
  · next hheight =>
    cases hrow : Cells.row width pixelSize false with
    | error m => simp [hrow, Except.map] at h
    | ok row =>
      obtain rfl : _ = f := by simpa [hrow, Except.map] using h
      rw [Cells.eq_replicate_of_row hrow, blank, darkRows, if_neg hheight]

/-! ## One pixel -/

theorem inside_iff {x y : Int} : f.inside x y = true ↔ (0 ≤ x ∧ x < f.width) ∧ 0 ≤ y ∧ y < f.height := by
  simp [inside, and_assoc]

/-- What is read at a place of the display is the pixel there. -/
theorem Shaped.cell (h : f.Shaped) {x y : Nat} (hx : x < f.width) (hy : y < f.height) :
    f.rows[y]?.bind (·[x]?) = some (f.pixel x y) := by
  have hrow : y < f.rows.size := by rw [h.size_rows]; omega
  have hrows := Array.getElem?_eq_getElem hrow
  have hcell : x < f.rows[y].size := by rw [h.size_row hrows]; omega
  rw [pixel, hrows, Option.bind_some, Array.getElem?_eq_getElem hcell, Option.getD_some]

/-- A lit pixel is one of the display. -/
theorem Shaped.inside_of_pixel (h : f.Shaped) {x y : Nat} (hlit : f.pixel x y = true) : x < f.width ∧ y < f.height := by
  cases hrow : f.rows[y]? with
  | none => simp [pixel, hrow] at hlit
  | some row =>
    obtain ⟨hy, -⟩ := Array.getElem?_eq_some_iff.1 hrow
    have hcell : row[x]? = some true := by simpa [pixel, hrow, Option.getD_eq_iff] using hlit
    obtain ⟨hx, -⟩ := Array.getElem?_eq_some_iff.1 hcell
    rw [h.size_rows] at hy
    rw [h.size_row hrow] at hx
    omega

theorem pixel_of_dark (h : f.rows = darkRows f.width f.height) (x y : Nat) : f.pixel x y = false := by
  rw [pixel, h, getElem?_darkRows]
  split
  · rw [Option.bind_some, Array.getElem?_replicate]
    split <;> rfl
  · rfl

@[simp] theorem pixel_clear (f : FrameBuffer) (x y : Nat) : f.clear.pixel x y = false := pixel_of_dark rfl x y

/-- Turning a pixel over changes that cell and no other. -/
theorem cell_turned (f : FrameBuffer) (x y x' y' : Nat) :
    (f.turned x y).rows[y']?.bind (·[x']?) =
      (f.rows[y']?.bind (·[x']?)).map (· != decide (x' = x ∧ y' = y)) := by
  rw [FrameBuffer.turned, Array.getElem?_modify]
  by_cases hrow : y = y'
  · rw [if_pos hrow, Option.bind_map]
    cases f.rows[y']? with
    | none => rfl
    | some row => by_cases hcell : x = x' <;> simp [Array.getElem?_modify, hrow, hcell, eq_comm]
  · simp [hrow, Ne.symm hrow]

theorem Shaped.pixel_turned (h : f.Shaped) {x y : Nat} (hx : x < f.width) (hy : y < f.height) (x' y' : Nat) :
    (f.turned x y).pixel x' y' = (f.pixel x' y' != decide (x' = x ∧ y' = y)) := by
  by_cases hplace : x' = x ∧ y' = y
  · obtain ⟨rfl, rfl⟩ := hplace
    rw [pixel, cell_turned, h.cell hx hy, Option.map_some, Option.getD_some]
  · simp [pixel, cell_turned, hplace]

/-! ## Pictures -/

/-- Frame buffers of one size with the same pixels lit. -/
structure SamePicture (f g : FrameBuffer) : Prop where
  width : g.width = f.width
  height : g.height = f.height
  rows : g.rows = f.rows

theorem Shaped.same (hf : f.Shaped) (h : f.SamePicture g) : g.Shaped where
  size_rows := by rw [h.rows, h.height, hf.size_rows]
  size_row hrow := by rw [h.width, hf.size_row (h.rows ▸ hrow)]

namespace SamePicture

theorem inside (h : f.SamePicture g) (x y : Int) : g.inside x y = f.inside x y := by
  simp only [FrameBuffer.inside, h.width, h.height]

theorem pixel (h : f.SamePicture g) (x y : Nat) : g.pixel x y = f.pixel x y := by
  simp only [FrameBuffer.pixel, h.rows]

theorem clear (h : f.SamePicture g) : f.clear.SamePicture g.clear :=
  ⟨h.width, h.height, by simp only [FrameBuffer.clear, h.width, h.height]⟩

/-- A pixel is turned over in both, with the same answer, or in neither. -/
theorem drawPixel (h : f.SamePicture g) (x y bit : Int) :
    (∃ hit f' g', f.drawPixel x y bit = .ok (hit, f') ∧ g.drawPixel x y bit = .ok (hit, g') ∧ f'.SamePicture g') ∨
      ∃ m, f.drawPixel x y bit = .error m ∧ g.drawPixel x y bit = .error m := by
  unfold FrameBuffer.drawPixel
  rw [h.inside, h.pixel]
  split
  · left
    split
    · exact ⟨_, _, _, rfl, rfl, h.width, h.height, h.rows⟩
    · exact ⟨_, _, _, rfl, rfl, h.width, h.height, by simp only [turned, h.rows]⟩
  · right
    exact ⟨_, rfl, by rw [h.width, h.height]⟩

end SamePicture

/-! ## The list of lit pixels -/

/-- What one row gives to the list. -/
theorem mem_litRow {row : Array Bool} {x y y' : Nat} :
    (x, y') ∈ (row.toList.zipIdx.filterMap fun (lit, x) => if lit then some (x, y) else none) ↔
      row[x]? = some true ∧ y = y' := by
  simp [List.mem_zipIdx_iff_getElem?]

/-- The list has the lit pixels and no others. -/
theorem mem_litPixels {x y : Nat} : (x, y) ∈ f.litPixels ↔ f.pixel x y = true := by
  rw [pixel, Option.getD_eq_iff]
  simp [litPixels, List.mem_zipIdx_iff_getElem?, Option.bind_eq_some_iff]

/-- The lit pixels are listed row by row, and in each row from left to right. -/
theorem litPixels_pairwise (f : FrameBuffer) :
    f.litPixels.Pairwise fun p q => p.2 < q.2 ∨ p.2 = q.2 ∧ p.1 < q.1 := by
  rw [litPixels, List.pairwise_flatMap]
  constructor
  · rintro ⟨row, y⟩ -
    refine (pairwise_zipIdx row.toList 0).filterMap _ ?_
    rintro ⟨lit, x⟩ ⟨lit', x'⟩ hlt p hp q hq
    obtain ⟨-, rfl⟩ : lit = true ∧ (x, y) = p := by simpa using hp
    obtain ⟨-, rfl⟩ : lit' = true ∧ (x', y) = q := by simpa using hq
    exact .inr ⟨rfl, hlt⟩
  · refine (pairwise_zipIdx f.rows.toList 0).imp ?_
    rintro ⟨row, y⟩ ⟨row', y'⟩ hlt ⟨x, _⟩ hp ⟨x', _⟩ hq
    obtain ⟨-, rfl⟩ := mem_litRow.1 hp
    obtain ⟨-, rfl⟩ := mem_litRow.1 hq
    exact .inl hlt

/-- No pixel is listed twice. -/
theorem nodup_litPixels (f : FrameBuffer) : f.litPixels.Nodup :=
  f.litPixels_pairwise.imp fun {p q} hpq heq => by subst heq; omega

/-! ## The display as text -/

/-- Cut into its lines, the text is the rows. -/
theorem splitOn_renderText {on off : Char} (hon : on ≠ '\n') (hoff : off ≠ '\n') (hrows : f.rows ≠ #[]) :
    (f.renderText (String.singleton on) (String.singleton off)).toList.splitOn '\n' =
      f.rows.toList.map fun row => row.toList.map fun lit => if lit then on else off := by
  have hpixel (lit : Bool) :
      (if lit then String.singleton on else String.singleton off).toList = [if lit then on else off] := by
    cases lit <;> simp
  have hline (row : Array Bool) :
      (String.join (row.toList.map fun lit => if lit then String.singleton on else String.singleton off)).toList =
        row.toList.map fun lit => if lit then on else off := by
    rw [String.toList_join, List.flatMap_map, List.map_eq_flatMap]
    simp only [hpixel]
  have hbreak : "\n".toList = ['\n'] := rfl
  rw [renderText, String.toList_intercalate, List.map_map, hbreak]
  simp only [Function.comp_def, hline]
  refine List.splitOn_intercalate _ ?_ (by simpa using hrows)
  simp only [List.mem_map]
  rintro _ ⟨row, -, rfl⟩ hmem
  obtain ⟨lit, -, hlit⟩ := List.mem_map.1 hmem
  cases lit
  · exact hoff hlit
  · exact hon hlit

/-- There is a line for each row, and in it a character for each pixel. -/
theorem Shaped.lines_renderText (h : f.Shaped) {on off : Char} (hon : on ≠ '\n') (hoff : off ≠ '\n')
    (hheight : 1 ≤ f.height) :
    let lines := (f.renderText (String.singleton on) (String.singleton off)).toList.splitOn '\n'
    lines.length = f.height.toNat ∧ ∀ y < f.height.toNat, ∃ chars, lines[y]? = some chars ∧
      chars.length = f.width.toNat ∧ ∀ x < f.width.toNat, chars[x]? = some (if f.pixel x y then on else off) := by
  have hrows : f.rows ≠ #[] := by
    intro hempty
    have := h.size_rows
    rw [hempty, Array.size_empty] at this
    omega
  rw [splitOn_renderText hon hoff hrows]
  refine ⟨by simp [h.size_rows], fun y hy => ?_⟩
  have hrow := Array.getElem?_eq_getElem (h.size_rows ▸ hy)
  refine ⟨_, by rw [List.getElem?_map, Array.getElem?_toList, hrow]; rfl, ?_, fun x hx => ?_⟩
  · simp [h.size_row hrow]
  · have hcell := h.cell (x := x) (y := y) (by omega) (by omega)
    rw [hrow, Option.bind_some] at hcell
    simp [hcell]

/-! ## Counting lit pixels -/

/-- What one row gives to the list, counted. -/
theorem length_litRow (row : List Bool) (y k : Nat) :
    ((row.zipIdx k).filterMap fun (lit, x) => if lit then some (x, y) else none).length = row.count true := by
  induction row generalizing k with
  | nil => rfl
  | cons lit row ih =>
    rw [List.zipIdx_cons, List.filterMap_cons, List.count_cons]
    cases lit <;> simp [ih (k + 1)]

theorem length_litPixels (f : FrameBuffer) :
    f.litPixels.length = (f.rows.toList.flatMap Array.toList).count true := by
  rw [litPixels, List.length_flatMap, List.count_flatMap]
  simp only [length_litRow]
  conv_rhs => rw [← List.zipIdx_map_fst 0 f.rows.toList, List.map_map]
  rfl

theorem count_intercalate {sep : List Char} {c : Char} (h : c ∉ sep) (lines : List (List Char)) :
    (sep.intercalate lines).count c = lines.flatten.count c := by
  induction lines with
  | nil => rfl
  | cons line lines ih =>
    cases lines with
    | nil => simp
    | cons next lines =>
      rw [List.intercalate_cons_cons, List.count_append, List.count_append, ih, List.count_eq_zero.2 h,
        List.flatten_cons (l := line), List.count_append, Nat.add_zero]

/-- What one row gives to the text, counted. -/
theorem count_line (row : List Bool) :
    (String.join (row.map fun lit => if lit then "#" else ".")).toList.count '#' = row.count true := by
  rw [String.toList_join, List.flatMap_map]
  induction row with
  | nil => rfl
  | cons lit row ih =>
    rw [List.flatMap_cons, List.count_append, ih, List.count_cons]
    cases lit <;> simp [Nat.add_comm]

/-- In the text there is a mark for every lit pixel. -/
theorem count_renderText (f : FrameBuffer) : (f.renderText "#" ".").toList.count '#' = f.litPixels.length := by
  rw [renderText, String.toList_intercalate, count_intercalate (by decide), length_litPixels, List.map_map,
    ← List.flatMap_def, List.count_flatMap, List.count_flatMap]
  congr 2
  funext row
  exact count_line row.toList

end FrameBuffer

end Chip8
