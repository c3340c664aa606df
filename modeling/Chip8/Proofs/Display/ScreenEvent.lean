import Chip8.Display.Device
import Chip8.Proofs.Display.Pixels
import Mathlib.Data.List.Induction

/-!
# Screen events

What programs do to the pixels of a frame buffer: draw on one, or clear them all. A draw with a bit other than zero
turns its pixel over, so of all that was ever drawn only the turns since the last clear count, and of those only
whether they are odd in number (`pixel_play`). Main statement: `screen_of_history`, which reads the grid, the answers
of the draws, the list of lit pixels and the text off the history.
-/

namespace Chip8

theorem FrameBuffer.device_draw (f : FrameBuffer) (x y bit : Int) : Device.draw f x y bit = f.drawPixel x y bit := rfl

/-- What a program does to its screen. -/
inductive ScreenEvent where
  | draw (x y bit : Int)
  | clear
  deriving DecidableEq, Repr

namespace ScreenEvent

variable {δ : Type} [Device δ] {f : FrameBuffer} {x y bit : Int}

/-- The device after an event. A draw that fails leaves it as it was. -/
def after : ScreenEvent → δ → δ
  | draw x y bit, d =>
    match Device.draw d x y bit with
    | .ok (_, d') => d'
    | .error _ => d
  | clear, d => Device.clear d

/-- The device after a row of events, those that fail included. -/
def play (events : List ScreenEvent) (d : δ) : δ := events.foldl (fun d e => e.after d) d

theorem play_concat (events : List ScreenEvent) (e : ScreenEvent) (d : δ) :
    play (events ++ [e]) d = e.after (play events d) := by
  rw [play, List.foldl_append]
  rfl

/-- What every event keeps, a row of events keeps. -/
theorem keeps_play {I : δ → Prop} (hkeeps : ∀ (e : ScreenEvent) d, I d → I (e.after d)) {d : δ} (hd : I d)
    (events : List ScreenEvent) : I (play events d) := by
  induction events using List.reverseRecOn with
  | nil => exact hd
  | append_singleton events e ih => exact play_concat events e d ▸ hkeeps e _ ih

/-! ## One event -/

theorem after_draw_inside (h : f.inside x y = true) (hbit : bit ≠ 0) :
    (draw x y bit).after f = { f.turned x.toNat y.toNat with draws := f.draws + 1, dirty := true } := by
  rw [after, FrameBuffer.device_draw, FrameBuffer.drawPixel_eq h hbit]

theorem after_draw_zero (h : f.inside x y = true) : (draw x y 0).after f = { f with draws := f.draws + 1 } := by
  rw [after, FrameBuffer.device_draw, FrameBuffer.drawPixel, if_pos h, if_pos rfl]

theorem after_draw_outside (h : f.inside x y = false) : (draw x y bit).after f = f := by
  rw [after, FrameBuffer.device_draw, FrameBuffer.drawPixel_error h]

/-- A draw inside answers whether it puts a lit pixel out. -/
theorem drawPixel_of_inside (h : f.inside x y = true) :
    f.drawPixel x y bit = .ok (bit ≠ 0 && f.pixel x.toNat y.toNat, (draw x y bit).after f) := by
  by_cases hbit : bit = 0
  · subst hbit
    rw [after_draw_zero h, FrameBuffer.drawPixel, if_pos h, if_pos rfl]
    rfl
  · rw [after_draw_inside h hbit, FrameBuffer.drawPixel_eq h hbit]
    simp [hbit]

/-- Does the event touch the pixels of this display? -/
def touches (f : FrameBuffer) : ScreenEvent → Bool
  | draw x y bit => f.inside x y && bit ≠ 0
  | clear => true

/-- What an event can do: count a draw at most, put every pixel out, or turn one over. -/
theorem after_cases (e : ScreenEvent) (f : FrameBuffer) :
    (e.touches f = false ∧ ∃ draws, e.after f = { f with draws }) ∨ (e = clear ∧ e.after f = f.clear) ∨
      ∃ x y bit, e = draw x y bit ∧ f.inside x y = true ∧ bit ≠ 0 ∧
        e.after f = { f.turned x.toNat y.toNat with draws := f.draws + 1, dirty := true } := by
  cases e with
  | clear => exact .inr (.inl ⟨rfl, rfl⟩)
  | draw x y bit =>
    cases hinside : f.inside x y with
    | false => exact .inl ⟨by simp [touches, hinside], f.draws, after_draw_outside hinside⟩
    | true =>
      by_cases hbit : bit = 0
      · subst hbit
        exact .inl ⟨by simp [touches], _, after_draw_zero hinside⟩
      · exact .inr (.inr ⟨x, y, bit, rfl, hinside, hbit, after_draw_inside hinside hbit⟩)

theorem after_of_untouched {e : ScreenEvent} (h : e.touches f = false) : ∃ draws, e.after f = { f with draws } := by
  rcases after_cases e f with ⟨-, hafter⟩ | ⟨rfl, -⟩ | ⟨x, y, bit, rfl, hinside, hbit, -⟩
  · exact hafter
  · cases h
  · simp [touches, hinside, hbit] at h

/-- Which events touch a display is a matter of its size. -/
theorem touches_congr {g : FrameBuffer} (hwidth : g.width = f.width) (hheight : g.height = f.height) (e : ScreenEvent) :
    e.touches g = e.touches f := by
  cases e with
  | draw x y bit => simp only [touches, FrameBuffer.inside, hwidth, hheight]
  | clear => rfl

/-- The events that touch the pixels are those that leave the display dirty. -/
theorem dirty_after (e : ScreenEvent) (f : FrameBuffer) : (e.after f).dirty = (f.dirty || e.touches f) := by
  rcases after_cases e f with ⟨htouches, draws, h⟩ | ⟨rfl, h⟩ | ⟨x, y, bit, rfl, hinside, hbit, h⟩ <;> rw [h]
  · rw [htouches, Bool.or_false]
  · rw [touches, Bool.or_true]
    rfl
  · simp [touches, hinside, hbit]

/-- No event changes the size. -/
theorem size_after (e : ScreenEvent) (f : FrameBuffer) :
    (e.after f).width = f.width ∧ (e.after f).height = f.height := by
  rcases after_cases e f with ⟨-, draws, h⟩ | ⟨-, h⟩ | ⟨x, y, bit, -, -, -, h⟩ <;> rw [h] <;> exact ⟨rfl, rfl⟩

theorem shaped_after (e : ScreenEvent) (h : f.Shaped) : (e.after f).Shaped := by
  rcases after_cases e f with ⟨-, draws, hafter⟩ | ⟨-, hafter⟩ | ⟨x, y, bit, -, -, -, hafter⟩ <;> rw [hafter]
  · exact h.same ⟨rfl, rfl, rfl⟩
  · exact f.shaped_clear
  · exact (h.turned x.toNat y.toNat).same ⟨rfl, rfl, rfl⟩

/-- Does the event turn the pixel at this place over? -/
def turns (x y : Int) : ScreenEvent → Bool
  | draw x' y' bit => x' = x && y' = y && bit ≠ 0
  | clear => false

/-- What one event does to a pixel of the display. -/
theorem pixel_after (h : f.Shaped) {x y : Nat} (hx : x < f.width) (hy : y < f.height) (e : ScreenEvent) :
    (e.after f).pixel x y = (e != clear && (f.pixel x y != e.turns x y)) := by
  rcases after_cases e f with ⟨htouches, draws, hafter⟩ | ⟨rfl, hafter⟩ | ⟨x', y', bit, rfl, hinside, hbit, hafter⟩ <;>
    rw [hafter]
  · cases e with
    | clear => cases htouches
    | draw x' y' bit =>
      -- The pixel is one of the display, so a draw that touches none is not on it.
      have hturns : turns x y (draw x' y' bit) = false := by
        have hplace : x' = x → y' = y → f.inside x' y' = true := by
          rintro rfl rfl
          exact FrameBuffer.inside_iff.2 (by omega)
        by_contra hturns
        obtain ⟨hx', hy', hbit⟩ : x' = x ∧ y' = y ∧ bit ≠ 0 := by simpa [turns] using hturns
        simp [touches, hplace hx' hy', hbit] at htouches
      rw [hturns, Bool.bne_false]
      rfl
  · rw [FrameBuffer.pixel_clear, bne_self_eq_false, Bool.false_and]
  · obtain ⟨⟨hx', hxlt⟩, hy', hylt⟩ := FrameBuffer.inside_iff.1 hinside
    have hplace : (x = x'.toNat ∧ y = y'.toNat) ↔ x' = x ∧ y' = y := by omega
    have hturns : turns x y (draw x' y' bit) = decide (x = x'.toNat ∧ y = y'.toNat) := by
      simp [turns, hbit, hplace]
    rw [hturns, ← h.pixel_turned (by omega) (by omega) x y]
    rfl

/-! ## The history of a pixel -/

/-- How often the pixel at this place was turned over since the last clear. -/
def turnCount (events : List ScreenEvent) (x y : Int) : Nat :=
  (events.reverse.takeWhile (· != clear)).countP (turns x y)

/-- Was it turned over an odd number of times? -/
def isOdd (events : List ScreenEvent) (x y : Int) : Bool := turnCount events x y % 2 = 1

theorem isOdd_concat (events : List ScreenEvent) (e : ScreenEvent) (x y : Int) :
    isOdd (events ++ [e]) x y = (e != clear && (isOdd events x y != e.turns x y)) := by
  cases e with
  | clear => simp [isOdd, turnCount]
  | draw x' y' bit =>
    have hcount : turnCount (events ++ [draw x' y' bit]) x y =
        turnCount events x y + if turns x y (draw x' y' bit) then 1 else 0 := by
      simp [turnCount, List.countP_cons]
    rw [show (draw x' y' bit != clear) = true from rfl, Bool.true_and, isOdd, hcount, isOdd]
    cases turns x y (draw x' y' bit) with
    | false => simp
    | true => rcases Nat.mod_two_eq_zero_or_one (turnCount events x y) with h | h <;> simp [Nat.add_mod, h]

/-! ## The screen after a history -/

theorem size_play (events : List ScreenEvent) (f : FrameBuffer) :
    (play events f).width = f.width ∧ (play events f).height = f.height := by
  refine keeps_play (I := fun g : FrameBuffer => g.width = f.width ∧ g.height = f.height) ?_ ⟨rfl, rfl⟩ events
  rintro e g ⟨hwidth, hheight⟩
  obtain ⟨hwidth', hheight'⟩ := size_after e g
  exact ⟨hwidth'.trans hwidth, hheight'.trans hheight⟩

theorem shaped_play (events : List ScreenEvent) (h : f.Shaped) : (play events f).Shaped :=
  keeps_play (fun e _ => shaped_after e) h events

/-- **A pixel is the parity of its turns.** -/
theorem pixel_play (hf : f.rows = FrameBuffer.darkRows f.width f.height) (events : List ScreenEvent) {x y : Nat}
    (hx : x < f.width) (hy : y < f.height) : (play events f).pixel x y = isOdd events x y := by
  induction events using List.reverseRecOn with
  | nil => exact FrameBuffer.pixel_of_dark hf x y
  | append_singleton events e ih =>
    obtain ⟨hwidth, hheight⟩ := size_play events f
    have hshaped := shaped_play events (FrameBuffer.shaped_of_dark hf)
    rw [play_concat, isOdd_concat, ← ih]
    exact pixel_after hshaped (by omega) (by omega) e

theorem inside_play (events : List ScreenEvent) (f : FrameBuffer) (x y : Int) :
    (play events f).inside x y = f.inside x y := by
  obtain ⟨hwidth, hheight⟩ := size_play events f
  simp only [FrameBuffer.inside, hwidth, hheight]

/-- A draw inside answers by the parity of the turns so far. -/
theorem drawPixel_play (hf : f.rows = FrameBuffer.darkRows f.width f.height) (events : List ScreenEvent)
    (h : f.inside x y = true) (bit : Int) :
    (play events f).drawPixel x y bit =
      .ok (bit ≠ 0 && isOdd events x y, play (events ++ [draw x y bit]) f) := by
  obtain ⟨⟨hx, hxlt⟩, hy, hylt⟩ := FrameBuffer.inside_iff.1 h
  have hlit : (play events f).pixel x.toNat y.toNat = isOdd events x y := by
    rw [pixel_play hf events (by omega) (by omega), Int.toNat_of_nonneg hx, Int.toNat_of_nonneg hy]
  rw [drawPixel_of_inside (by rw [inside_play, h]), hlit, play_concat]

theorem drawPixel_play_outside (events : List ScreenEvent) (h : f.inside x y = false) (bit : Int) :
    (play events f).drawPixel x y bit = .error (.pixelOutside x y f.width f.height) ∧
      play (events ++ [draw x y bit]) f = play events f := by
  obtain ⟨hwidth, hheight⟩ := size_play events f
  have hinside : (play events f).inside x y = false := by rw [inside_play, h]
  rw [FrameBuffer.drawPixel_error hinside, hwidth, hheight, play_concat, after_draw_outside hinside]
  exact ⟨rfl, rfl⟩

theorem mem_litPixels_play (hf : f.rows = FrameBuffer.darkRows f.width f.height) (events : List ScreenEvent)
    {x y : Nat} : (x, y) ∈ (play events f).litPixels ↔ (x < f.width ∧ y < f.height) ∧ isOdd events x y = true := by
  obtain ⟨hwidth, hheight⟩ := size_play events f
  rw [FrameBuffer.mem_litPixels]
  constructor
  · intro hlit
    obtain ⟨hx, hy⟩ := (shaped_play events (FrameBuffer.shaped_of_dark hf)).inside_of_pixel hlit
    rw [hwidth] at hx
    rw [hheight] at hy
    exact ⟨⟨hx, hy⟩, pixel_play hf events hx hy ▸ hlit⟩
  · rintro ⟨⟨hx, hy⟩, hodd⟩
    rw [pixel_play hf events hx hy, hodd]

/-- **A screen is what its history says.** On a new display of any size, after any row of draws and clears: there are
as many rows and columns as the display has, and each pixel is lit if and only if it was turned over an odd number of
times since the last clear; a draw inside answers whether it puts that pixel out, and a draw outside fails and changes
nothing; the list of lit pixels has those, each once, in reading order; and the text shows the same. -/
theorem screen_of_history {width height : Nat} {blank : FrameBuffer}
    (hcreate : FrameBuffer.create width height = .ok blank) (events : List ScreenEvent) :
    let f := play events blank
    (f.rows.size = height ∧ (∀ row ∈ f.rows, row.size = width)) ∧
    (∀ x < width, ∀ y < height, f.rows[y]?.bind (·[x]?) = some (isOdd events x y)) ∧
    (∀ x y bit : Int, (0 ≤ x ∧ x < width) ∧ 0 ≤ y ∧ y < height →
      f.drawPixel x y bit = .ok (bit ≠ 0 && isOdd events x y, play (events ++ [draw x y bit]) blank)) ∧
    (∀ x y bit : Int, ¬ ((0 ≤ x ∧ x < width) ∧ 0 ≤ y ∧ y < height) →
      f.drawPixel x y bit = .error (.pixelOutside x y width height) ∧
      (Mishap.pixelOutside x y width height).kind = .index ∧
      play (events ++ [draw x y bit]) blank = f) ∧
    ((∀ x y, (x, y) ∈ f.litPixels ↔ x < width ∧ y < height ∧ isOdd events x y = true) ∧
      f.litPixels.Nodup ∧ f.litPixels.Pairwise fun p q => p.2 < q.2 ∨ p.2 = q.2 ∧ p.1 < q.1) ∧
    ∀ on off : Char, on ≠ off → on ≠ '\n' → off ≠ '\n' → 1 ≤ height →
      let lines := (f.renderText (String.singleton on) (String.singleton off)).toList.splitOn '\n'
      lines.length = height ∧ ∀ y < height, ∃ chars, lines[y]? = some chars ∧ chars.length = width ∧
        ∀ x < width, chars[x]? = some (if isOdd events x y then on else off) ∧
          (chars[x]? = some on ↔ isOdd events x y = true) := by
  obtain rfl := FrameBuffer.eq_blank_of_create hcreate
  intro f
  obtain ⟨hwidth, hheight⟩ : f.width = width ∧ f.height = height := size_play events _
  have hshaped : f.Shaped := shaped_play events (FrameBuffer.shaped_blank width height)
  have hpixel {x y : Nat} (hx : x < width) (hy : y < height) : f.pixel x y = isOdd events x y :=
    pixel_play rfl events (Int.ofNat_lt.2 hx) (Int.ofNat_lt.2 hy)
  refine ⟨⟨?_, ?_⟩, ?_, ?_, ?_, ⟨?_, f.nodup_litPixels, f.litPixels_pairwise⟩, ?_⟩
  · rw [hshaped.size_rows, hheight, Int.toNat_natCast]
  · intro row hrow
    obtain ⟨y, hy⟩ := Array.getElem?_of_mem hrow
    rw [hshaped.size_row hy, hwidth, Int.toNat_natCast]
  · intro x hx y hy
    rw [hshaped.cell (by omega) (by omega), hpixel hx hy]
  · intro x y bit hplace
    exact drawPixel_play rfl events (FrameBuffer.inside_iff.2 hplace) bit
  · intro x y bit hplace
    have hinside : (FrameBuffer.blank width height).inside x y = false :=
      Bool.eq_false_iff.2 fun hinside => hplace (FrameBuffer.inside_iff.1 hinside)
    obtain ⟨herror, hsame⟩ := drawPixel_play_outside events hinside bit
    exact ⟨herror, rfl, hsame⟩
  · intro x y
    rw [mem_litPixels_play rfl events, and_assoc]
    exact and_congr Int.ofNat_lt (and_congr_left fun _ => Int.ofNat_lt)
  · intro on off hne hon hoff hone lines
    obtain ⟨hlength, hline⟩ := hshaped.lines_renderText hon hoff (by omega)
    refine ⟨by rw [hlength, hheight, Int.toNat_natCast], fun y hy => ?_⟩
    obtain ⟨chars, hget, hsize, hchar⟩ := hline y (by omega)
    refine ⟨chars, hget, by rw [hsize, hwidth, Int.toNat_natCast], fun x hx => ?_⟩
    rw [hchar x (by omega), hpixel hx hy]
    cases isOdd events x y <;> simp [hne.symm]

theorem screen_of_history_cleared :
    let events := [draw 0 0 1, clear, draw 1 0 5, draw 7 0 1, draw 0 0 0]
    let f := play events (FrameBuffer.blank (2 : Nat) (1 : Nat))
    FrameBuffer.create (2 : Nat) (1 : Nat) = .ok (FrameBuffer.blank (2 : Nat) (1 : Nat)) ∧
      (0, 0) ∉ f.litPixels ∧ (1, 0) ∈ f.litPixels ∧
      f.drawPixel 1 0 (-1) = .ok (true, play (events ++ [draw 1 0 (-1)]) (FrameBuffer.blank (2 : Nat) (1 : Nat))) := by
  intro events f
  have hcreate : FrameBuffer.create (2 : Nat) (1 : Nat) = .ok (FrameBuffer.blank (2 : Nat) (1 : Nat)) := by decide
  obtain ⟨-, -, hdraw, -, ⟨hlit, -⟩, -⟩ := screen_of_history hcreate events
  refine ⟨hcreate, ?_, ?_, hdraw 1 0 (-1) (by decide)⟩
  · rw [hlit]
    decide
  · rw [hlit]
    decide

end ScreenEvent

end Chip8
