import Chip8.Proofs.Display.Glass
import Chip8.Proofs.Display.KeyEvent
import Chip8.Proofs.Display.ScreenEvent

/-!
# Window events

A window repaints only what has changed, so a change that it does not notice would stay unseen for ever. It notices all
of them: whatever is drawn, cleared, pressed, opened or closed in between, what an open window shows after a rendering
is its frame buffer. The invariant is `Window.InStep`: unless it is marked dirty, an open window shows its frame buffer
already. Main statement: `shown_of_render`, which also says when a rendering does without any call.
-/

namespace Chip8

/-- What is done with a window. -/
inductive WindowEvent where
  | openWindow
  | close
  | render
  | screen (e : ScreenEvent)
  | key (e : KeyEvent)
  | keyboard (name : String) (down : Bool)
  | processEvents
  deriving DecidableEq, Repr

/-- What is drawn on a window is drawn on its frame buffer. -/
theorem ScreenEvent.after_window (e : ScreenEvent) (w : Window) :
    e.after w = { w with screen := e.after w.screen } := by
  cases e with
  | clear => rfl
  | draw x y bit =>
    rw [after, after, FrameBuffer.device_draw]
    cases hdraw : w.screen.drawPixel x y bit <;> simp [Device.draw, hdraw, Except.map]

namespace Window

variable {w v : Window}

/-! ## The same show -/

/-- Windows of one scale that have made the same calls and have the same picture to show. Keys, events to come and the
journal may be any. -/
structure SameShow (w v : Window) : Prop where
  scale : v.scale = w.scale
  isOpen : v.isOpen = w.isOpen
  calls : v.calls = w.calls
  picture : w.screen.SamePicture v.screen
  dirty : v.screen.dirty = w.screen.dirty

theorem SameShow.refl (w : Window) : w.SameShow w := ⟨rfl, rfl, rfl, ⟨rfl, rfl, rfl⟩, rfl⟩

theorem SameShow.trans {u : Window} (h : w.SameShow v) (h' : v.SameShow u) : w.SameShow u where
  scale := h'.scale.trans h.scale
  isOpen := h'.isOpen.trans h.isOpen
  calls := h'.calls.trans h.calls
  picture := ⟨h'.picture.width.trans h.picture.width, h'.picture.height.trans h.picture.height,
    h'.picture.rows.trans h.picture.rows⟩
  dirty := h'.dirty.trans h.dirty

theorem sameShow_key (w : Window) (e : KeyEvent) : w.SameShow { w with screen := e.act.after w.screen } := by
  obtain ⟨keypad, hafter⟩ := e.exists_after_act w.screen
  rw [hafter]
  exact ⟨rfl, rfl, rfl, ⟨rfl, rfl, rfl⟩, rfl⟩

theorem sameShow_handleKey (w : Window) (name : String) (down : Bool) : w.SameShow (w.handleKey name down).2 := by
  unfold handleKey
  split
  · exact .refl w
  · exact ⟨rfl, rfl, rfl, ⟨rfl, rfl, rfl⟩, rfl⟩

theorem sameShow_handleEvent (w : Window) (e : Event) : w.SameShow (w.handleEvent e) := by
  cases e with
  | quit => exact ⟨rfl, rfl, rfl, ⟨rfl, rfl, rfl⟩, rfl⟩
  | keyDown key =>
    rw [handleEvent]
    split
    · exact ⟨rfl, rfl, rfl, ⟨rfl, rfl, rfl⟩, rfl⟩
    · exact sameShow_handleKey w key true
  | keyUp key => exact sameShow_handleKey w key false
  | other => exact .refl w

theorem sameShow_foldl_handleEvent (events : List Event) (w : Window) :
    w.SameShow (events.foldl handleEvent w) := by
  induction events generalizing w with
  | nil => exact .refl w
  | cons e events ih => exact (sameShow_handleEvent w e).trans (ih (w.handleEvent e))

theorem sameShow_processEvents (w : Window) : w.SameShow w.processEvents.2 := by
  unfold processEvents
  split
  · have hpending : w.SameShow { w with pending := (nextBatch w.pending).2 } :=
      ⟨rfl, rfl, rfl, ⟨rfl, rfl, rfl⟩, rfl⟩
    exact hpending.trans (sameShow_foldl_handleEvent _ _)
  · exact .refl w

/-! ## Closing and rendering -/

theorem close_cases (w : Window) :
    (w.isOpen = false ∧ w.close = w) ∨ (w.isOpen = true ∧ w.close = { w.call [.quit] with isOpen := false }) := by
  cases hopen : w.isOpen with
  | false => exact .inl ⟨rfl, by rw [close, hopen]; rfl⟩
  | true => exact .inr ⟨rfl, by rw [close, hopen]; rfl⟩

theorem render_cases (w : Window) :
    ((w.isOpen = false ∨ w.screen.dirty = false) ∧ w.render = w) ∨
      (w.isOpen = true ∧ w.screen.dirty = true ∧
        w.render = { w.call w.paint with screen := { w.screen with dirty := false } }) := by
  cases hopen : w.isOpen with
  | false => exact .inl ⟨.inl rfl, render_closed hopen⟩
  | true =>
    cases hdirty : w.screen.dirty with
    | false => exact .inl ⟨.inr rfl, render_clean hdirty⟩
    | true => exact .inr ⟨rfl, rfl, by rw [render, hopen, hdirty]; rfl⟩

theorem isOpen_render (w : Window) : w.render.isOpen = w.isOpen := by
  rcases w.render_cases with ⟨-, h⟩ | ⟨-, -, h⟩ <;> rw [h]
  rfl

/-- An open window is clean once it has rendered. -/
theorem dirty_render (hopen : w.isOpen = true) : w.render.screen.dirty = false := by
  rcases w.render_cases with ⟨hquiet, h⟩ | ⟨-, -, h⟩ <;> rw [h]
  exact hquiet.resolve_left (by simp [hopen])

/-- Painting makes calls, so a rendering without any has painted nothing. -/
theorem calls_render_eq_iff (w : Window) : w.render.calls = w.calls ↔ w.isOpen = false ∨ w.screen.dirty = false := by
  rcases w.render_cases with ⟨hquiet, h⟩ | ⟨hopen, hdirty, h⟩ <;> rw [h]
  · simp [hquiet]
  · simp [call, paint, hopen, hdirty]

/-! ## Windows in step -/

/-- The window has a surface of its size while it is open, and unless it is dirty it shows its frame buffer. -/
structure InStep (s : Int) (w : Window) : Prop where
  scale : w.scale = some s
  width : w.screen.width = 64
  height : w.screen.height = 32
  surface : w.isOpen = true → ∃ surface, w.glass.surface = some surface ∧
    surface.width = some (w.screen.width * s) ∧ surface.height = some (w.screen.height * s)
  shown : w.isOpen = true → w.screen.dirty = false → ∃ picture, w.glass.shown = some picture ∧
    picture.Shows s w.screen

namespace InStep

variable {s : Int}

theorem same (h : InStep s w) (hsame : w.SameShow v) : InStep s v := by
  have hglass : v.glass = w.glass := by rw [glass, hsame.calls, glass]
  refine ⟨hsame.scale.trans h.scale, hsame.picture.width.trans h.width, hsame.picture.height.trans h.height, ?_, ?_⟩
  · rw [hsame.isOpen, hglass, hsame.picture.width, hsame.picture.height]
    exact h.surface
  · rw [hsame.isOpen, hglass, hsame.dirty]
    intro hopen hclean
    obtain ⟨picture, hshown, hpicture⟩ := h.shown hopen hclean
    exact ⟨picture, hshown, hpicture.same hsame.picture⟩

theorem openWindow (h : InStep s w) : InStep s w.openWindow where
  scale := h.scale
  width := h.width
  height := h.height
  surface _ := by
    have hglass : w.openWindow.glass =
        { surface := some { width := scaled w.scale w.screen.width, height := scaled w.scale w.screen.height } } :=
      glass_call w _
    exact ⟨_, by rw [hglass], by rw [h.scale]; rfl, by rw [h.scale]; rfl⟩
  shown := nofun

theorem close (h : InStep s w) : InStep s w.close := by
  rcases w.close_cases with ⟨-, hclose⟩ | ⟨-, hclose⟩ <;> rw [hclose]
  · exact h
  · exact ⟨h.scale, h.width, h.height, nofun, nofun⟩

/-- A rendering brings the window into step where it was not. -/
theorem render (h : InStep s w) (hs : 0 < s) : InStep s w.render := by
  rcases w.render_cases with ⟨-, hrender⟩ | ⟨hopen, -, hrender⟩ <;> rw [hrender]
  · exact h
  · obtain ⟨surface, hsurface, hwidth, hheight⟩ := h.surface hopen
    obtain ⟨picture, hglass, hshows⟩ := shows_paint hs h.scale hsurface hwidth hheight
    refine ⟨h.scale, h.width, h.height, fun _ => ?_, fun _ _ => ?_⟩
    · exact ⟨picture, congrArg Glass.surface hglass, hshows.width, hshows.height⟩
    · exact ⟨picture, congrArg Glass.shown hglass, hshows.same ⟨rfl, rfl, rfl⟩⟩

theorem screen (h : InStep s w) (e : ScreenEvent) : InStep s (e.after w) := by
  rw [e.after_window]
  cases htouches : e.touches w.screen with
  | false =>
    obtain ⟨draws, hafter⟩ := e.after_of_untouched htouches
    rw [hafter]
    exact h.same ⟨rfl, rfl, rfl, ⟨rfl, rfl, rfl⟩, rfl⟩
  | true =>
    -- The display is dirty now, so the window need not show anything yet.
    obtain ⟨hwidth, hheight⟩ := e.size_after w.screen
    refine ⟨h.scale, hwidth.trans h.width, hheight.trans h.height, fun hopen => ?_, fun _ hclean => ?_⟩
    · rw [hwidth, hheight]
      exact h.surface hopen
    · rw [e.dirty_after, htouches, Bool.or_true] at hclean
      cases hclean

end InStep

end Window

namespace WindowEvent

variable {w : Window} {s : Int}

/-! ## Rows of events -/

/-- The window after an event. -/
def after : WindowEvent → Window → Window
  | openWindow, w => w.openWindow
  | close, w => w.close
  | render, w => w.render
  | screen e, w => e.after w
  | key e, w => { w with screen := e.act.after w.screen }
  | keyboard name down, w => (w.handleKey name down).2
  | processEvents, w => w.processEvents.2

/-- The window after a row of events. -/
def play (events : List WindowEvent) (w : Window) : Window := events.foldl (fun w e => e.after w) w

theorem play_concat (events : List WindowEvent) (e : WindowEvent) (w : Window) :
    play (events ++ [e]) w = e.after (play events w) := by
  rw [play, List.foldl_append]
  rfl

/-- **Every event keeps the window in step.** -/
theorem inStep_after (hs : 0 < s) (h : w.InStep s) (e : WindowEvent) : (e.after w).InStep s := by
  cases e with
  | openWindow => exact h.openWindow
  | close => exact h.close
  | render => exact h.render hs
  | screen e => exact h.screen e
  | key e => exact h.same (w.sameShow_key e)
  | keyboard name down => exact h.same (w.sameShow_handleKey name down)
  | processEvents => exact h.same w.sameShow_processEvents

/-- A new window is in step, since it is not open yet. -/
theorem inStep_new (s : Int) (title : String) (pending : List (List Event)) :
    ({ scale := some s, title, pending } : Window).InStep s where
  scale := rfl
  width := rfl
  height := rfl
  surface := nofun
  shown := nofun

theorem inStep_play (hs : 0 < s) (h : w.InStep s) (events : List WindowEvent) : (play events w).InStep s := by
  induction events using List.reverseRecOn with
  | nil => exact h
  | append_singleton events e ih => exact play_concat events e w ▸ inStep_after hs ih e

/-! ## When nothing has changed -/

/-- Does the event mark the window dirty? -/
def soils : WindowEvent → Bool
  | openWindow => true
  | screen e => e.touches .standard
  | _ => false

/-- The event makes calls, and one of them is a flip. -/
def Flips (w : Window) (e : WindowEvent) : Prop := ∃ made, (e.after w).calls = w.calls ++ made ∧ .flip ∈ made

/-- There was a flip, and no event since has marked the window dirty. -/
def CleanSinceFlip (w : Window) (events : List WindowEvent) : Prop :=
  ∃ earlier e later, events = earlier ++ e :: later ∧ Flips (play earlier w) e ∧ ∀ e' ∈ later, e'.soils = false

theorem flips_iff {e : WindowEvent} {made : Array WindowCall} (h : (e.after w).calls = w.calls ++ made) :
    Flips w e ↔ .flip ∈ made := by
  constructor
  · rintro ⟨made', h', hflip⟩
    rwa [(Array.append_right_inj w.calls).1 (h.symm.trans h')]
  · intro hflip
    exact ⟨made, h, hflip⟩

theorem not_flips {e : WindowEvent} (h : (e.after w).calls = w.calls) : ¬ Flips w e := by
  rw [flips_iff (h.trans Array.append_empty.symm)]
  exact Array.not_mem_empty _

theorem cleanSinceFlip_concat (w : Window) (events : List WindowEvent) (e : WindowEvent) :
    CleanSinceFlip w (events ++ [e]) ↔ Flips (play events w) e ∨ e.soils = false ∧ CleanSinceFlip w events := by
  constructor
  · rintro ⟨earlier, e', later, hsplit, hflips, hclean⟩
    rcases List.eq_nil_or_concat later with rfl | ⟨later, last, rfl⟩
    · obtain ⟨rfl, hlast⟩ := List.append_inj' hsplit rfl
      obtain rfl := List.head_eq_of_cons_eq hlast
      exact .inl hflips
    · rw [List.concat_eq_append, ← List.cons_append, ← List.append_assoc] at hsplit
      obtain ⟨rfl, hlast⟩ := List.append_inj' hsplit rfl
      obtain rfl := List.head_eq_of_cons_eq hlast
      exact .inr ⟨hclean e (by simp), earlier, e', later, rfl, hflips, fun e'' he => hclean e'' (by simp [he])⟩
  · rintro (hflips | ⟨hsoils, earlier, e', later, rfl, hflips, hclean⟩)
    · exact ⟨events, e, [], rfl, hflips, nofun⟩
    · refine ⟨earlier, e', later ++ [e], by simp, hflips, ?_⟩
      intro e'' he
      rcases List.mem_append.1 he with he | he
      · exact hclean e'' he
      · rwa [List.mem_singleton.1 he]

/-- An event under which nothing to be shown changes makes no flip and leaves the mark. -/
theorem dirty_after_of_same {e : WindowEvent} (hsame : w.SameShow (e.after w)) (hsoils : e.soils = false) :
    (e.after w).screen.dirty = false ↔ Flips w e ∨ e.soils = false ∧ w.screen.dirty = false := by
  simp [not_flips hsame.calls, hsoils, hsame.dirty]

/-- What one event does to the dirty mark: a flip takes it away, and an event that soils puts it there. -/
theorem dirty_after (h : w.InStep s) (e : WindowEvent) :
    (e.after w).screen.dirty = false ↔ Flips w e ∨ e.soils = false ∧ w.screen.dirty = false := by
  cases e with
  | openWindow =>
    have hcalls : (openWindow.after w).calls = w.calls ++ #[.init, .caption w.title, .setMode _ _] := rfl
    simp [flips_iff hcalls, after, Window.openWindow, soils]
  | close =>
    rcases w.close_cases with ⟨-, hclose⟩ | ⟨-, hclose⟩
    · exact dirty_after_of_same (by rw [after, hclose]; exact .refl w) rfl
    · have hcalls : (close.after w).calls = w.calls ++ #[.quit] := by
        rw [after, hclose]
        rfl
      rw [flips_iff hcalls, after, hclose]
      simp [soils, Window.call]
  | render =>
    rcases w.render_cases with ⟨-, hrender⟩ | ⟨-, -, hrender⟩
    · exact dirty_after_of_same (by rw [after, hrender]; exact .refl w) rfl
    · have hcalls : (render.after w).calls = w.calls ++ w.paint.toArray := by
        rw [after, hrender]
        rfl
      rw [flips_iff hcalls, after, hrender]
      simp [Window.paint]
  | screen e =>
    have hsoils : (screen e).soils = e.touches w.screen := e.touches_congr h.width.symm h.height.symm
    have hafter : (screen e).after w = { w with screen := e.after w.screen } := e.after_window w
    have hquiet : ¬ Flips w (screen e) := not_flips (by rw [hafter])
    rw [hafter, e.dirty_after, hsoils]
    simp [hquiet, and_comm]
  | key e => exact dirty_after_of_same (w.sameShow_key e) rfl
  | keyboard name down => exact dirty_after_of_same (w.sameShow_handleKey name down) rfl
  | processEvents => exact dirty_after_of_same w.sameShow_processEvents rfl

theorem dirty_play (hs : 0 < s) (h : w.InStep s) (hdirty : w.screen.dirty = true) (events : List WindowEvent) :
    (play events w).screen.dirty = false ↔ CleanSinceFlip w events := by
  induction events using List.reverseRecOn with
  | nil =>
    rw [play, List.foldl_nil, hdirty]
    simp [CleanSinceFlip]
  | append_singleton events e ih =>
    rw [play_concat, dirty_after (inStep_play hs h events), cleanSinceFlip_concat, ih]

/-! ## What a rendering leaves to be seen -/

/-- **No change of the screen is lost.** After any row of events an open window shows its frame buffer once it has
rendered: the picture shown last has the size of the window, and each of its pixels is white or black as the frame
buffer pixel there is lit or dark. The rendering makes no call if and only if the window is closed or no event has
marked it dirty since the last flip. -/
theorem shown_of_render {s : Int} (hs : 1 ≤ s) (title : String) (pending : List (List Event))
    (events : List WindowEvent) :
    let fresh : Window := { scale := some s, title, pending }
    let w := play events fresh
    (w.isOpen = true → ∃ picture, w.render.glass.shown = some picture ∧
      picture.width = some (64 * s) ∧ picture.height = some (32 * s) ∧
      ∀ X Y, 0 ≤ X → X < 64 * s → 0 ≤ Y → Y < 32 * s →
        picture.colourAt X Y =
          some (if w.render.screen.pixel (X / s).toNat (Y / s).toNat then ⟨255, 255, 255⟩ else ⟨0, 0, 0⟩)) ∧
    (w.render.calls = w.calls ↔ w.isOpen = false ∨ CleanSinceFlip fresh events) := by
  intro fresh w
  have hfresh : fresh.InStep s := inStep_new s title pending
  have hw : w.InStep s := inStep_play hs hfresh events
  constructor
  · intro hopen
    have hrender : w.render.InStep s := hw.render hs
    obtain ⟨picture, hshown, hshows⟩ := hrender.shown (w.isOpen_render ▸ hopen) (w.dirty_render hopen)
    have hwidth := hshows.width
    have hheight := hshows.height
    have hcolour := hshows.colour
    rw [hrender.width] at hwidth hcolour
    rw [hrender.height] at hheight hcolour
    exact ⟨picture, hshown, hwidth, hheight, hcolour⟩
  · rw [← dirty_play hs hfresh rfl events]
    exact w.calls_render_eq_iff

theorem shown_of_render_drawn :
    let events := [openWindow, screen (.draw 3 4 1)]
    let w := play events { scale := some 2 }
    (1 : Int) ≤ 2 ∧ w.isOpen = true ∧
      (∃ picture, w.render.glass.shown = some picture ∧
        picture.colourAt 7 9 = some ⟨255, 255, 255⟩ ∧ picture.colourAt 5 9 = some ⟨0, 0, 0⟩) ∧
      w.render.render.calls = w.render.calls := by
  intro events w
  have hopen : w.isOpen = true := rfl
  have hclean : CleanSinceFlip { scale := some 2 } (events ++ [render]) :=
    ⟨events, render, [], rfl, ⟨w.paint.toArray, rfl, by simp [Window.paint]⟩, nofun⟩
  obtain ⟨picture, hshown, -, -, hcolour⟩ := (shown_of_render (s := 2) (by decide) "CHIP-8" [] events).1 hopen
  refine ⟨by decide, hopen, ⟨picture, hshown, ?_, ?_⟩, ?_⟩
  · rw [hcolour 7 9 (by decide) (by decide) (by decide) (by decide)]
    decide
  · rw [hcolour 5 9 (by decide) (by decide) (by decide) (by decide)]
    decide
  · exact (shown_of_render (s := 2) (by decide) "CHIP-8" [] (events ++ [render])).2.2 (.inr hclean)

end WindowEvent

end Chip8
