import Chip8.Proofs.Bits
import Chip8.Proofs.Display.Newest
import Chip8.Proofs.Display.WindowEvent

/-!
# The keyboard of a window

An open window is delivered events in batches and applies every event of a batch, those after a request to quit
included. So what programs see of the keyboard can be read off all events delivered so far, whatever the batches were:
a key is held if and only if the last event about its name put it down, and from the first request to quit on the
window asks to stop. What is done with the window in between does not matter, as long as it leaves the keypad alone.
Main statement: `heldKeys_play`.
-/

namespace Chip8

namespace Window

/-- The name that the layout gives a keypad key. -/
def nameOf? (key : Nat) : Option String := (keyLayout.find? fun row => row.2 = key).map Prod.fst

/-- No two names of the layout stand for one key. -/
theorem name_unique : ∀ row ∈ keyLayout, ∀ row' ∈ keyLayout, row.2 = row'.2 → row.1 = row'.1 := by decide

theorem lookup_name : ∀ row ∈ keyLayout, keyLayout.lookup row.1 = some row.2 := by decide

theorem exists_name : ∀ key < 16, ∃ row ∈ keyLayout, row.2 = key := by decide

theorem key_lt : ∀ row ∈ keyLayout, row.2 < 16 := by decide

/-- Each of the sixteen keys has a name, and it is the only one for that key. -/
theorem exists_nameOf {key : Nat} (h : key < 16) :
    ∃ name, nameOf? key = some name ∧ ∀ s, keyOf? s = some key ↔ s.map Char.toLower = name := by
  obtain ⟨row, hrow, rfl⟩ := exists_name key h
  have hfound : (keyLayout.find? fun row' => row'.2 = row.2).isSome := by
    simp only [List.find?_isSome, decide_eq_true_eq]
    exact ⟨row, hrow, rfl⟩
  obtain ⟨row', hrow'⟩ := Option.isSome_iff_exists.1 hfound
  have hmem : row' ∈ keyLayout := List.mem_of_find?_eq_some hrow'
  have hkey : row'.2 = row.2 := by simpa using List.find?_some hrow'
  refine ⟨row'.1, by rw [nameOf?, hrow', Option.map_some], fun s => ?_⟩
  constructor
  · intro hs
    obtain ⟨above, below, hlayout, -⟩ := List.lookup_eq_some_iff.1 hs
    exact name_unique (s.map Char.toLower, row.2) (by simp [hlayout]) row' hmem hkey.symm
  · intro hs
    rw [keyOf?, hs, lookup_name row' hmem, hkey]

theorem key_lt_of_keyOf {name : String} {key : Nat} (h : keyOf? name = some key) : key < 16 := by
  obtain ⟨above, below, hlayout, -⟩ := List.lookup_eq_some_iff.1 h
  exact key_lt (name.map Char.toLower, key) (by simp [hlayout])

theorem lower_eq {s t : String} (h : s.toList.map Char.toLower = t.toList) : s.map Char.toLower = t :=
  String.toList_injective (by rw [String.toList_map, h])

theorem keyOf?_escapeKey : keyOf? escapeKey = none := by
  rw [keyOf?, lower_eq (t := escapeKey) (by decide)]
  decide

end Window

namespace KeyEvent

/-- A key that goes down or up. -/
def move (key : Nat) (down : Bool) : KeyEvent := if down then press key else release key

theorem isValid_move {key : Nat} (h : key < 16) (down : Bool) : (move key down).isValid = true := by
  cases down <;> exact Keypad.isKey_iff.2 ⟨key, h, rfl⟩

theorem leaves_move (key other : Nat) (held down : Bool) :
    (move other down).leaves key held = if other = key then down else held := by
  cases down <;> by_cases h : other = key <;> simp [move, leaves, h]

theorem keypad_play {events : List KeyEvent} (h : ∀ e ∈ events, e.isValid = true) (f : FrameBuffer) :
    (play events f).keypad = events.foldl (fun k e => e.onKeypad k) f.keypad := by
  induction events using List.reverseRecOn with
  | nil => rfl
  | append_singleton events e ih =>
    obtain ⟨hevents, he⟩ := forall_valid_concat h
    rw [keypad_play_concat he, ih hevents, List.foldl_append]
    rfl

end KeyEvent

namespace Event

/-- The name of the key that went down or up, and whether it went down. -/
def stroke? : Event → Option (String × Bool)
  | keyDown name => some (name, true)
  | keyUp name => some (name, false)
  | quit | other => none

/-- What an event does to the keypad, if it is about a key of the layout. -/
def keyEvent? (e : Event) : Option KeyEvent :=
  e.stroke?.bind fun (name, down) => (Window.keyOf? name).map fun key => .move key down

/-- Does the event ask to quit? -/
def quits : Event → Bool
  | quit => true
  | keyDown name => name = Window.escapeKey
  | keyUp _ | other => false

/-- If the event is about the key of this name: did the key go down? Names are compared in lower case. -/
def moves? (name : String) (e : Event) : Option Bool :=
  e.stroke?.bind fun (key, down) => if key.map Char.toLower = name then some down else none

theorem forall_valid (events : List Event) : ∀ k ∈ events.filterMap keyEvent?, k.isValid = true := by
  intro k hk
  obtain ⟨e, -, he⟩ := List.mem_filterMap.1 hk
  obtain ⟨⟨name, down⟩, -, hstroke⟩ := Option.bind_eq_some_iff.1 he
  obtain ⟨key, hkey, rfl⟩ := Option.map_eq_some_iff.1 hstroke
  exact KeyEvent.isValid_move (Window.key_lt_of_keyOf hkey) down

/-- What one event does to a key is decided by its name. -/
theorem heldAfter_keyEvent {key : Nat} {name : String}
    (hname : ∀ s, Window.keyOf? s = some key ↔ s.map Char.toLower = name) (past : List KeyEvent) (e : Event) :
    KeyEvent.heldAfter (past ++ e.keyEvent?.toList) key = (e.moves? name).getD (KeyEvent.heldAfter past key) := by
  rw [keyEvent?, moves?]
  cases e.stroke? with
  | none => simp
  | some stroke =>
    obtain ⟨s, down⟩ := stroke
    simp only [Option.bind_some, ← hname s]
    cases Window.keyOf? s with
    | none => simp
    | some other =>
      rw [Option.map_some, Option.toList_some, KeyEvent.heldAfter_concat, KeyEvent.leaves_move]
      by_cases hkey : other = key <;> simp [hkey]

/-- The last event about a key decides whether it is held. -/
theorem heldAfter_iff {key : Nat} {name : String}
    (hname : ∀ s, Window.keyOf? s = some key ↔ s.map Char.toLower = name) (events : List Event) :
    KeyEvent.heldAfter (events.filterMap keyEvent?) key = true ↔
      (events.filterMap (moves? name)).getLast? = some true := by
  induction events using List.reverseRecOn with
  | nil => simp [KeyEvent.heldAfter]
  | append_singleton events e ih =>
    have hlast : [e].filterMap keyEvent? = e.keyEvent?.toList := by cases he : e.keyEvent? <;> simp [he]
    rw [List.filterMap_append, List.filterMap_append, hlast, heldAfter_keyEvent hname]
    cases he : e.moves? name with
    | none => simpa [he] using ih
    | some down => simp [he]

end Event

namespace Window

variable {w : Window}

/-! ## One batch -/

theorem handleKey_eq (w : Window) (name : String) (down : Bool) :
    (w.handleKey name down).2 =
      let event? := (keyOf? name).map fun key => KeyEvent.move key down
      { w with screen := { w.screen with keypad := event?.elim id KeyEvent.onKeypad w.screen.keypad } } := by
  rw [handleKey]
  cases keyOf? name with
  | none => rfl
  | some key => cases down <;> rfl

/-- What one event does: the keypad follows the keys of the layout and no others, and a request to quit stays. -/
theorem handleEvent_eq (w : Window) (e : Event) :
    w.handleEvent e = { w with
      screen := { w.screen with keypad := e.keyEvent?.elim id KeyEvent.onKeypad w.screen.keypad }
      quitRequested := w.quitRequested || e.quits } := by
  cases e with
  | quit => rw [Event.quits, Bool.or_true]; rfl
  | other => rw [Event.quits, Bool.or_false]; rfl
  | keyUp name =>
    rw [Event.quits, Bool.or_false]
    exact handleKey_eq w name false
  | keyDown name =>
    rw [handleEvent, Event.quits]
    split
    · next hescape =>
      -- The key that asks to quit is not in the layout.
      have hkey : (Event.keyDown name).keyEvent? = none := by
        show (keyOf? name).map _ = none
        rw [hescape, keyOf?_escapeKey, Option.map_none]
      rw [hkey, decide_eq_true hescape, Bool.or_true]
      rfl
    · next hother =>
      rw [decide_eq_false hother, Bool.or_false]
      exact handleKey_eq w name true

theorem foldl_handleEvent_eq (batch : List Event) (w : Window) :
    batch.foldl handleEvent w = { w with
      screen := { w.screen with
        keypad := (batch.filterMap Event.keyEvent?).foldl (fun k e => e.onKeypad k) w.screen.keypad }
      quitRequested := w.quitRequested || batch.any Event.quits } := by
  induction batch generalizing w with
  | nil => rw [List.any_nil, Bool.or_false]; rfl
  | cons e batch ih =>
    rw [List.foldl_cons, ih, handleEvent_eq, List.any_cons, Bool.or_assoc, List.filterMap_cons]
    cases e.keyEvent? <;> rfl

end Window

/-- Screen events leave the keys alone. -/
theorem ScreenEvent.keypad_after (e : ScreenEvent) (f : FrameBuffer) : (e.after f).keypad = f.keypad := by
  rcases e.after_cases f with ⟨-, draws, h⟩ | ⟨-, h⟩ | ⟨x, y, bit, -, -, -, h⟩ <;> rw [h] <;> rfl

namespace WindowEvent

variable {w : Window}

/-! ## What a window hears -/

/-- The batch that is delivered to a window during an event. -/
def delivered : WindowEvent → Window → List Event
  | processEvents, w => if w.isOpen then (Window.nextBatch w.pending).1 else []
  | _, _ => []

/-- All that is delivered to a window during a row of events. -/
def heard : List WindowEvent → Window → List Event
  | [], _ => []
  | e :: events, w => e.delivered w ++ heard events (e.after w)

/-- Is this a call to the keypad? -/
def isKeypadCall : WindowEvent → Bool
  | key _ | keyboard _ _ => true
  | _ => false

theorem heard_append (events later : List WindowEvent) (w : Window) :
    heard (events ++ later) w = heard events w ++ heard later (play events w) := by
  induction events generalizing w with
  | nil => rfl
  | cons e events ih => exact (congrArg _ (ih (e.after w))).trans (List.append_assoc ..).symm

theorem heard_concat (events : List WindowEvent) (e : WindowEvent) (w : Window) :
    heard (events ++ [e]) w = heard events w ++ e.delivered (play events w) := by
  rw [heard_append, heard, heard, List.append_nil]

/-- Processing events applies the batch that is delivered, all of it. -/
theorem processEvents_eq (w : Window) :
    w.processEvents.2 = (processEvents.delivered w).foldl Window.handleEvent
      { w with pending := if w.isOpen then (Window.nextBatch w.pending).2 else w.pending } := by
  rw [Window.processEvents, delivered]
  split <;> rfl

theorem quitRequested_after (e : WindowEvent) (w : Window) :
    (e.after w).quitRequested = (w.quitRequested || (e.delivered w).any Event.quits) := by
  cases e with
  | openWindow => exact (Bool.or_false _).symm
  | close => rcases w.close_cases with ⟨-, h⟩ | ⟨-, h⟩ <;> rw [after, h] <;> exact (Bool.or_false _).symm
  | render => rcases w.render_cases with ⟨-, h⟩ | ⟨-, -, h⟩ <;> rw [after, h] <;> exact (Bool.or_false _).symm
  | screen e => rw [after, e.after_window]; exact (Bool.or_false _).symm
  | key e => exact (Bool.or_false _).symm
  | keyboard name down => exact (congrArg Window.quitRequested (w.handleKey_eq name down)).trans (Bool.or_false _).symm
  | processEvents => rw [after, processEvents_eq, Window.foldl_handleEvent_eq]

theorem answer_processEvents (w : Window) :
    w.processEvents.1 = !(w.quitRequested || (processEvents.delivered w).any Event.quits) := by
  rw [← quitRequested_after, after, Window.processEvents]
  split <;> rfl

theorem keypad_after {e : WindowEvent} (h : e.isKeypadCall = false) (w : Window) :
    (e.after w).screen.keypad =
      ((e.delivered w).filterMap Event.keyEvent?).foldl (fun k e => e.onKeypad k) w.screen.keypad := by
  cases e with
  | openWindow => rfl
  | close => rcases w.close_cases with ⟨-, h⟩ | ⟨-, h⟩ <;> rw [after, h] <;> rfl
  | render => rcases w.render_cases with ⟨-, h⟩ | ⟨-, -, h⟩ <;> rw [after, h] <;> rfl
  | screen e => rw [after, e.after_window]; exact e.keypad_after w.screen
  | key e => cases h
  | keyboard name down => cases h
  | processEvents => rw [after, processEvents_eq, Window.foldl_handleEvent_eq]

theorem quitRequested_play (events : List WindowEvent) (w : Window) :
    (play events w).quitRequested = (w.quitRequested || (heard events w).any Event.quits) := by
  induction events generalizing w with
  | nil => exact (Bool.or_false _).symm
  | cons e events ih =>
    rw [heard, List.any_append, ← Bool.or_assoc, ← quitRequested_after]
    exact ih (e.after w)

theorem keypad_play {events : List WindowEvent} (h : ∀ e ∈ events, e.isKeypadCall = false) (w : Window) :
    (play events w).screen.keypad = (KeyEvent.play ((heard events w).filterMap Event.keyEvent?) w.screen).keypad := by
  rw [KeyEvent.keypad_play (Event.forall_valid _)]
  induction events generalizing w with
  | nil => rfl
  | cons e events ih =>
    rw [heard, List.filterMap_append, List.foldl_append, ← keypad_after (h e List.mem_cons_self)]
    exact ih (fun e' he => h e' (List.mem_cons_of_mem e he)) (e.after w)

/-! ## What programs see of the keyboard -/

/-- **The keyboard as programs see it.** Take a new window that is opened, and anything done with it from then on that
makes no calls to the keypad. A key is held if and only if the last event heard about its name, in lower case, put it
down. The keypad is the work of the events about names in the layout alone. Processing events answers yes until a
request to quit has been heard, and no from then on, whatever is done with the window later. -/
theorem heldKeys_play (scale : Length) (title : String) (pending : List (List Event)) (events : List WindowEvent)
    (hkeys : ∀ e ∈ events, e.isKeypadCall = false) :
    let opened := ({ scale, title, pending } : Window).openWindow
    let w := play events opened
    (∀ key < 16, ∃ name, Window.nameOf? key = some name ∧
      (Bits.testBit (Device.heldKeys w).1 key = true ↔
        ((heard events opened).filterMap (Event.moves? name)).getLast? = some true)) ∧
    w.screen.keypad = (KeyEvent.play ((heard events opened).filterMap Event.keyEvent?) .standard).keypad ∧
    w.processEvents.1 = !(heard (events ++ [processEvents]) opened).any Event.quits ∧
    (w.processEvents.1 = false → ∀ later, (play later w.processEvents.2).processEvents.1 = false) := by
  intro opened w
  have hkeypad : w.screen.keypad = (KeyEvent.play ((heard events opened).filterMap Event.keyEvent?) .standard).keypad :=
    keypad_play hkeys opened
  have hquit : w.processEvents.1 = !(heard (events ++ [processEvents]) opened).any Event.quits := by
    rw [answer_processEvents, quitRequested_play, heard_concat, List.any_append]
    rfl
  refine ⟨fun key hkey => ?_, hkeypad, hquit, fun hstop later => ?_⟩
  · obtain ⟨name, hlayout, hname⟩ := Window.exists_nameOf hkey
    refine ⟨name, hlayout, ?_⟩
    rw [← Event.heldAfter_iff hname, ← KeyEvent.holds_play (f := .standard) rfl (Event.forall_valid _), ← hkeypad]
    rfl
  · rw [answer_processEvents, ← quitRequested_after, Bool.not_eq_false'] at hstop
    rw [answer_processEvents, quitRequested_play, show w.processEvents.2.quitRequested = true from hstop]
    rfl

theorem heldKeys_play_quitting :
    let batch : List Event := [.keyDown "Q", .keyDown "1", .quit, .keyUp "Q"]
    let w := play [processEvents, render] ({ pending := [batch] } : Window).openWindow
    (∀ e ∈ [processEvents, render], e.isKeypadCall = false) ∧ Bits.testBit (Device.heldKeys w).1 0x1 = true ∧
      Bits.testBit (Device.heldKeys w).1 0x4 = false ∧ w.processEvents.1 = false ∧
      w.processEvents.2.close.processEvents.1 = false := by
  intro batch w
  have hkeys : ∀ e ∈ [processEvents, render], e.isKeypadCall = false := by decide
  obtain ⟨hheld, -, hquit, hstays⟩ := heldKeys_play (some 10) "CHIP-8" [batch] [processEvents, render] hkeys
  have hstop : w.processEvents.1 = false := hquit.trans (by decide)
  have hone : "1".map Char.toLower = "1" := Window.lower_eq (by decide)
  have hq : "Q".map Char.toLower = "q" := Window.lower_eq (by decide)
  have hheard : heard [processEvents, render] ({ pending := [batch] } : Window).openWindow = batch := rfl
  have hones : batch.filterMap (Event.moves? "1") = [true] := by
    simp [batch, Event.moves?, Event.stroke?, List.filterMap_cons, hone, hq]
  have hqs : batch.filterMap (Event.moves? "q") = [true, false] := by
    simp [batch, Event.moves?, Event.stroke?, List.filterMap_cons, hone, hq]
  refine ⟨hkeys, ?_, ?_, hstop, hstays hstop [close]⟩
  · obtain ⟨name, hname, hiff⟩ := hheld 0x1 (by decide)
    obtain rfl : "1" = name := Option.some_inj.1 hname
    exact hiff.2 (by rw [hheard, hones]; rfl)
  · obtain ⟨name, hname, hiff⟩ := hheld 0x4 (by decide)
    obtain rfl : "q" = name := Option.some_inj.1 hname
    exact Bool.eq_false_iff.2 (mt hiff.1 (by rw [hheard, hqs]; decide))

end WindowEvent

end Chip8
