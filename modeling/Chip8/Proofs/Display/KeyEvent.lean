import Chip8.Display.FrameBuffer
import Chip8.Proofs.Act

/-!
# Key events

What happens to the keys of a frame buffer from outside. An event with one of the sixteen keys cannot fail, and it
changes nothing but the keypad (`after_act`), so a row of events can be followed on the keypad alone.
-/

namespace Chip8

/-- What happens to the keys. -/
inductive KeyEvent where
  | press (key : Int)
  | release (key : Int)
  | releaseAll
  deriving DecidableEq, Repr

namespace KeyEvent

/-- A key event on a frame buffer. -/
def act : KeyEvent → Act FrameBuffer Unit
  | press key => do
    let f ← Act.ofExcept ((← get).pressKey key)
    set f
  | release key => do
    let f ← Act.ofExcept ((← get).releaseKey key)
    set f
  | releaseAll => modify FrameBuffer.releaseAll

/-- Is the key of the event one of the sixteen? -/
def isValid : KeyEvent → Bool
  | press key | release key => Keypad.isKey key
  | releaseAll => true

/-- The event on the keypad alone. -/
def onKeypad : KeyEvent → Keypad → Keypad
  | press key, k => k.pressed key.toNat
  | release key, k => k.released key.toNat
  | releaseAll, _ => Keypad.allUp

theorem after_act {e : KeyEvent} (h : e.isValid = true) (f : FrameBuffer) :
    e.act.after f = { f with keypad := e.onKeypad f.keypad } := by
  cases e with
  | press key =>
    have hpress : f.keypad.press key = .ok (f.keypad.pressed key.toNat) := if_pos h
    simp [Act.after, act, FrameBuffer.pressKey, hpress, onKeypad, Except.map]
  | release key =>
    have hrelease : f.keypad.release key = .ok (f.keypad.released key.toNat) := if_pos h
    simp [Act.after, act, FrameBuffer.releaseKey, hrelease, onKeypad, Except.map]
  | releaseAll => rfl

/-- An event that fails does nothing, so in any case only the keypad can change. -/
theorem exists_after_act (e : KeyEvent) (f : FrameBuffer) : ∃ keypad, e.act.after f = { f with keypad } := by
  by_cases h : e.isValid = true
  · exact ⟨_, after_act h f⟩
  · refine ⟨f.keypad, ?_⟩
    cases e with
    | press key =>
      have hpress : f.keypad.press key = .error (.invalidKey key) := if_neg h
      simp [Act.after, act, FrameBuffer.pressKey, hpress, Except.map]
    | release key =>
      have hrelease : f.keypad.release key = .error (.invalidKey key) := if_neg h
      simp [Act.after, act, FrameBuffer.releaseKey, hrelease, Except.map]
    | releaseAll => exact absurd rfl h

/-- The frame buffer after a row of events, those that fail included. -/
def play (events : List KeyEvent) (f : FrameBuffer) : FrameBuffer := events.foldl (fun f e => e.act.after f) f

theorem play_concat (events : List KeyEvent) (e : KeyEvent) (f : FrameBuffer) :
    play (events ++ [e]) f = e.act.after (play events f) := by
  rw [play, List.foldl_append]
  rfl

theorem keypad_play_concat {events : List KeyEvent} {e : KeyEvent} (h : e.isValid = true) (f : FrameBuffer) :
    (play (events ++ [e]) f).keypad = e.onKeypad (play events f).keypad := by
  rw [play_concat, after_act h]

end KeyEvent

end Chip8
