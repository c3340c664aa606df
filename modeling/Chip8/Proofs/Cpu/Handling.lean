import Chip8.Proofs.Cpu.Bounded
import Chip8.Proofs.Cpu.Frames
import Chip8.Proofs.Display.KeyEvent
import Mathlib.Data.List.Induction

/-!
# Handling a processor

What is done to a processor with a frame buffer from outside, one step at a time: a program is loaded, a step is taken,
a timer is set, the timers tick, a key goes down or up. What fails leaves the processor as far as it got, so a row of
handlings can be followed to its end, whatever becomes of each (`Cpu.handled`). Main statements: `soundApart_handled`,
and `keypad_handled`, by which the keypad is what the key events alone make of it.
-/

namespace Chip8

/-- One thing done to a processor. -/
inductive Handling where
  | load (rom : List UInt8)
  | step
  | setDelay (value : Int)
  | setSound (value : Int)
  | tick
  | key (event : KeyEvent)
  deriving DecidableEq, Repr

namespace Handling

/-- The key event that a handling is. -/
def event? : Handling → Option KeyEvent
  | key event => some event
  | _ => none

/-- Does it reach nothing but the timers? -/
def isTiming : Handling → Bool
  | setDelay _ | setSound _ | tick => true
  | _ => false

variable {ρ : Type} [RandomSource ρ]

/-- A handling of a processor. What it answers is dropped. -/
def act : Handling → Act (Cpu FrameBuffer ρ) Unit
  | load rom => Cpu.loadProgram rom
  | step => do
    let _ ← Cpu.step
  | setDelay value => modify fun c => c.setDelayTimer value
  | setSound value => modify fun c => c.setSoundTimer value
  | tick => modify Cpu.tickTimers
  | key event => event.act.within Cpu.devicePart

theorem after_step (c : Cpu FrameBuffer ρ) : step.act.after c = Cpu.step.after c := by
  simp only [Act.after, act, Act.bind_run]
  cases Cpu.step c <;> rfl

theorem after_key (event : KeyEvent) (c : Cpu FrameBuffer ρ) :
    (key event).act.after c = Cpu.devicePart.put c (event.act.after c.device) := Act.after_within _ _ _

theorem after_timing {h : Handling} (htiming : h.isTiming = true) (c : Cpu FrameBuffer ρ) :
    ∃ delay sound, h.act.after c = c.withMachine { c.machine with delayTimer := delay, soundTimer := sound } := by
  cases h with
  | setDelay value => exact ⟨value % 256, c.machine.soundTimer, rfl⟩
  | setSound value => exact ⟨c.machine.delayTimer, value % 256, rfl⟩
  | tick => exact ⟨_, _, Cpu.tickTimers_eq c⟩
  | load rom | step | key event => cases htiming

end Handling

namespace Cpu

variable {ρ : Type} [RandomSource ρ] {c : Cpu FrameBuffer ρ} {hs : List Handling}

/-- The processor after a row of handlings. -/
def handled (c : Cpu FrameBuffer ρ) (hs : List Handling) : Cpu FrameBuffer ρ := hs.foldl (fun c h => h.act.after c) c

theorem handled_append (c : Cpu FrameBuffer ρ) (hs hs' : List Handling) :
    c.handled (hs ++ hs') = (c.handled hs).handled hs' := List.foldl_append

theorem handled_concat (c : Cpu FrameBuffer ρ) (hs : List Handling) (h : Handling) :
    c.handled (hs ++ [h]) = h.act.after (c.handled hs) := handled_append c hs [h]

/-- What every handling keeps, a row of handlings keeps. -/
theorem keeps_handled {I : Cpu FrameBuffer ρ → Prop} (hkeeps : ∀ h : Handling, Act.Keeps I h.act) (hc : I c) :
    I (c.handled hs) := by
  induction hs generalizing c with
  | nil => exact hc
  | cons h hs ih => exact ih (hkeeps h c hc)

/-! ## The machine -/

/-- Whatever is done to a processor, its machine stays sound apart from its program counter. -/
theorem soundApart_handled (hm : c.machine.SoundApart) (hs : List Handling) : (c.handled hs).machine.SoundApart := by
  refine keeps_handled (I := fun c => c.machine.SoundApart) (fun h c hc => ?_) hm
  cases h with
  | load rom =>
    rcases loadProgram_cases rom c with ⟨e, hload⟩ | ⟨machine, hstart, hload⟩
    · rwa [Handling.act, Act.after_of_error hload]
    · rw [Handling.act, Act.after_of_ok hload]
      exact (Machine.bounded_of_start hstart).apart
  | step =>
    rw [Handling.after_step]
    exact soundApart_step hc
  | setDelay value => exact hc.withDelay (show 0 ≤ value % 256 by omega) (show value % 256 ≤ 0xFF by omega)
  | setSound value => exact hc.withSound (show 0 ≤ value % 256 by omega) (show value % 256 ≤ 0xFF by omega)
  | tick =>
    have htick : (Handling.tick.act.after c).machine = c.machine.ticked := congrArg machine (tickTimers_eq c)
    rw [htick]
    exact hc.ticked
  | key event =>
    rw [Handling.after_key]
    exact hc

end Cpu

/-! ## The world outside -/

/-- What the world outside keeps, a handling keeps, if key events and the drawing of random numbers do. -/
theorem Rig.Kept.after_handling {ρ : Type} [RandomSource ρ] {I : Rig FrameBuffer ρ → Prop} (hI : Kept I)
    {c : Cpu FrameBuffer ρ} {h : Handling} (hdraw : h = .step → c.machine.drawsNumber = true → Act.Keeps I draw)
    (hkey : ∀ event, h = .key event → I { c.rig with device := event.act.after c.device }) (hc : I c.rig) :
    I (h.act.after c).rig := by
  cases h with
  | load rom =>
    rcases Cpu.loadProgram_cases rom c with ⟨e, hload⟩ | ⟨machine, -, hload⟩
    · rwa [Handling.act, Act.after_of_error hload]
    · rw [Handling.act, Act.after_of_ok hload]
      exact hI.withMachine _ machine hc
  | step =>
    rw [Handling.after_step]
    exact hI.after_step (hdraw rfl) hc
  | key event =>
    rw [Handling.after_key]
    exact hkey event rfl
  | setDelay value | setSound value => exact hI.withMachine c.rig _ hc
  | tick =>
    have htick : (Handling.tick.act.after c).rig = { c.rig with machine := c.machine.ticked } :=
      congrArg Cpu.rig (Cpu.tickTimers_eq c)
    rw [htick]
    exact hI.withMachine _ _ hc

namespace Cpu

variable {ρ : Type} [RandomSource ρ] {c : Cpu FrameBuffer ρ} {hs : List Handling}

/-- **The keypad is what key events make of it**, and nothing else that is done to a processor touches it. -/
theorem keypad_handled (hvalid : ∀ e ∈ hs.filterMap Handling.event?, e.isValid = true) :
    (c.handled hs).device.keypad = (KeyEvent.play (hs.filterMap Handling.event?) c.device).keypad := by
  induction hs using List.reverseRecOn with
  | nil => rfl
  | append_singleton hs h ih =>
    rw [List.filterMap_append] at hvalid ⊢
    have hkept := ih fun e he => hvalid e (List.mem_append_left _ he)
    rw [handled_concat]
    cases hevent : h.event? with
    | none =>
      have hrest : (h.act.after (c.handled hs)).device.keypad = (c.handled hs).device.keypad :=
        (Rig.kept_keypad _).after_handling (fun _ _ => Rig.keeps_draw fun _ _ hkeypad => hkeypad)
          (fun event heq => by rw [heq] at hevent; cases hevent) rfl
      rw [hrest, hkept, List.filterMap_cons_none hevent, List.filterMap_nil, List.append_nil]
    | some event =>
      obtain rfl : h = .key event := by
        cases h <;> cases hevent
        rfl
      have he : event.isValid = true := hvalid event (by simp [hevent])
      have hevents : [Handling.key event].filterMap Handling.event? = [event] := rfl
      rw [hevents, KeyEvent.keypad_play_concat he, ← hkept, Handling.after_key, KeyEvent.after_act he]
      rfl

/-- Handlings that reach nothing but the timers. -/
theorem handled_timing (htiming : ∀ h ∈ hs, h.isTiming = true) (c : Cpu FrameBuffer ρ) :
    ∃ delay sound, c.handled hs = c.withMachine { c.machine with delayTimer := delay, soundTimer := sound } := by
  induction hs generalizing c with
  | nil => exact ⟨c.machine.delayTimer, c.machine.soundTimer, rfl⟩
  | cons h hs ih =>
    obtain ⟨delay, sound, hafter⟩ := Handling.after_timing (htiming h List.mem_cons_self) c
    obtain ⟨delay', sound', hrest⟩ := ih (fun h' hh' => htiming h' (List.mem_cons_of_mem _ hh')) (h.act.after c)
    exact ⟨delay', sound', by rw [handled, List.foldl_cons, ← handled, hrest, hafter]; rfl⟩

end Cpu

end Chip8
