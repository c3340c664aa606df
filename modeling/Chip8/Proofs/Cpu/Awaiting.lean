import Chip8.Proofs.Bits
import Chip8.Proofs.Cpu.Handling
import Chip8.Proofs.Display.Newest
import Chip8.Proofs.Machine.Stores

/-!
# Waiting for a key

A keypad has two parts: the mask of the keys held, by which EX9E and EXA1 decide, and the active key, for which FX0A
waits. After any row of key events the two agree with each other and with the events (`agrees_play`). So FX0A goes on
if and only if some key is held, and the key that it stores is one that EX9E finds held. Main statement:
`awaitKey_of_held`.
-/

namespace Chip8

/-! ## The two parts of a keypad -/

/-- The mask and the active key agree, and the mask holds the keys it should. -/
structure Keypad.Agrees (k : Keypad) (held : Nat → Bool) : Prop where
  holds : ∀ n, k.holds n = held n
  active_eq_none_iff : k.active = none ↔ k.held = 0
  held_of_active : ∀ n, k.active = some n → n < 16 ∧ k.holds n = true

namespace Keypad.Agrees

variable {k : Keypad} {held : Nat → Bool}

/-- There is an active key if and only if a key is held. -/
theorem exists_active_iff (hk : k.Agrees held) : (∃ n, k.active = some n) ↔ ∃ n, held n = true := by
  constructor
  · rintro ⟨n, hn⟩
    exact ⟨n, hk.holds n ▸ (hk.held_of_active n hn).2⟩
  · rintro ⟨n, hn⟩
    rw [← hk.holds n] at hn
    refine Option.ne_none_iff_exists'.1 fun hnone => ?_
    rw [Keypad.holds, hk.active_eq_none_iff.1 hnone, Nat.zero_testBit] at hn
    cases hn

end Keypad.Agrees

namespace KeyEvent

variable {events : List KeyEvent} {f : FrameBuffer}

theorem heldAfter_of_answer (hfresh : f.keypad = {}) (hvalid : ∀ e ∈ events, e.isValid = true) {key : Int}
    (h : (play events f).keypad.answer = some key) : heldAfter events key = true := by
  rw [answer_play hfresh hvalid] at h
  rcases Option.or_eq_some_iff.1 h with hlast | ⟨-, hhighest⟩
  · exact heldAfter_of_newest? (newest?_of_lastHeld? hlast).1
  · obtain ⟨n, hn, rfl⟩ := Option.map_eq_some_iff.1 hhighest
    simpa using List.find?_some hn

theorem held_play_eq_zero_iff (hfresh : f.keypad = {}) (hvalid : ∀ e ∈ events, e.isValid = true) :
    (play events f).keypad.held = 0 ↔ ∀ key, heldAfter events key = false := by
  constructor
  · intro hzero key
    by_contra hheld
    have hheld : heldAfter events key = true := by simpa using hheld
    obtain ⟨n, -, rfl⟩ := Keypad.isKey_iff.1 (isKey_of_heldAfter hvalid hheld)
    rw [← holds_play hfresh hvalid n, Keypad.holds, hzero, Nat.zero_testBit] at hheld
    cases hheld
  · intro hnone
    refine Nat.eq_of_testBit_eq fun n => ?_
    rw [Nat.zero_testBit]
    exact (holds_play hfresh hvalid n).trans (hnone n)

/-- **After any row of key events** the two parts of the keypad agree: there is no active key if and only if the mask
is empty, and otherwise the mask has it; and the mask has just the keys that were pressed and not released since. -/
theorem agrees_play (hfresh : f.keypad = {}) (hvalid : ∀ e ∈ events, e.isValid = true) :
    (play events f).keypad.Agrees fun n => heldAfter events n where
  holds := holds_play hfresh hvalid
  active_eq_none_iff := by
    have hanswer : (play events f).keypad.active = none ↔ (play events f).keypad.answer = none :=
      Option.map_eq_none_iff.symm
    rw [hanswer, held_play_eq_zero_iff hfresh hvalid]
    constructor
    · intro hnone
      rw [answer_play hfresh hvalid, Option.or_eq_none_iff] at hnone
      exact (highest?_eq_none_iff hvalid).1 hnone.2
    · intro hnone
      refine Option.eq_none_iff_forall_ne_some.2 fun key hkey => ?_
      have hheld := heldAfter_of_answer hfresh hvalid hkey
      rw [hnone key] at hheld
      cases hheld
  held_of_active := by
    intro n hn
    have hheld : heldAfter events n = true := heldAfter_of_answer hfresh hvalid (congrArg (Option.map Int.ofNat) hn)
    obtain ⟨m, hm, heq⟩ := Keypad.isKey_iff.1 (isKey_of_heldAfter hvalid hheld)
    exact ⟨by omega, (holds_play hfresh hvalid n).trans hheld⟩

end KeyEvent

namespace Cpu

variable {ρ : Type} [RandomSource ρ] {c : Cpu FrameBuffer ρ} {w : UInt16}

/-! ## Waiting and looking -/

/-- The next step completes, and moves the program counter by this distance. -/
def MovesBy (c : Cpu FrameBuffer ρ) (distance : Int) : Prop :=
  ∃ e d, step c = .ok e d ∧ d.machine.pc = c.machine.pc + distance

theorem MovesBy.eq {a b : Int} (ha : c.MovesBy a) (hb : c.MovesBy b) : a = b := by
  obtain ⟨e, d, hstep, hpc⟩ := ha
  obtain ⟨e', d', hstep', hpc'⟩ := hb
  rw [hstep] at hstep'
  cases hstep'
  omega

theorem step_awaitKey (hm : c.machine.SoundApart) (hrun : c.machine.halted = false)
    (hword : c.machine.word? = some w) (hop : Op.ofWord? w = some .awaitKey) :
    ∃ e d, step c = .ok e d ∧ d.device = c.device ∧
      d.machine = (c.machine.effect w { key := c.device.keypad.answer } .awaitKey).counted := by
  refine ⟨_, _, step_of_reply (hm.sound_of_word hword) hrun hword hop rfl rfl, ?_, ?_⟩
  · rw [device, rig_keep]
    rfl
  · rw [machine, rig_keep]
    rfl

/-- EX9E and EXA1 look the key in their register up in the mask, if it is one. -/
theorem step_onKey (hm : c.machine.SoundApart) (hrun : c.machine.halted = false)
    (hword : c.machine.word? = some w) {op : Op} (hop : Op.ofWord? w = some op)
    (hkeys : op = .skipKey ∨ op = .skipNoKey) {key : Nat} (hkey : key < 16)
    (hreg : (c.machine.reg (Word.x w)).toNat = key) :
    ∃ e d, step c = .ok e d ∧ d.machine = (c.machine.effect w { held := c.device.keypad.holds key } op).counted := by
  have hconsult : Rig.consult w op c.rig = .ok { held := c.device.keypad.holds key } c.rig := by
    have hreg' : (c.rig.machine.reg (Word.x w)).toNat = key := hreg
    have hmask : Rig.heldKeys c.rig = .ok (c.device.keypad.held : Int) c.rig := rfl
    rcases hkeys with rfl | rfl <;>
      simp [Rig.consult, Rig.isHeld, hreg', hkey, hmask, Bits.testBit_natCast, Keypad.holds]
  have hobstacle : c.machine.obstacle? w op = none := by rcases hkeys with rfl | rfl <;> rfl
  refine ⟨_, _, step_of_reply (hm.sound_of_word hword) hrun hword hop hobstacle hconsult, ?_⟩
  rw [machine, rig_keep]
  rfl

/-- A key that is held and in a register is found there: EX9E skips, and EXA1 does not. -/
theorem movesBy_of_holds (hm : c.machine.SoundApart) (hrun : c.machine.halted = false) {key x : Nat} (hkey : key < 16)
    (hholds : c.device.keypad.holds key = true) (hx : x < 16) (hreg : (c.machine.reg x).toNat = key) :
    (c.machine.word? = some (.ofNat (0xE09E + 0x100 * x)) → c.MovesBy 4) ∧
      (c.machine.word? = some (.ofNat (0xE0A1 + 0x100 * x)) → c.MovesBy 2) := by
  constructor
  · intro hword
    obtain ⟨hop, hdigit⟩ : Op.ofWord? (.ofNat (0xE09E + 0x100 * x)) = some .skipKey ∧ _ :=
      Op.ofWord?_register hx rfl (by decide) rfl
    obtain ⟨e, d, hstep, hmachine⟩ := step_onKey hm hrun hword hop (.inl rfl) hkey (by rw [hdigit, hreg])
    exact ⟨e, d, hstep, by rw [hmachine, hholds]; rfl⟩
  · intro hword
    obtain ⟨hop, hdigit⟩ : Op.ofWord? (.ofNat (0xE0A1 + 0x100 * x)) = some .skipNoKey ∧ _ :=
      Op.ofWord?_register hx rfl (by decide) rfl
    obtain ⟨e, d, hstep, hmachine⟩ := step_onKey hm hrun hword hop (.inr rfl) hkey (by rw [hdigit, hreg])
    exact ⟨e, d, hstep, by rw [hmachine, hholds]; rfl⟩

/-- How FX0A on a register waits, when these are the keys held. -/
structure WaitsFor (c : Cpu FrameBuffer ρ) (held : Nat → Bool) (x : Nat) : Prop where
  stays_or_goes : c.MovesBy 0 ∨ c.MovesBy 2
  goes_iff : c.MovesBy 2 ↔ ∃ key, held key = true
  stores : c.MovesBy 2 → ∃ key < 16, held key = true ∧ ((step.after c).machine.reg x).toNat = key
  /-- As long as nothing but the timers is touched, EX9E on the same register skips next, and EXA1 does not. -/
  finds : c.MovesBy 2 → ∀ hs, (∀ h ∈ hs, h.isTiming = true) →
    (((step.after c).handled hs).machine.word? = some (.ofNat (0xE09E + 0x100 * x)) →
      ((step.after c).handled hs).MovesBy 4) ∧
    (((step.after c).handled hs).machine.word? = some (.ofNat (0xE0A1 + 0x100 * x)) →
      ((step.after c).handled hs).MovesBy 2)

/-- Once FX0A has stored a key that is held, it is found as long as nothing but the timers is touched. -/
theorem finds_of_stored {key x : Nat} {d : Cpu FrameBuffer ρ} {hs : List Handling} (hm : d.machine.SoundApart)
    (hrun : d.machine.halted = false) (hkey : key < 16) (hholds : d.device.keypad.holds key = true) (hx : x < 16)
    (hreg : (d.machine.reg x).toNat = key) (htiming : ∀ h ∈ hs, h.isTiming = true) :
    ((d.handled hs).machine.word? = some (.ofNat (0xE09E + 0x100 * x)) → (d.handled hs).MovesBy 4) ∧
      ((d.handled hs).machine.word? = some (.ofNat (0xE0A1 + 0x100 * x)) → (d.handled hs).MovesBy 2) := by
  obtain ⟨delay, sound, hhandled⟩ := handled_timing htiming d
  have hapart := soundApart_handled hm hs
  rw [hhandled] at hapart ⊢
  exact movesBy_of_holds hapart hrun hkey hholds hx hreg

/-- FX0A waits for the keys held, if the two parts of the keypad agree about them. -/
theorem waitsFor_of_agrees {held : Nat → Bool} (hkeypad : c.device.keypad.Agrees held) (hm : c.machine.SoundApart)
    (hrun : c.machine.halted = false) {x : Nat} (hx : x < 16)
    (hword : c.machine.word? = some (.ofNat (0xF00A + 0x100 * x))) : c.WaitsFor held x := by
  obtain ⟨hop, hdigit⟩ : Op.ofWord? (.ofNat (0xF00A + 0x100 * x)) = some .awaitKey ∧ _ :=
    Op.ofWord?_register hx rfl (by decide) rfl
  obtain ⟨e, d, hstep, hdevice, hmachine⟩ := step_awaitKey hm hrun hword hop
  have hactive_iff := hkeypad.exists_active_iff
  cases hactive : c.device.keypad.active with
  | none =>
    rw [Keypad.answer, hactive, Option.map_none] at hmachine
    have hstays : c.MovesBy 0 := ⟨e, d, hstep, by rw [hmachine]; simp [Machine.effect, Machine.counted]⟩
    have hnot : ¬ c.MovesBy 2 := fun hmoves => by simpa using hmoves.eq hstays
    exact {
      stays_or_goes := .inl hstays
      goes_iff := by simp [hnot, ← hactive_iff, hactive]
      stores := fun hmoves => absurd hmoves hnot
      finds := fun hmoves => absurd hmoves hnot }
  | some key =>
    obtain ⟨hkey, hholds⟩ := hkeypad.held_of_active key hactive
    rw [Keypad.answer, hactive, Option.map_some, Machine.effect, hdigit] at hmachine
    replace hmachine : d.machine = (c.machine.assigned x key).counted := hmachine
    have hmoves : c.MovesBy 2 := ⟨e, d, hstep, by rw [hmachine]; rfl⟩
    have hstored : (d.machine.reg x).toNat = key := by
      have hbyte : (UInt8.ofNat key).toNat = key := by rw [UInt8.toNat_ofNat', Nat.mod_eq_of_lt (by omega)]
      have hset : (c.machine.withReg x (UInt8.ofInt key)).reg x = UInt8.ofNat key := by
        rw [Machine.reg_withReg (hm.sound_of_word hword).registers hx, if_pos rfl, Machine.ofInt_digit hbyte]
      rw [hmachine]
      exact (congrArg UInt8.toNat hset).trans hbyte
    have hapart : d.machine.SoundApart := Act.after_of_ok hstep ▸ soundApart_step hm
    have hstill : d.machine.halted = false := by
      rw [hmachine, ← hrun]
      rfl
    exact {
      stays_or_goes := .inr hmoves
      goes_iff := by simp [hmoves, ← hactive_iff, hactive]
      stores := fun _ => by
        rw [Act.after_of_ok hstep]
        exact ⟨key, hkey, hkeypad.holds key ▸ hholds, hstored⟩
      finds := fun _ hs htiming => by
        rw [Act.after_of_ok hstep]
        exact finds_of_stored hapart hstill hkey (hdevice ▸ hholds) hx hstored htiming }

/-- **Waiting for a key.** Steps of a processor with a valid machine and a new frame buffer, and key events between
them in any order: the two parts of the keypad always agree, and an FX0A goes on if and only if some key was pressed
and not released since. What it then stores is such a key, and without a key event in between an EX9E on the same
register skips next, and an EXA1 does not. -/
theorem awaitKey_of_held {width height : Int} (hcreate : FrameBuffer.create width height = .ok c.device)
    (hvalid : c.machine.validate = true) (hs : List Handling)
    (hevents : ∀ e ∈ hs.filterMap Handling.event?, e.isValid = true) :
    (c.handled hs).device.keypad.Agrees (fun key => KeyEvent.heldAfter (hs.filterMap Handling.event?) key) ∧
    ∀ x < 16, (c.handled hs).machine.halted = false →
      (c.handled hs).machine.word? = some (.ofNat (0xF00A + 0x100 * x)) →
      (c.handled hs).WaitsFor (fun key => KeyEvent.heldAfter (hs.filterMap Handling.event?) key) x := by
  have hagrees := KeyEvent.agrees_play (KeyEvent.keypad_of_create hcreate) hevents
  rw [← keypad_handled hevents] at hagrees
  have hm := ((Machine.validate_iff c.machine).1 hvalid).apart
  exact ⟨hagrees, fun x hx hrun hword => waitsFor_of_agrees hagrees (soundApart_handled hm hs) hrun hx hword⟩

/-- A processor about to wait for a key and then to look whether it is held. -/
def awaiting : Cpu FrameBuffer Cycle where
  rig :=
    { machine := { memory := Machine.startMemory [0xF3, 0x0A, 0xE3, 0x9E] }
      device := FrameBuffer.standard
      random := { numbers := #[7] } }
  trace := { limit := none }

/-- Of two keys the one pressed last is released, so the processor goes on with the other, and finds it held. -/
theorem awaitKey_of_held_awaiting :
    (awaiting.handled [.key (.press 5), .key (.press 2), .key (.release 2)]).MovesBy 2 ∧
      (step.after (awaiting.handled [.key (.press 5), .key (.press 2), .key (.release 2)])).MovesBy 4 := by
  have hcreate : FrameBuffer.create 64 32 = .ok awaiting.device := rfl
  have hvalid : awaiting.machine.validate = true := by decide +kernel
  have hwaits := (awaitKey_of_held hcreate hvalid [.key (.press 5), .key (.press 2), .key (.release 2)]
    (by decide)).2 3 (by decide) (by decide +kernel) (by decide +kernel)
  have hgoes := hwaits.goes_iff.2 ⟨5, by decide⟩
  exact ⟨hgoes, (hwaits.finds hgoes [] (by simp)).1 (by decide +kernel)⟩

end Cpu

end Chip8
