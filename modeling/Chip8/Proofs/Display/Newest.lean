import Chip8.Display.Device
import Chip8.Proofs.Display.KeyEvent
import Chip8.Proofs.Display.Pixels
import Mathlib.Algebra.Ring.Int.Defs
import Mathlib.Data.List.Induction

/-!
# The active key and the newest key

A program that asks for a key should get the newest one, that is, of the keys held the one pressed last. A keypad keeps
only a mask and one active key, so it cannot always know. What it does know is the key pressed last of all, and as
long as that one is held it is the newest. Once it is released, the keypad answers with the highest key held:
`answer_play`. Main statement: `activeKey_eq_newest_iff`, which says after which rows of events the answer is the
newest key.
-/

namespace Chip8

/-! ## The highest key -/

/-- What was not found first need not be looked for. -/
theorem find?_and_ne {α : Type} [DecidableEq α] {p : α → Bool} {b : α} :
    ∀ {l : List α}, l.find? p ≠ some b → l.find? (fun a => p a && !decide (b = a)) = l.find? p
  | [], _ => rfl
  | a :: l, h => by
    by_cases ha : p a = true
    · have hb : b ≠ a := by
        rintro rfl
        exact h (List.find?_cons_of_pos ha)
      rw [List.find?_cons_of_pos ha, List.find?_cons_of_pos (by simp [ha, hb])]
    · rw [List.find?_cons_of_neg ha] at h ⊢
      rw [List.find?_cons_of_neg (by simp [ha]), find?_and_ne h]

namespace Keypad

/-- Releasing another key leaves the highest one. -/
theorem highestHeld_released {k : Keypad} {n : Nat} (h : highestHeld k.held ≠ some n) :
    highestHeld (k.released n).held = highestHeld k.held := by
  have hbits : (fun key => (k.released n).held.testBit key) = fun key => k.held.testBit key && !decide (n = key) :=
    funext fun key => holds_released k n key
  rw [highestHeld, hbits]
  exact find?_and_ne h

/-- The active key as programs are told it. -/
def answer (k : Keypad) : Option Int := k.active.map Int.ofNat

/-- If the keypad answers with some key or else with the highest one, then after a release it does so without the
key that was released. -/
theorem answer_released {k : Keypad} {last : Option Int}
    (h : k.answer = last.or ((highestHeld k.held).map Int.ofNat)) (n : Nat) :
    (k.released n).answer = (last.filter (· != (n : Int))).or ((highestHeld (k.released n).held).map Int.ofNat) := by
  have hactive : (k.released n).active =
      if k.active = some n then highestHeld (k.released n).held else k.active := rfl
  cases last with
  | none =>
    have hhighest : k.active = highestHeld k.held := Option.map_injective (fun _ _ => Int.ofNat.inj) h
    rw [answer, hactive, Option.filter_none, Option.none_or]
    split
    · rfl
    · next hother => rw [highestHeld_released (hhighest ▸ hother), hhighest]
  | some key =>
    obtain ⟨m, hm, rfl⟩ := Option.map_eq_some_iff.1 (h.trans Option.some_or)
    rw [answer, hactive, hm]
    by_cases hmn : m = n
    · simp [hmn, Option.filter_some]
    · simp [hmn, Option.filter_some]

/-- A key may be pressed or released if it is one of the sixteen. -/
theorem isKey_iff {key : Int} : isKey key = true ↔ ∃ n : Nat, n < 16 ∧ key = n := by
  simp only [isKey, Bool.and_eq_true, decide_eq_true_eq]
  constructor
  · rintro ⟨hlow, hhigh⟩
    exact ⟨key.toNat, by omega, by omega⟩
  · rintro ⟨n, hn, rfl⟩
    omega

end Keypad

namespace KeyEvent

/-! ## Keys held -/

/-- Is the key held after the event, if `held` says whether it was before? -/
def leaves (key : Int) (held : Bool) : KeyEvent → Bool
  | press other => held || other == key
  | release other => held && other != key
  | releaseAll => false

/-- Was the key pressed and not released since? -/
def heldAfter (events : List KeyEvent) (key : Int) : Bool := events.foldl (leaves key) false

/-- The key that an event presses. -/
def pressed? : KeyEvent → Option Int
  | press key => some key
  | _ => none

/-- The key pressed last of all, held or not. -/
def lastPressed? (events : List KeyEvent) : Option Int := (events.filterMap pressed?).getLast?

/-- Of the keys held the one pressed last. -/
def newest? (events : List KeyEvent) : Option Int := (events.filterMap pressed?).reverse.find? (heldAfter events)

/-- Of the keys held the one with the highest number. -/
def highest? (events : List KeyEvent) : Option Int :=
  ((List.range 16).reverse.find? fun key : Nat => heldAfter events key).map Int.ofNat

variable {events : List KeyEvent}

theorem heldAfter_concat (events : List KeyEvent) (e : KeyEvent) (key : Int) :
    heldAfter (events ++ [e]) key = e.leaves key (heldAfter events key) := by
  rw [heldAfter, List.foldl_append]
  rfl

theorem lastPressed?_press (events : List KeyEvent) (key : Int) : lastPressed? (events ++ [press key]) = some key := by
  simp [lastPressed?, pressed?]

theorem lastPressed?_concat {e : KeyEvent} (h : e.pressed? = none) :
    lastPressed? (events ++ [e]) = lastPressed? events := by
  simp [lastPressed?, h]

theorem forall_valid_concat {e : KeyEvent} (h : ∀ e' ∈ events ++ [e], e'.isValid = true) :
    (∀ e' ∈ events, e'.isValid = true) ∧ e.isValid = true := by
  simpa [or_imp, forall_and] using h

/-- Only one of the sixteen keys is ever held. -/
theorem isKey_of_heldAfter {key : Int} (hvalid : ∀ e ∈ events, e.isValid = true) (h : heldAfter events key = true) :
    Keypad.isKey key = true := by
  induction events using List.reverseRecOn with
  | nil => cases h
  | append_singleton events e ih =>
    obtain ⟨hevents, he⟩ := forall_valid_concat hvalid
    rw [heldAfter_concat] at h
    cases e with
    | press other =>
      simp only [leaves, Bool.or_eq_true, beq_iff_eq] at h
      rcases h with hheld | rfl
      · exact ih hevents hheld
      · exact he
    | release other =>
      simp only [leaves, Bool.and_eq_true] at h
      exact ih hevents h.1
    | releaseAll => cases h

theorem newest?_eq_lastPressed? {key : Int} (hlast : lastPressed? events = some key)
    (hheld : heldAfter events key = true) : newest? events = some key := by
  obtain ⟨rest, hrest⟩ := List.getLast?_eq_some_iff.1 hlast
  rw [newest?, hrest, List.reverse_append]
  exact List.find?_cons_of_pos hheld

theorem heldAfter_of_newest? {key : Int} (h : newest? events = some key) : heldAfter events key = true :=
  List.find?_some h

theorem highest?_eq_none_iff (hvalid : ∀ e ∈ events, e.isValid = true) :
    highest? events = none ↔ ∀ key, heldAfter events key = false := by
  rw [highest?, Option.map_eq_none_iff, List.find?_eq_none]
  constructor
  · intro h key
    by_contra hheld
    obtain ⟨n, hn, rfl⟩ := Keypad.isKey_iff.1 (isKey_of_heldAfter hvalid (by simpa using hheld))
    exact h n (by simpa using hn) (by simpa using hheld)
  · intro h n _
    simp [h n]

/-! ## What the keypad knows -/

variable {f : FrameBuffer}

/-- The mask tells the keys held. -/
theorem holds_play (hfresh : f.keypad = {}) (hvalid : ∀ e ∈ events, e.isValid = true) (n : Nat) :
    (play events f).keypad.holds n = heldAfter events n := by
  induction events using List.reverseRecOn with
  | nil =>
    rw [show (play [] f).keypad = {} from hfresh]
    exact Nat.zero_testBit n
  | append_singleton events e ih =>
    obtain ⟨hevents, he⟩ := forall_valid_concat hvalid
    rw [keypad_play_concat he, heldAfter_concat, ← ih hevents]
    cases e with
    | press key =>
      obtain ⟨m, -, rfl⟩ := Keypad.isKey_iff.1 he
      simp [onKeypad, Keypad.holds_pressed, leaves, beq_eq_decide]
    | release key =>
      obtain ⟨m, -, rfl⟩ := Keypad.isKey_iff.1 he
      simp [onKeypad, Keypad.holds_released, leaves, bne, beq_eq_decide]
    | releaseAll => exact Nat.zero_testBit n

/-- The highest key of the mask is the highest key held. -/
theorem highestHeld_play (hfresh : f.keypad = {}) (hvalid : ∀ e ∈ events, e.isValid = true) :
    (Keypad.highestHeld (play events f).keypad.held).map Int.ofNat = highest? events := by
  have hbits : (fun n => (play events f).keypad.held.testBit n) = fun n : Nat => heldAfter events n :=
    funext fun n => holds_play hfresh hvalid n
  rw [Keypad.highestHeld, hbits, highest?]

/-- The key pressed last of all, if it is held. -/
def lastHeld? (events : List KeyEvent) : Option Int := (lastPressed? events).filter (heldAfter events)

theorem lastHeld?_release (events : List KeyEvent) (key : Int) :
    lastHeld? (events ++ [release key]) = (lastHeld? events).filter (· != key) := by
  rw [lastHeld?, lastPressed?_concat rfl, lastHeld?, Option.filter_filter]
  congr 1
  funext other
  rw [heldAfter_concat, leaves, bne_comm]

/-- **What the keypad answers**: the key pressed last as long as it is held, and the highest key held from then on. -/
theorem answer_play (hfresh : f.keypad = {}) (hvalid : ∀ e ∈ events, e.isValid = true) :
    (play events f).keypad.answer = (lastHeld? events).or (highest? events) := by
  induction events using List.reverseRecOn with
  | nil =>
    rw [show (play [] f).keypad = {} from hfresh]
    decide
  | append_singleton events e ih =>
    obtain ⟨hevents, he⟩ := forall_valid_concat hvalid
    replace ih := ih hevents
    rw [← highestHeld_play hfresh hevents] at ih
    rw [← highestHeld_play hfresh hvalid, keypad_play_concat he]
    cases e with
    | press key =>
      obtain ⟨n, -, rfl⟩ := Keypad.isKey_iff.1 he
      have hheld : heldAfter (events ++ [press n]) n = true := by simp [heldAfter_concat, leaves]
      have hlast : lastHeld? (events ++ [press n]) = some (n : Int) := by simp [lastHeld?, lastPressed?_press, hheld]
      rw [hlast]
      rfl
    | release key =>
      obtain ⟨n, -, rfl⟩ := Keypad.isKey_iff.1 he
      rw [lastHeld?_release]
      exact Keypad.answer_released ih n
    | releaseAll =>
      have hnone : lastHeld? (events ++ [releaseAll]) = none := by
        simp [lastHeld?, Option.filter_eq_none_iff, heldAfter_concat, leaves]
      rw [hnone]
      exact show Keypad.allUp.answer = none.or ((Keypad.highestHeld 0).map Int.ofNat) by decide

/-! ## When the answer is the newest key -/

theorem newest?_of_lastHeld? {key : Int} (h : lastHeld? events = some key) :
    newest? events = some key ∧ lastPressed? events = some key := by
  obtain ⟨hlast, hheld⟩ := Option.filter_eq_some_iff.1 h
  exact ⟨newest?_eq_lastPressed? hlast hheld, hlast⟩

/-- If the key pressed last is not held, it is not the newest either. -/
theorem newest?_ne_lastPressed? (h : lastHeld? events = none) {key : Int} (hnewest : newest? events = some key) :
    newest? events ≠ lastPressed? events := by
  intro heq
  have hheld := heldAfter_of_newest? hnewest
  rw [hnewest] at heq
  rw [lastHeld?, ← heq, Option.filter_some, if_pos hheld] at h
  cases h

theorem mem_pressed_of_heldAfter {key : Int} (h : heldAfter events key = true) : key ∈ events.filterMap pressed? := by
  induction events using List.reverseRecOn with
  | nil => cases h
  | append_singleton events e ih =>
    rw [heldAfter_concat] at h
    rw [List.filterMap_append, List.mem_append]
    cases e with
    | press other =>
      simp only [leaves, Bool.or_eq_true, beq_iff_eq] at h
      rcases h with hheld | rfl
      · exact .inl (ih hheld)
      · exact .inr List.mem_cons_self
    | release other =>
      simp only [leaves, Bool.and_eq_true] at h
      exact .inl (ih h.1)
    | releaseAll => cases h

theorem newest?_eq_none_iff : newest? events = none ↔ ∀ key, heldAfter events key = false := by
  rw [newest?, List.find?_eq_none]
  constructor
  · intro h key
    by_contra hheld
    have hheld : heldAfter events key = true := by simpa using hheld
    exact h key (List.mem_reverse.2 (mem_pressed_of_heldAfter hheld)) hheld
  · intro h key _
    simp [h key]

/-- A new frame buffer has no key held. -/
theorem keypad_of_create {width height : Int} (h : FrameBuffer.create width height = .ok f) : f.keypad = {} := by
  rw [FrameBuffer.eq_blank_of_create h]
  rfl

/-- **When the active key is the newest.** After any row of presses and releases on a new frame buffer the active key
is the key pressed last of all if that one is held, and else the highest key held; there is none if and only if no key
is held. So it is the newest key exactly as long as the newest was pressed last of all or is the highest. -/
theorem activeKey_eq_newest_iff {width height : Int} {f : FrameBuffer}
    (hcreate : FrameBuffer.create width height = .ok f) {events : List KeyEvent}
    (hvalid : ∀ e ∈ events, e.isValid = true) :
    (Device.activeKey (play events f)).1 = (lastHeld? events).or (highest? events) ∧
    ((Device.activeKey (play events f)).1 = none ↔ ∀ key, heldAfter events key = false) ∧
    ((Device.activeKey (play events f)).1 = newest? events ↔
      newest? events = lastPressed? events ∨ newest? events = highest? events) := by
  have hanswer : (Device.activeKey (play events f)).1 = (lastHeld? events).or (highest? events) :=
    answer_play (keypad_of_create hcreate) hvalid
  have hnone := highest?_eq_none_iff hvalid
  rw [hanswer]
  refine ⟨rfl, ?_, ?_⟩
  · cases hlast : lastHeld? events with
    | none => rw [Option.none_or, hnone]
    | some key =>
      have hheld := heldAfter_of_newest? (newest?_of_lastHeld? hlast).1
      simp only [Option.some_or, reduceCtorEq, false_iff, not_forall]
      exact ⟨key, by simp [hheld]⟩
  · cases hlast : lastHeld? events with
    | none =>
      rw [Option.none_or]
      constructor
      · intro h
        exact .inr h.symm
      · rintro (h | h)
        · -- Nothing is held here, or the key pressed last would be.
          cases hnewest : newest? events with
          | none => exact hnone.2 (newest?_eq_none_iff.1 hnewest)
          | some key => exact absurd h (newest?_ne_lastPressed? hlast hnewest)
        · exact h.symm
    | some key =>
      obtain ⟨hnewest, hpressed⟩ := newest?_of_lastHeld? hlast
      simp [hnewest, hpressed]

theorem activeKey_eq_newest_iff_outlasting :
    (Device.activeKey (play [press 5, press 2, release 5] FrameBuffer.standard)).1 =
      newest? [press 5, press 2, release 5] := by
  have hcreate : FrameBuffer.create 64 32 = .ok FrameBuffer.standard := rfl
  have hvalid : ∀ e ∈ [press 5, press 2, release 5], e.isValid = true := by decide
  exact (activeKey_eq_newest_iff hcreate hvalid).2.2.2 (.inl (by decide))

/-- **The active key need not be the newest.** Of three keys held the newest one is released. Of the other two, key 2
was pressed after key 5, but the keypad answers with key 5. -/
theorem activeKey_not_newest :
    (Device.activeKey (play [press 5, press 2, press 7, release 7] FrameBuffer.standard)).1 = some 5 ∧
      newest? [press 5, press 2, press 7, release 7] = some 2 := by
  decide

end KeyEvent

end Chip8
