import Chip8.Proofs.Cpu.Untimed
import Chip8.Proofs.Host.Frames

/-!
# Runs without their timers

A host interrupts a program for a tick of its timers after every so many instructions. Programs that do not read the
delay timer cannot tell: the processor of the host ends as a bare one does that executes as many instructions in one
go, but for its timers. So it does not matter either how many instructions make a frame. Main statement:
`run_untimed`.
-/

namespace Chip8

variable {δ ρ ω : Type}

/-- How a run of a host ends, by the answer of as many instructions in one go. -/
def Ending.ofBare {α : Type} : Except Failure α → Except Failure Ending
  | .ok _ => .ok .limitReached
  | .error (.fault f) => .ok (.faulted f)
  | .error e => .error e

namespace Cpu

variable [Device δ] [RandomSource ρ]

theorem answer_run (n : Nat) (c : Cpu δ ρ) :
    Ending.ofBare ((run (some n)).answer c) = Ending.ofBare ((steps n).answer c) := by
  simp only [run, Act.answer, Act.bind_run, Act.get_run, onward_ok, Option.getD_some, Int.toNat_natCast]
  cases steps n c with
  | ok _ d => rfl
  | error e d => cases e <;> rfl

theorem after_run (n : Nat) (c : Cpu δ ρ) : (run (some n)).after c = (steps n).after c := by
  simp only [run, Act.after, Act.bind_run, Act.get_run, onward_ok, Option.getD_some, Int.toNat_natCast]
  cases steps n c with
  | ok _ d => rfl
  | error e d => rfl

theorem after_steps_halted {c : Cpu δ ρ} (h : c.machine.halted = true) (n : Nat) : (steps n).after c = c := by
  cases n with
  | zero => rfl
  | succ n => rw [Act.after_of_error (by rw [steps, Act.bind_run, step_halted h, onward_error])]

end Cpu

namespace Session

/-- A run of a host for a number of frames, with nobody looking on. -/
def unwatched (frames : Nat) (realtime : Bool) : Conduct (Session δ ρ ω) := { limit := some frames, realtime }

/-- A run of a host has ended as a batch of instructions has, and with the same processor but for the timers. -/
inductive Alongside : EStateM.Result Failure (Cpu δ ρ) Unit → EStateM.Result Failure (Session δ ρ ω) Ending → Prop where
  | completed {d : Cpu δ ρ} {t : Session δ ρ ω} : d.ButTimers t.cpu → Alongside (.ok () d) (.ok .limitReached t)
  | faulted {d : Cpu δ ρ} {t : Session δ ρ ω} (f : Fault) : d.ButTimers t.cpu →
    Alongside (.error (.fault f) d) (.ok (.faulted f) t)
  | failed {d : Cpu δ ρ} {t : Session δ ρ ω} {e : Failure} : (∀ f, e ≠ .fault f) → d.ButTimers t.cpu →
    Alongside (.error e d) (.error e t)

theorem Alongside.after {c : Cpu δ ρ} {s : Session δ ρ ω} {bare : Act (Cpu δ ρ) Unit}
    {hosted : Act (Session δ ρ ω) Ending} (h : Alongside (bare c) (hosted s)) :
    (hosted.after s).cpu.untimed = (bare.after c).untimed ∧ hosted.answer s = Ending.ofBare (bare.answer c) := by
  simp only [Act.after, Act.answer]
  generalize bare c = r at h
  generalize hosted s = r' at h
  cases h with
  | completed h => exact ⟨h.untimed_eq, rfl⟩
  | faulted f h => exact ⟨h.untimed_eq, rfl⟩
  | @failed d t e he h =>
    cases e with
    | fault f => exact absurd rfl (he f)
    | halted reason => exact ⟨h.untimed_eq, rfl⟩
    | mishap m => exact ⟨h.untimed_eq, rfl⟩

variable [Device δ] [RandomSource ρ]

/-- The frames that are left of a run go alongside as many batches, by induction on their number. -/
theorem runFrames_alongside {c : Cpu δ ρ} {s : Session δ ρ ω}
    {frames left completed patience cycles : Nat} {realtime : Bool} {seconds due : Float}
    (hcycles : s.host.cyclesPerFrame = cycles) (hleft : completed + left = frames) (hpatience : left < patience)
    (h : c.ButTimers s.cpu) (hread : Cpu.Unread (left * cycles) c) :
    Alongside (Cpu.steps (left * cycles) c)
      (runFrames (unwatched frames realtime) seconds patience completed due s) := by
  induction left generalizing c s completed patience due with
  | zero =>
    obtain ⟨patience, rfl⟩ : ∃ k, patience = k + 1 := ⟨patience - 1, by omega⟩
    have hreached : (unwatched frames realtime : Conduct (Session δ ρ ω)).reached completed = true := by
      simp [unwatched, Conduct.reached]
      omega
    rw [runFrames_reached hreached, Nat.zero_mul]
    exact .completed (h.noteHost rfl)
  | succ left ih =>
    obtain ⟨patience, rfl⟩ : ∃ k, patience = k + 1 := ⟨patience - 1, by omega⟩
    have hreached : (unwatched frames realtime : Conduct (Session δ ρ ω)).reached completed = false := by
      simp [unwatched, Conduct.reached]
      omega
    have hasks : (unwatched frames realtime).asks s = (false, s) := rfl
    rw [Nat.succ_mul, Nat.add_comm] at hread ⊢
    have hbatch : Cpu.Unread cycles c := fun i hi => hread i (by omega)
    rw [Cpu.steps_add]
    rcases (h.steps hbatch).cases with ⟨_, c', d, hc, hd, hcd⟩ | ⟨e, c', d, hc, hd, hcd⟩
    · -- The frame completes, and its tick is all that the bare processor has not done.
      have hframe := Cpu.frame_of_ok hd
      rw [← hcycles] at hframe
      rw [runFrames_shown hreached hasks (runFrame_of_ok hframe), hc, onward_ok]
      exact ih hcycles (by omega) (by omega) hcd.tickTimers (hread.rest hc)
    · have hcut := Cpu.frame_of_error hd
      rw [← hcycles] at hcut
      have hframe := runFrame_of_error hcut
      rw [hc, onward_error]
      cases e with
      | fault f =>
        rw [runFrames_faulted hreached hasks hframe]
        exact .faulted f (hcd.noteHost rfl)
      | halted reason =>
        rw [runFrames_failed hreached hasks hframe (by simp)]
        exact .failed (by simp) hcd
      | mishap m =>
        rw [runFrames_failed hreached hasks hframe (by simp)]
        exact .failed (by simp) hcd

/-- **Timers are invisible** to a program that does not read the delay timer. A host that runs it frame by frame comes
to the same end as a bare processor that executes as many instructions in one go, and their processors are the same but
for their timers. Hence the hosts agree with each other, however many instructions make a frame. -/
theorem run_untimed {c : Cpu δ ρ} {total : Nat} (hread : Cpu.Unread total c) :
    (∀ (s : Session δ ρ ω) (frames patience : Nat) (realtime : Bool) (seconds : Float), s.cpu = c →
      frames * s.host.cyclesPerFrame = total → frameTime s.host.frameRate = .ok seconds → frames < patience →
        ((run (unwatched frames realtime) patience).after s).cpu.untimed =
          ((Cpu.run (some total)).after c).untimed ∧
        (c.machine.halted = false → (run (unwatched frames realtime) patience).answer s =
          Ending.ofBare ((Cpu.run (some total)).answer c))) ∧
    (∀ (s t : Session δ ρ ω) (m n patience : Nat) (realtime : Bool) (seconds seconds' : Float), s.cpu = c → t.cpu = c →
      m * s.host.cyclesPerFrame = total → n * t.host.cyclesPerFrame = total →
        frameTime s.host.frameRate = .ok seconds → frameTime t.host.frameRate = .ok seconds' → m < patience →
          n < patience → ((run (unwatched m realtime) patience).after s).cpu.untimed =
            ((run (unwatched n realtime) patience).after t).cpu.untimed) := by
  have hbare (s : Session δ ρ ω) (frames patience : Nat) (realtime : Bool) (seconds : Float) (hcpu : s.cpu = c)
      (htotal : frames * s.host.cyclesPerFrame = total) (hrate : frameTime s.host.frameRate = .ok seconds)
      (hpatience : frames < patience) :
      ((run (unwatched frames realtime) patience).after s).cpu.untimed = ((Cpu.run (some total)).after c).untimed ∧
        (c.machine.halted = false → (run (unwatched frames realtime) patience).answer s =
          Ending.ofBare ((Cpu.run (some total)).answer c)) := by
    subst hcpu htotal
    rw [Cpu.after_run, Cpu.answer_run]
    cases hhalted : s.cpu.machine.halted with
    | true =>
      rw [Act.after_of_ok (run_halted hhalted _ patience), Cpu.after_steps_halted hhalted]
      exact ⟨rfl, fun h => by cases h⟩
    | false =>
      have halong : Alongside (Cpu.steps (frames * s.host.cyclesPerFrame) s.cpu)
          (run (unwatched frames realtime) patience s) := by
        rw [run_running hhalted hrate]
        exact runFrames_alongside rfl (Nat.zero_add frames) hpatience ((Cpu.ButTimers.refl s.cpu).noteHost rfl) hread
      exact ⟨halong.after.1, fun _ => halong.after.2⟩
  refine ⟨hbare, ?_⟩
  intro s t m n patience realtime seconds seconds' hs ht hm hn hrate hrate' hpatience hpatience'
  rw [(hbare s m patience realtime seconds hs hm hrate hpatience).1,
    (hbare t n patience realtime seconds' ht hn hrate' hpatience').1]

/-- A program that jumps to itself while the delay timer runs. -/
def ticking : Session FrameBuffer Cycle Unit where
  cpu :=
    { rig :=
        { machine := { memory := (Array.replicate 4096 0).setIfInBounds 0x200 0x12, delayTimer := 5 }
          device := FrameBuffer.standard
          random := { numbers := #[7] } }
      trace := { limit := none } }
  host := { cyclesPerFrame := 1, frameRate := 60 }
  extra := ()

theorem run_untimed_ticking :
    ((run (unwatched 1 false) 2).after ticking).cpu.untimed =
      ((Cpu.run (some (1 : Nat))).after ticking.cpu).untimed := by
  have hm : ticking.cpu.machine.Sound := (Machine.validate_iff _).1 (by decide +kernel)
  have hword : ticking.cpu.machine.word? = some 0x1200 := by decide +kernel
  have hread : Cpu.Unread 1 ticking.cpu := by
    intro i hi d hsteps
    obtain rfl : i = 0 := by omega
    obtain ⟨-, rfl⟩ := EStateM.Result.ok.inj hsteps
    rintro ⟨w, m, hfetch, hfirst, -⟩
    rw [Machine.fetch_of_word hm.memory hword] at hfetch
    obtain ⟨rfl, -⟩ := EStateM.Result.ok.inj hfetch
    cases hfirst
  have hrate : frameTime ticking.host.frameRate = .ok (1.0 / Float.ofNat 60) := by
    have hfinite : (Float.ofNat 60).isInf = false := by decide
    simp [frameTime, ticking, hfinite]
  exact ((run_untimed hread).1 ticking 1 2 false _ rfl rfl hrate (by decide)).1

end Session

end Chip8
