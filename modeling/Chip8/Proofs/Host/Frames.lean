import Chip8.Host.Basic
import Chip8.Proofs.Cpu.Frames

/-!
# Frames of a run

A run of a host by equations: how it ends before a frame, how it ends by a frame that fails, and how it goes on after
one that does not. Waiting for the next frame to be due changes nothing but the clock. Main statement: `keeps_run`, by
which an invariant of frames and onlookers is one of whole runs.
-/

namespace Chip8.Session

variable {δ ρ ω : Type} [Device δ] [RandomSource ρ] {k : Conduct (Session δ ρ ω)} {seconds due : Float}
  {patience completed : Nat} {s u v : Session δ ρ ω}

theorem runFrame_of_ok {d : Cpu δ ρ} (h : Cpu.frame u.host.cyclesPerFrame u.cpu = .ok () d) :
    runFrame u = .ok () { u with cpu := d, host := { u.host with frames := u.host.frames + 1 } } := by
  cases hsteps : Cpu.steps u.host.cyclesPerFrame u.cpu with
  | ok _ d' =>
    rw [Cpu.frame_of_ok hsteps] at h
    cases h
    simp [runFrame, Act.within_run, cpuPart, hsteps]
  | error e d' =>
    rw [Cpu.frame_of_error hsteps] at h
    cases h

theorem runFrame_of_error {e : Failure} {d : Cpu δ ρ}
    (h : Cpu.frame u.host.cyclesPerFrame u.cpu = .error e d) : runFrame u = .error e { u with cpu := d } := by
  cases hsteps : Cpu.steps u.host.cyclesPerFrame u.cpu with
  | ok _ d' =>
    rw [Cpu.frame_of_ok hsteps] at h
    cases h
  | error e' d' =>
    rw [Cpu.frame_of_error hsteps] at h
    cases h
    simp [runFrame, Act.within_run, cpuPart, hsteps]

/-- When the coming frame is due, and the clock by then. -/
def Conduct.paced {σ : Type} (k : Conduct σ) (seconds : Float) (clock : Clock) (due : Float) : Float × Clock :=
  if k.realtime then pace clock (due + seconds) else (due, clock)

/-- A session after a frame: the onlookers have looked, and the next frame is due. -/
def shown (k : Conduct (Session δ ρ ω)) (seconds due : Float) (s : Session δ ρ ω) : Session δ ρ ω :=
  { k.onlookers.afterFrame s with clock := (k.paced seconds (k.onlookers.afterFrame s).clock due).2 }

theorem runFrames_reached (h : k.reached completed = true) :
    runFrames k seconds (patience + 1) completed due s = .ok .limitReached (s.note (.hostStopped s.host.frames)) := by
  simp [runFrames, h]

theorem runFrames_stopped (h : k.reached completed = false) (hasks : k.asks s = (true, u)) :
    runFrames k seconds (patience + 1) completed due s = .ok .stopped (u.note (.hostStopped u.host.frames)) := by
  simp [runFrames, h, hasks]

theorem runFrames_faulted {f : Fault} (h : k.reached completed = false) (hasks : k.asks s = (false, u))
    (hframe : runFrame u = .error (.fault f) v) :
    runFrames k seconds (patience + 1) completed due s = .ok (.faulted f) (v.note (.hostFaulted v.host.frames)) := by
  simp [runFrames, h, hasks, hframe]

theorem runFrames_failed {e : Failure} (h : k.reached completed = false) (hasks : k.asks s = (false, u))
    (hframe : runFrame u = .error e v) (he : ∀ f, e ≠ .fault f) :
    runFrames k seconds (patience + 1) completed due s = .error e v := by
  cases e with
  | fault f => exact absurd rfl (he f)
  | halted reason => simp [runFrames, h, hasks, hframe]
  | mishap m => simp [runFrames, h, hasks, hframe]

theorem runFrames_shown (h : k.reached completed = false) (hasks : k.asks s = (false, u))
    (hframe : runFrame u = .ok () v) :
    runFrames k seconds (patience + 1) completed due s =
      runFrames k seconds patience (completed + 1) (k.paced seconds (k.onlookers.afterFrame v).clock due).1
        (shown k seconds due v) := by
  simp [runFrames, h, hasks, hframe, shown, Conduct.paced]

theorem run_running (h : s.cpu.machine.halted = false) (hrate : frameTime s.host.frameRate = .ok seconds) :
    run k patience s =
      runFrames k seconds patience 0 s.clock.now (s.note (.hostStarting s.host.cyclesPerFrame s.host.frameRate)) := by
  simp [run, h, hrate]

theorem run_mishap {m : Mishap} (h : s.cpu.machine.halted = false) (hrate : frameTime s.host.frameRate = .error m) :
    run k patience s = .error (.mishap m) s := by
  simp [run, h, hrate]

/-! ## What runs keep -/

section Keep

variable {I : Session δ ρ ω → Prop} (hasks : ∀ u, I u → I (k.asks u).2)
  (hlooks : ∀ u, I u → I (k.onlookers.afterFrame u)) (hframe : Act.Keeps I runFrame)
  (hsame : ∀ u v, I u → v.cpu.machine = u.cpu.machine → v.cpu.fault = u.cpu.fault → I v)
include hasks hlooks hframe hsame

/-- By induction on the number of frames that the run may still take. -/
theorem keeps_runFrames (seconds : Float) (patience completed : Nat) (due : Float) :
    Act.Keeps I (runFrames k seconds patience completed due) := by
  induction patience generalizing completed due with
  | zero => exact fun s hs => hs
  | succ patience ih =>
    intro s hs
    by_cases hreached : k.reached completed = true
    · rw [Act.after_of_ok (runFrames_reached hreached)]
      exact hsame s _ hs rfl rfl
    replace hreached : k.reached completed = false := by simpa using hreached
    have hasked := hasks s hs
    rcases hanswer : k.asks s with ⟨stop, u⟩
    rw [hanswer] at hasked
    cases stop with
    | true =>
      rw [Act.after_of_ok (runFrames_stopped hreached hanswer)]
      exact hsame u _ hasked rfl rfl
    | false =>
      -- A frame that fails leaves what its last instruction left, and that is kept as well.
      have hkept := hframe u hasked
      cases hresult : runFrame u with
      | ok _ v =>
        rw [Act.after_of_ok hresult] at hkept
        have hshown : I (shown k seconds due v) := hsame _ _ (hlooks v hkept) rfl rfl
        have hrest := ih (completed + 1) (k.paced seconds (k.onlookers.afterFrame v).clock due).1 _ hshown
        simpa only [Act.after, runFrames_shown hreached hanswer hresult] using hrest
      | error e v =>
        rw [Act.after_of_error hresult] at hkept
        cases e with
        | fault f =>
          rw [Act.after_of_ok (runFrames_faulted hreached hanswer hresult)]
          exact hsame v _ hkept rfl rfl
        | halted _ | mishap _ =>
          rw [Act.after_of_error (runFrames_failed hreached hanswer hresult (by simp))]
          exact hkept

/-- **What frames keep, runs keep**, if the onlookers keep it too and it depends on machine and fault only. -/
theorem keeps_run (patience : Nat) : Act.Keeps I (run k patience) := by
  intro s hs
  by_cases hhalted : s.cpu.machine.halted = true
  · rw [Act.after_of_ok (run_halted hhalted k patience)]
    exact hs
  replace hhalted : s.cpu.machine.halted = false := by simpa using hhalted
  cases hrate : frameTime s.host.frameRate with
  | error m =>
    rw [Act.after_of_error (run_mishap hhalted hrate)]
    exact hs
  | ok seconds =>
    have hnoted : I (s.note (.hostStarting s.host.cyclesPerFrame s.host.frameRate)) := hsame s _ hs rfl rfl
    have hframes := keeps_runFrames hasks hlooks hframe hsame seconds patience 0 s.clock.now _ hnoted
    simpa only [Act.after, run_running hhalted hrate] using hframes

end Keep

end Chip8.Session
