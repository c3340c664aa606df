import Chip8.Proofs.Cpu.Timers
import Chip8.Proofs.Host.Frames
import Chip8.Proofs.Respect

/-!
# The timers of a session

A session that is driven by frames only, whatever their programs do, has its timers count down by the frame: at every
moment a timer shows what it was set to last, or what it showed at first if it was not set, less the frames completed
since then, down to zero. A frame that is cut short is not completed, but the instructions that it has executed count.
Main statements: `driven_run`, by which a run of a host drives a session by frames if its onlookers do no more than
that, and `timer_of_driven`, the whole law.
-/

namespace Chip8.Session

variable {δ ρ ω : Type} [Device δ] [RandomSource ρ] {s t u : Session δ ρ ω} {es : List Timer.Event} {τ : Timer}

/-- What a frame does that counts for the timers. -/
def frameEvents (s : Session δ ρ ω) : List Timer.Event :=
  (Cpu.batch s.host.cyclesPerFrame s.cpu).map .executed ++ if (runFrame.answer s).isOk then [.frame] else []

/-- The second session comes from the first by frames, and nothing else is done to its machine. -/
inductive Driven (s : Session δ ρ ω) : List Timer.Event → Session δ ρ ω → Prop where
  | start : Driven s [] s
  | frame {es : List Timer.Event} {t : Session δ ρ ω} :
    Driven s es t → Driven s (es ++ t.frameEvents) (runFrame.after t)
  /-- The keys have changed, the clock has gone on, another host has taken over. -/
  | aside {es : List Timer.Event} {t u : Session δ ρ ω} :
    Driven s es t → u.cpu.machine = t.cpu.machine → Driven s es u

theorem Driven.trans {more : List Timer.Event} (h : Driven s es t) (h' : Driven t more u) :
    Driven s (es ++ more) u := by
  induction h' with
  | start => rwa [List.append_nil]
  | frame _ ih =>
    rw [← List.append_assoc]
    exact ih.frame
  | aside _ hmachine ih => exact ih.aside hmachine

/-! ## Runs of a host -/

/-- **A run of a host drives its session by frames** if the onlookers do no more than that. -/
theorem driven_run {k : Conduct (Session δ ρ ω)} (hask : ∀ u, ∃ es, Driven u es (k.asks u).2)
    (hlook : ∀ u, ∃ es, Driven u es (k.onlookers.afterFrame u)) (patience : Nat) (s : Session δ ρ ω) :
    ∃ es, Driven s es ((run k patience).after s) := by
  have hkeeps : Act.Keeps (fun u => ∃ es, Driven s es u) (run k patience) := by
    refine keeps_run ?_ ?_ ?_ ?_ patience
    · rintro u ⟨es, hu⟩
      obtain ⟨more, hmore⟩ := hask u
      exact ⟨_, hu.trans hmore⟩
    · rintro u ⟨es, hu⟩
      obtain ⟨more, hmore⟩ := hlook u
      exact ⟨_, hu.trans hmore⟩
    · rintro u ⟨es, hu⟩
      exact ⟨_, hu.frame⟩
    · rintro u v ⟨es, hu⟩ hmachine -
      exact ⟨_, hu.aside hmachine⟩
  exact hkeeps s ⟨[], .start⟩

/-! ## The law -/

/-- The machine after a frame: that of its batch, with a tick if all of it was executed. -/
theorem machine_runFrame (s : Session δ ρ ω) :
    ((runFrame.after s).cpu.machine = ((Cpu.steps s.host.cyclesPerFrame).after s.cpu).tickTimers.machine ∧
      s.frameEvents = (Cpu.batch s.host.cyclesPerFrame s.cpu).map .executed ++ [.frame]) ∨
    ((runFrame.after s).cpu.machine = ((Cpu.steps s.host.cyclesPerFrame).after s.cpu).machine ∧
      s.frameEvents = (Cpu.batch s.host.cyclesPerFrame s.cpu).map .executed) := by
  cases hsteps : Cpu.steps s.host.cyclesPerFrame s.cpu with
  | ok _ d =>
    have hframe := runFrame_of_ok (Cpu.frame_of_ok hsteps)
    left
    rw [Act.after_of_ok hframe, Act.after_of_ok hsteps, frameEvents, Act.answer, hframe]
    exact ⟨rfl, rfl⟩
  | error e d =>
    have hframe := runFrame_of_error (Cpu.frame_of_error hsteps)
    right
    rw [Act.after_of_error hframe, Act.after_of_error hsteps, frameEvents, Act.answer, hframe]
    exact ⟨rfl, List.append_nil _⟩

theorem Driven.soundApart (h : Driven s es t) (hs : s.cpu.machine.SoundApart) : t.cpu.machine.SoundApart := by
  induction h with
  | start => exact hs
  | @frame es t _ ih =>
    have hbatch := Cpu.keeps_steps_apart t.host.cyclesPerFrame t.cpu ih
    rcases machine_runFrame t with ⟨hmachine, -⟩ | ⟨hmachine, -⟩
    · rw [hmachine, Cpu.tickTimers_eq]
      exact hbatch.ticked
    · rwa [hmachine]
  | aside _ hmachine ih => rwa [hmachine]

/-- By induction on the frames, between two of which the law holds; within a frame it is that of a batch. -/
theorem Driven.timer (h : Driven s es t) (hs : s.cpu.machine.SoundApart) :
    t.cpu.machine.timer τ = τ.due (s.cpu.machine.timer τ) es := by
  induction h with
  | start => exact (Timer.due_nil (hs.timer_nonneg τ)).symm
  | @frame es t h ih =>
    have hm := h.soundApart hs
    have hbatch := Cpu.timer_steps t.host.cyclesPerFrame hm ih
    rcases machine_runFrame t with ⟨hmachine, hevents⟩ | ⟨hmachine, hevents⟩
    · rw [hmachine, hevents, ← List.append_assoc]
      exact Cpu.timer_tickTimers (Cpu.keeps_steps_apart _ _ hm) hbatch
    · rw [hmachine, hevents]
      exact hbatch
  | aside _ hmachine ih => rw [hmachine, ih]

/-- **The law of the timers.** A session is driven by frames, of any number of instructions. At every moment, after any
part of the batch of a frame, a timer shows what it was set to last, or what it showed at first, less the frames since
then, and never less than zero; and an FX07 there completes and reads that. A step of a valid machine changes a timer by
the one instruction that sets it, and not otherwise. And whatever a host runs goes on in the same way. -/
theorem timer_of_driven (hs : s.cpu.machine.SoundApart) (h : Driven s es t) :
    (∀ (n : Nat) (τ : Timer), ((Cpu.steps n).after t.cpu).machine.timer τ =
      τ.due (s.cpu.machine.timer τ) (es ++ (Cpu.batch n t.cpu).map .executed)) ∧
    (∀ (n : Nat), ∀ x < 16, ((Cpu.steps n).after t.cpu).machine.halted = false →
      ((Cpu.steps n).after t.cpu).machine.word? = some (.ofNat (0xF007 + 0x100 * x)) →
        ∃ e d, Cpu.step ((Cpu.steps n).after t.cpu) = .ok e d ∧ ((d.machine.reg x).toNat : Int) =
          Timer.delay.due (s.cpu.machine.timer .delay) (es ++ (Cpu.batch n t.cpu).map .executed)) ∧
    (∀ (c : Cpu δ ρ) (τ : Timer), c.machine.SoundApart →
      (∀ e d, Cpu.step c = .ok e d →
        d.machine.timer τ = (c.machine.setsTimer? τ).elim (c.machine.timer τ) fun v => (v.toNat : Int)) ∧
      ∀ e d, Cpu.step c = .error e d → d.machine.timer τ = c.machine.timer τ) ∧
    ∀ (k : Conduct (Session δ ρ ω)) (patience : Nat), (∀ u, ∃ more, Driven u more (k.asks u).2) →
      (∀ u, ∃ more, Driven u more (k.onlookers.afterFrame u)) →
        ∃ more, Driven s (es ++ more) ((run k patience).after t) := by
  have hm := h.soundApart hs
  have hlaw (n : Nat) (τ : Timer) : ((Cpu.steps n).after t.cpu).machine.timer τ =
      τ.due (s.cpu.machine.timer τ) (es ++ (Cpu.batch n t.cpu).map .executed) :=
    Cpu.timer_steps n hm (h.timer hs)
  refine ⟨hlaw, fun n x hx hrun hword => ?_, fun c τ hc => ?_, fun k patience hask hlook => ?_⟩
  · obtain ⟨e, d, hstep, hread⟩ := Cpu.step_readDelay (Cpu.keeps_steps_apart n _ hm) hrun hx hword
    exact ⟨e, d, hstep, hread.trans (hlaw n .delay)⟩
  · exact ⟨fun e d hstep => Cpu.timer_step hc hstep τ, fun e d hstep => Cpu.timer_step_error hc hstep τ⟩
  · obtain ⟨more, hmore⟩ := driven_run hask hlook patience t
    exact ⟨more, h.trans hmore⟩

/-- A program that sets the delay timer to five and then reads it over and over. -/
def counting : Session FrameBuffer Cycle Unit where
  cpu :=
    { rig :=
        { machine := { memory := Machine.startMemory [0x60, 0x05, 0xF0, 0x15, 0xF1, 0x07, 0x12, 0x04] }
          device := FrameBuffer.standard
          random := { numbers := #[7] } }
      trace := { limit := none } }
  host := { cyclesPerFrame := 2, frameRate := 60 }
  extra := ()

/-- After three frames two are left, and that is what is read. -/
theorem timer_of_driven_counting :
    (runFrame.after (runFrame.after (runFrame.after counting))).cpu.machine.timer .delay = 2 ∧
      ∃ e d, Cpu.step (runFrame.after (runFrame.after (runFrame.after counting))).cpu = .ok e d ∧
        ((d.machine.reg 1).toNat : Int) = 2 := by
  have hvalid : counting.cpu.machine.validate = true := by decide +kernel
  have hdriven : Driven counting _ (runFrame.after (runFrame.after (runFrame.after counting))) :=
    .frame (.frame (.frame .start))
  obtain ⟨hlaw, hreads, -⟩ := timer_of_driven ((Machine.validate_iff _).1 hvalid).apart hdriven
  obtain ⟨e, d, hstep, hread⟩ := hreads 0 1 (by decide) (by decide +kernel) (by decide +kernel)
  exact ⟨(hlaw 0 .delay).trans (by decide +kernel), e, d, hstep, hread.trans (by decide +kernel)⟩

end Chip8.Session
