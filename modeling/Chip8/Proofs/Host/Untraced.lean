import Chip8.Proofs.Cpu.Untraced
import Chip8.Proofs.Host.Halted
import Chip8.Proofs.Rig.Abreast

/-!
# Sessions without their traces

Whether a processor keeps a trace, and of what length, makes no difference to anybody who does not look at it: the same
deeds get the same answers, failures with their wording included, and leave the same session but for the trace. Main
statement: `heard_of_create`.
-/

namespace Chip8

open Act

variable {ρ ω : Type}

/-! ## Answers -/

/-- What a deed answers. A step answers its entry without the states before and after it; what a run of instructions
answers is the trace itself, which is left out; a run of a host tells how it ended. -/
inductive Answer where
  | nothing
  | entry (e : TraceEntry)
  | ending (ending : Ending)
  deriving DecidableEq

/-- A deed, with its answer. -/
def Deed.told [RandomSource ρ] : Deed ρ ω → Act (Session FrameBuffer ρ ω) Answer
  | .operation .step => do
    return .entry (← Cpu.bareStep.within Session.cpuPart)
  | .operation op => do
    op.act
    return .nothing
  | .host k patience => do
    return .ending (← Session.run k patience)
  | .handed successor clock extra => do
    modify fun s => s.handed successor clock extra
    return .nothing

namespace Session

/-- The session with an empty trace in the place of its own. -/
def untraced (s : Session FrameBuffer ρ ω) : Session FrameBuffer ρ ω :=
  { s with cpu := { s.cpu with trace := { limit := none } } }

/-- What is heard of a row of deeds: the answer or the failure of each, and what it leaves but for the trace. -/
def heard [RandomSource ρ] (s : Session FrameBuffer ρ ω) :
    List (Deed ρ ω) → List (Except Failure Answer × Session FrameBuffer ρ ω)
  | [] => []
  | deed :: deeds => (deed.told.answer s, (s.did deed).untraced) :: (s.did deed).heard deeds

/-! ## The same but for the trace -/

variable {m : Int} {s t : Session FrameBuffer ρ ω}

/-- Sessions that are the same but for how much the traces of their processors keep. -/
structure ButTrace (m : Int) (s t : Session FrameBuffer ρ ω) : Prop where
  cpu : Cpu.ButTrace m m s.cpu t.cpu
  host : t.host = s.host
  clock : t.clock = s.clock
  extra : t.extra = s.extra

namespace ButTrace

theorem untraced_eq (h : ButTrace m s t) : t.untraced = s.untraced := by
  simp only [untraced, h.cpu.rig, h.cpu.fault, h.cpu.journal, h.cpu.first, h.cpu.second, h.host, h.clock, h.extra]

theorem withCpu (h : ButTrace m s t) {c d : Cpu FrameBuffer ρ} (hcpu : Cpu.ButTrace m m c d) :
    ButTrace m { s with cpu := c } { t with cpu := d } :=
  ⟨hcpu, h.host, h.clock, h.extra⟩

theorem note (h : ButTrace m s t) (what : Note) : ButTrace m (s.note what) (t.note what) := h.withCpu (h.cpu.note what)

end ButTrace

theorem respects_within {α : Type} {act : Act (Cpu FrameBuffer ρ) α} (h : Respects (Cpu.ButTrace m m) act) :
    Respects (ButTrace m) (act.within (cpuPart : Part (Session FrameBuffer ρ ω) (Cpu FrameBuffer ρ))) :=
  h.within (fun _ _ h => h.cpu) fun _ _ _ _ h hcpu => h.withCpu hcpu

theorem respects_onCpu {f : Cpu FrameBuffer ρ → Cpu FrameBuffer ρ}
    (h : ∀ c d, Cpu.ButTrace m m c d → Cpu.ButTrace m m (f c) (f d)) :
    Respects (ButTrace m) (modify fun s : Session FrameBuffer ρ ω => { s with cpu := f s.cpu }) :=
  respects_modify fun _ _ hst => hst.withCpu (h _ _ hst.cpu)

/-- Onlookers that do not look at the trace: they answer alike and do alike on sessions that are the same but for how
much their traces keep. -/
def Conduct.IgnoresTrace (k : Conduct (Session FrameBuffer ρ ω)) : Prop :=
  ∀ m s t, ButTrace m s t → (k.asks t).1 = (k.asks s).1 ∧ ButTrace m (k.asks s).2 (k.asks t).2 ∧
    ButTrace m (k.onlookers.afterFrame s) (k.onlookers.afterFrame t)

variable [RandomSource ρ]

/-! ## Operations -/

theorem respects_runFrame : Respects (ButTrace m) (runFrame : Act (Session FrameBuffer ρ ω) Unit) := by
  refine respects_get_bind fun s t h => ?_
  rw [h.host]
  refine (respects_within (Cpu.respects_steps_butTrace _)).bind (fun _ => ?_) s t h
  refine respects_modify fun u v h => ?_
  exact ⟨h.cpu.tickTimers, by rw [h.host], h.clock, h.extra⟩

omit [RandomSource ρ] in
/-- An action on the processor whose answer is dropped. -/
theorem respects_dropped {α : Type} {act : Act (Cpu FrameBuffer ρ) α}
    (h : ∀ c d, Cpu.ButTrace m m c d → Same (Cpu.ButTrace m m) (unanswered (act c)) (unanswered (act d))) :
    Respects (ButTrace m) (do let _ ← act.within cpuPart : Act (Session FrameBuffer ρ ω) Unit) := by
  have hdropped (s : Session FrameBuffer ρ ω) :
      (do let _ ← act.within cpuPart : Act (Session FrameBuffer ρ ω) Unit) s =
        cpuPart.back s (unanswered (act s.cpu)) := by
    simp only [bind_run, within_run, cpuPart]
    cases act s.cpu <;> rfl
  intro s t hst
  rw [hdropped, hdropped]
  exact (h _ _ hst.cpu).back fun _ _ hcpu => hst.withCpu hcpu

theorem respects_operation (op : Operation) :
    Respects (ButTrace m) (op.act : Act (Session FrameBuffer ρ ω) Unit) := by
  cases op with
  | load rom => exact respects_within (Cpu.respects_loadProgram_butTrace rom)
  | step => exact respects_dropped fun c d h => h.unanswered_step
  | run cycles => exact respects_dropped fun c d h => h.run cycles
  | setDelay value => exact respects_onCpu fun c d h => h.setDelayTimer value
  | setSound value => exact respects_onCpu fun c d h => h.setSoundTimer value
  | tick => exact respects_onCpu fun c d h => h.tickTimers
  | frame => exact respects_runFrame
  | key event =>
    refine respects_within ((respects_eq event.act).within (fun c d h => (congrArg Rig.device h.rig).symm) ?_)
    rintro c d f _ h rfl
    exact ⟨by simp only [Cpu.devicePart, h.rig], h.fault, h.journal, h.kept, h.first, h.second⟩

/-! ## Runs of a host -/

variable {k : Conduct (Session FrameBuffer ρ ω)} (hk : k.IgnoresTrace)
include hk

/-- By induction on the number of frames that the run may still take. -/
theorem respects_runFrames (seconds : Float) (patience completed : Nat) (due : Float) :
    Respects (ButTrace m) (runFrames k seconds patience completed due) := by
  induction patience generalizing completed due with
  | zero => exact fun s t h => .ok Ending.givenUp h
  | succ patience ih =>
    intro s t h
    cases hreached : k.reached completed with
    | true =>
      rw [runFrames_reached hreached, runFrames_reached hreached, h.host]
      exact .ok _ (h.note _)
    | false =>
      obtain ⟨hstop, hasked, -⟩ := hk m s t h
      rcases hs : k.asks s with ⟨stop, u⟩
      rcases ht : k.asks t with ⟨stop', v⟩
      obtain rfl : stop' = stop := by rw [hs, ht] at hstop; exact hstop
      replace hasked : ButTrace m u v := by rwa [hs, ht] at hasked
      cases stop' with
      | true =>
        rw [runFrames_stopped hreached hs, runFrames_stopped hreached ht, hasked.host]
        exact .ok _ (hasked.note _)
      | false =>
        rcases (respects_runFrame u v hasked).cases with ⟨_, u', v', hu, hv, hframe⟩ | ⟨e, u', v', hu, hv, hframe⟩
        · have hlooked := (hk m u' v' hframe).2.2
          rw [runFrames_shown hreached hs hu, runFrames_shown hreached ht hv, shown, shown, hlooked.clock]
          exact ih _ _ _ _ ⟨hlooked.cpu, hlooked.host, rfl, hlooked.extra⟩
        · cases e with
          | fault f =>
            rw [runFrames_faulted hreached hs hu, runFrames_faulted hreached ht hv, hframe.host]
            exact .ok _ (hframe.note _)
          | halted _ | mishap _ =>
            rw [runFrames_failed hreached hs hu (by simp), runFrames_failed hreached ht hv (by simp)]
            exact .error _ hframe

theorem respects_run (patience : Nat) : Respects (ButTrace m) (run k patience) := by
  intro s t h
  have hmachine := h.cpu.machine
  cases hhalted : s.cpu.machine.halted with
  | true =>
    rw [run_halted hhalted, run_halted (hmachine ▸ hhalted), h.cpu.fault]
    exact .ok _ h
  | false =>
    have hrate : frameTime t.host.frameRate = frameTime s.host.frameRate := by rw [h.host]
    cases hseconds : frameTime s.host.frameRate with
    | error mishap =>
      rw [run_mishap hhalted hseconds, run_mishap (hmachine ▸ hhalted) (hrate.trans hseconds)]
      exact .error _ h
    | ok seconds =>
      rw [run_running hhalted hseconds, run_running (hmachine ▸ hhalted) (hrate.trans hseconds), h.host, h.clock]
      exact respects_runFrames hk _ _ _ _ _ _ (h.note _)

end Session

/-! ## Deeds -/

/-- The onlookers of a run of a host do not look at the trace. -/
def Deed.IgnoresTrace : Deed ρ ω → Prop
  | .host k _ => k.IgnoresTrace
  | _ => True

namespace Session

variable [RandomSource ρ] {m : Int} {s t : Session FrameBuffer ρ ω} {deed : Deed ρ ω} {deeds : List (Deed ρ ω)}

/-- Telling the answer makes no difference to what is left. -/
theorem after_told (deed : Deed ρ ω) (s : Session FrameBuffer ρ ω) : deed.told.after s = s.did deed := by
  cases deed with
  | operation op =>
    cases op with
    | step =>
      simp only [Deed.told, did, Operation.act, Act.after, Cpu.bareStep, bind_run, within_run]
      cases Cpu.step (cpuPart.get s) <;> rfl
    | load _ | run _ | setDelay _ | setSound _ | tick | frame | key _ =>
      simp only [Deed.told, did, Act.after, bind_run]
      cases Operation.act _ s <;> rfl
  | host k patience =>
    simp only [Deed.told, did, Act.after, bind_run]
    cases run k patience s <;> rfl
  | handed host clock extra => rfl

theorem respects_told (hdeed : deed.IgnoresTrace) : Respects (ButTrace m) deed.told := by
  cases deed with
  | operation op =>
    cases op with
    | step => exact (respects_within Cpu.respects_bareStep).bind fun _ => respects_pure _
    | load _ | run _ | setDelay _ | setSound _ | tick | frame | key _ =>
      exact (respects_operation _).bind fun _ => respects_pure _
  | host k patience => exact (respects_run hdeed patience).bind fun _ => respects_pure _
  | handed host clock extra =>
    exact (respects_modify fun _ _ h => ⟨h.cpu, rfl, rfl, rfl⟩).bind fun _ => respects_pure _

/-- **The same is heard** of sessions that are the same but for how much their traces keep, and so they stay. -/
theorem ButTrace.heard (h : ButTrace m s t) (hdeeds : ∀ deed ∈ deeds, deed.IgnoresTrace) :
    t.heard deeds = s.heard deeds ∧ ButTrace m (s.done deeds) (t.done deeds) := by
  induction deeds generalizing s t with
  | nil => exact ⟨rfl, h⟩
  | cons deed deeds ih =>
    have hdeed := respects_told (m := m) (hdeeds deed List.mem_cons_self)
    have hanswer := hdeed.answer h
    have hafter := hdeed.after h
    rw [after_told, after_told] at hafter
    obtain ⟨hheard, hdone⟩ := ih hafter fun deed' hdeed' => hdeeds deed' (List.mem_cons_of_mem _ hdeed')
    refine ⟨?_, hdone⟩
    simp only [Session.heard, hanswer, hafter.untraced_eq, hheard]

/-- **Nobody hears of a trace** who does not look at it. Of two new processors with traces of any lengths, in the hands
of the same host, the same is heard whatever is done with them: every deed gets the same answer or the same failure, and
leaves the same machine, device, random source, fault, journal, host and clock. What the two traces keep are the newest
entries of one row, but for the states before and after the steps. -/
theorem heard_of_create {device : FrameBuffer} {random : ρ} {maxCycles : Int} {length length' : Option Int}
    {c d : Cpu FrameBuffer ρ} (hc : Cpu.create device random maxCycles length = .ok c)
    (hd : Cpu.create device random maxCycles length' = .ok d) (host : Host) (clock : Clock) (extra : ω)
    {deeds : List (Deed ρ ω)} (hdeeds : ∀ deed ∈ deeds, deed.IgnoresTrace) :
    let s : Session FrameBuffer ρ ω := { cpu := c, host, clock, extra }
    let t : Session FrameBuffer ρ ω := { cpu := d, host, clock, extra }
    t.heard deeds = s.heard deeds ∧
      ∃ es, (s.done deeds).cpu.trace.bare = Trace.newest (s.done deeds).cpu.trace.limit es ∧
        (t.done deeds).cpu.trace.bare = Trace.newest (t.done deeds).cpu.trace.limit es := by
  intro s t
  have hnew : ButTrace maxCycles s t := ⟨Cpu.butTrace_of_create hc hd, rfl, rfl, rfl⟩
  obtain ⟨hheard, hdone⟩ := hnew.heard hdeeds
  exact ⟨hheard, hdone.cpu.kept⟩

/-- A processor without a trace and one that keeps everything, through a step, a press of a key and a frame that
faults. -/
theorem heard_of_create_returning :
    let deeds : List (Deed Cycle Unit) :=
      [.operation (.load [0x60, 0x05, 0x00, 0xEE]), .operation .step, .operation (.key (.press 3)),
        .host { limit := some 1 } 2]
    ∃ c d, Cpu.create FrameBuffer.standard ({ numbers := #[7] } : Cycle) 10000 (some 0) = .ok c ∧
      Cpu.create FrameBuffer.standard ({ numbers := #[7] } : Cycle) 10000 none = .ok d ∧
      (∀ deed ∈ deeds, deed.IgnoresTrace) ∧ (hosted d).heard deeds = (hosted c).heard deeds := by
  intro deeds
  have hdeeds : ∀ deed ∈ deeds, deed.IgnoresTrace := by
    intro deed hdeed
    simp only [deeds, List.mem_cons, List.not_mem_nil, or_false] at hdeed
    rcases hdeed with rfl | rfl | rfl | rfl
    · trivial
    · trivial
    · trivial
    · exact fun m s t h => ⟨rfl, h, h⟩
  have hc : Cpu.create FrameBuffer.standard ({ numbers := #[7] } : Cycle) 10000 (some 0) = .ok _ := rfl
  have hd : Cpu.create FrameBuffer.standard ({ numbers := #[7] } : Cycle) 10000 none = .ok _ := rfl
  exact ⟨_, _, hc, hd, hdeeds, (heard_of_create hc hd _ _ () hdeeds).1⟩

end Session

end Chip8
