import Chip8.Proofs.Host.Frames
import Mathlib.Order.Bounds.Defs

/-!
# Watched runs

A run of a host with bystanders: onlookers that leave processor and host alone. They answer the question whether to
stop, they look after every frame, and what they do to the clock or keep for themselves is up to them. What they are
asked and shown is written down, so that a run can be compared with the frames of the bare processor: it ends before
the frame whose number is the limit, before the one for which the answer is to stop, or in the one that faults, and of
these in the first. Main statement: `run_watched`.
-/

namespace Chip8

/-- What is written down of a watched run: how often the bystanders were asked, what they were shown after each frame,
oldest first, and what they keep. -/
structure Watch (δ ρ ω : Type) where
  asked : Nat := 0
  shown : Array (Host × Cpu δ ρ) := #[]
  rest : ω

/-- Onlookers that leave processor and host alone. Their answers are known in advance, the first question being number
zero, or they are never asked. -/
structure Bystanders (δ ρ ω : Type) where
  answers : Option (Nat → Bool)
  /-- What being asked does to the clock and to what they keep. -/
  onAsk : Session δ ρ (Watch δ ρ ω) → Clock × ω
  /-- What looking does to the clock and to what they keep. -/
  onLook : Session δ ρ (Watch δ ρ ω) → Clock × ω

namespace Bystanders

variable {δ ρ ω : Type} (b : Bystanders δ ρ ω)

/-- Answers a question. -/
def ask (answers : Nat → Bool) (s : Session δ ρ (Watch δ ρ ω)) : Bool × Session δ ρ (Watch δ ρ ω) :=
  (answers s.extra.asked,
    { s with
      clock := (b.onAsk s).1
      extra := { s.extra with asked := s.extra.asked + 1, rest := (b.onAsk s).2 } })

/-- Looks at a session after a frame. -/
def look (s : Session δ ρ (Watch δ ρ ω)) : Session δ ρ (Watch δ ρ ω) :=
  { s with
    clock := (b.onLook s).1
    extra := { s.extra with shown := s.extra.shown.push (s.host, s.cpu), rest := (b.onLook s).2 } }

/-- A run with these bystanders. -/
def conduct (limit : Option Int) (realtime : Bool) : Session.Conduct (Session δ ρ (Watch δ ρ ω)) where
  limit
  onlookers := { shouldStop := b.answers.map b.ask, afterFrame := b.look }
  realtime

/-- How often they have been asked when there was occasion to ask them `n` times. -/
def polls (n : Nat) : Nat := if b.answers.isSome then n else 0

theorem polls_zero : b.polls 0 = 0 := by simp [polls]

theorem polls_succ (n : Nat) : b.polls (n + 1) = b.polls n + b.polls 1 := by
  unfold polls
  split <;> rfl

/-- Their answer to the question with this number is to stop. -/
def StopsAt (i : Nat) : Prop := ∃ answers, b.answers = some answers ∧ answers i = true

/-- They do not wait, neither when they are asked nor when they look. -/
def Still : Prop :=
  (∀ s, (b.onAsk s).1.waits = s.clock.waits) ∧ ∀ s, (b.onLook s).1.waits = s.clock.waits

theorem reached_conduct_iff {limit : Option Int} {realtime : Bool} {i : Nat} :
    (b.conduct limit realtime).reached i = true ↔ ∃ n, limit = some n ∧ n.toNat ≤ i := by
  cases limit with
  | none => simp [Session.Conduct.reached, conduct]
  | some n => simp [Session.Conduct.reached, conduct]

/-- Asking the bystanders has no effect on what is watched, but that they have been asked. -/
theorem asks_conduct (limit : Option Int) (realtime : Bool) (u : Session δ ρ (Watch δ ρ ω)) :
    ∃ stop u', (b.conduct limit realtime).asks u = (stop, u') ∧ u'.cpu = u.cpu ∧ u'.host = u.host ∧
      u'.extra.shown = u.extra.shown ∧ (b.Still → u'.clock.waits = u.clock.waits) ∧
      u'.extra.asked = u.extra.asked + b.polls 1 ∧ (stop = true ↔ b.StopsAt u.extra.asked) := by
  cases hanswers : b.answers with
  | none =>
    refine ⟨false, u, by simp [Session.Conduct.asks, conduct, hanswers], rfl, rfl, rfl, fun _ => rfl, ?_, ?_⟩
    · simp [polls, hanswers]
    · simp [StopsAt, hanswers]
  | some answers =>
    refine ⟨(b.ask answers u).1, (b.ask answers u).2, ?_, rfl, rfl, rfl, fun hstill => hstill.1 u, ?_, ?_⟩
    · simp [Session.Conduct.asks, conduct, hanswers]
    · simp [ask, polls, hanswers]
    · simp [ask, StopsAt, hanswers]

end Bystanders

/-- The limit allows just so many frames; one below zero allows none. -/
def LimitAt (limit : Option Int) (i : Nat) : Prop := ∃ n, limit = some n ∧ i = n.toNat

variable {δ ρ ω : Type} [Device δ] [RandomSource ρ]

/-- So many frames complete, and the one after them faults. -/
def Cpu.FaultsAfter (cycles i : Nat) (c : Cpu δ ρ) : Prop :=
  ∃ d f d', frames cycles i c = .ok () d ∧ frame cycles d = .error (.fault f) d'

/-- A frame of a single instruction does not fault if nothing stops the machine. -/
theorem Cpu.not_faultsAfter_zero {c : Cpu δ ρ} (hm : c.machine.Sound) (hrun : c.machine.halted = false)
    (htrouble : c.machine.trouble? = none) : ¬ c.FaultsAfter 1 0 := by
  rintro ⟨d, f, d', hframes, hframe⟩
  obtain ⟨-, rfl⟩ := EStateM.Result.ok.inj hframes
  cases hstep : step c with
  | ok e c' =>
    rw [frame_of_ok (by rw [steps, Act.bind_run, hstep, onward_ok, steps, Act.pure_run])] at hframe
    cases hframe
  | error e c' =>
    rw [frame_of_error (by rw [steps, Act.bind_run, hstep, onward_error])] at hframe
    cases hframe
    obtain ⟨cause, hcause, -⟩ := (step_eq_fault_iff hm hrun).1 hstep
    rw [htrouble] at hcause
    cases hcause

namespace Session

/-! ## How a run ends -/

variable (b : Bystanders δ ρ ω) (limit : Option Int) (s : Session δ ρ (Watch δ ρ ω))

/-- The processor at the start of a run. -/
def started : Cpu δ ρ := s.cpu.note (.hostStarting s.host.cyclesPerFrame s.host.frameRate)

/-- Something ends the run when so many frames are complete. -/
def EndsAfter (i : Nat) : Prop :=
  LimitAt limit i ∨ b.StopsAt (s.extra.asked + i) ∨ s.started.FaultsAfter s.host.cyclesPerFrame i

/-- There were at most `n` waits more, for some time each, and none at all but in real time. -/
def Waited (realtime : Bool) (old new : Array Float) (n : Nat) : Prop :=
  ∃ waits : List Float, new.toList = old.toList ++ waits ∧ waits.length ≤ n ∧ (realtime = false → waits = []) ∧
    ∀ w ∈ waits, w > 0

/-- A run has come to `u` with `k` frames complete, and they have brought the processor to `d`. The bystanders were
shown each of these frames, the first as number one more than there were before. In real time the host has waited at
most once after each frame, and otherwise not at all. -/
structure Passed (realtime : Bool) (k : Nat) (d : Cpu δ ρ) (u : Session δ ρ (Watch δ ρ ω)) : Prop where
  frames : Cpu.frames s.host.cyclesPerFrame k s.started = .ok () d
  cycles : d.machine.cycles = s.cpu.machine.cycles + (k * s.host.cyclesPerFrame : Nat)
  host : u.host = { s.host with frames := s.host.frames + k }
  shown : u.extra.shown.toList = s.extra.shown.toList ++ (List.range k).map fun i =>
    ({ s.host with frames := s.host.frames + (i + 1) },
      (Cpu.frames s.host.cyclesPerFrame (i + 1)).after s.started)
  waits : b.Still → Waited realtime s.clock.waits u.clock.waits k

/-- How a run ends that has completed `k` frames and brought the processor to `d`. The limit is looked at first, then
the bystanders are asked, and only then the frame begins that may fault. Some of its instructions have completed by
then, fewer than all, and the timers have not ticked for it. -/
inductive Ended (k : Nat) (d : Cpu δ ρ) : Ending → Session δ ρ (Watch δ ρ ω) → Prop where
  | limit {t : Session δ ρ (Watch δ ρ ω)} : LimitAt limit k → t.cpu = d.note (.hostStopped t.host.frames) →
    t.extra.asked = s.extra.asked + b.polls k → Ended k d .limitReached t
  | stop {t : Session δ ρ (Watch δ ρ ω)} : ¬ LimitAt limit k → b.StopsAt (s.extra.asked + k) →
    t.cpu = d.note (.hostStopped t.host.frames) → t.extra.asked = s.extra.asked + b.polls (k + 1) →
      Ended k d .stopped t
  | fault {t : Session δ ρ (Watch δ ρ ω)} {j : Nat} {d' d'' : Cpu δ ρ} {f : Fault} : ¬ LimitAt limit k →
    ¬ b.StopsAt (s.extra.asked + k) → j < s.host.cyclesPerFrame → Cpu.steps j d = .ok () d' →
      d'.machine.cycles = d.machine.cycles + j → d'.FaultsTo f d'' → t.cpu = d''.note (.hostFaulted t.host.frames) →
        t.cpu.fault = some f → t.extra.asked = s.extra.asked + b.polls (k + 1) → Ended k d (.faulted f) t

/-! ## Frame by frame -/

variable {b limit s} {realtime : Bool} {P : δ → Prop} {Q : ρ → Prop} {width height : Int}

/-- What is known of a session before a frame. -/
structure Watched (P : δ → Prop) (Q : ρ → Prop) (b : Bystanders δ ρ ω) (s : Session δ ρ (Watch δ ρ ω))
    (realtime : Bool) (i : Nat) (u : Session δ ρ (Watch δ ρ ω)) : Prop extends Passed b s realtime i u.cpu u where
  able : u.cpu.Able P Q
  asked : u.extra.asked = s.extra.asked + b.polls i

theorem Passed.same {k : Nat} {d : Cpu δ ρ} {u v : Session δ ρ (Watch δ ρ ω)} (h : Passed b s realtime k d u)
    (hhost : v.host = u.host) (hshown : v.extra.shown = u.extra.shown)
    (hwaits : b.Still → v.clock.waits = u.clock.waits) : Passed b s realtime k d v where
  frames := h.frames
  cycles := h.cycles
  host := hhost.trans h.host
  shown := by rw [hshown, h.shown]
  waits := by
    intro hstill
    rw [hwaits hstill]
    exact h.waits hstill

/-- After a frame the host waits at most once. -/
theorem Waited.paced {σ : Type} {k : Conduct σ} {old : Array Float} {clock : Clock} {n : Nat}
    (h : Waited k.realtime old clock.waits n) (seconds due : Float) :
    Waited k.realtime old (k.paced seconds clock due).2.waits (n + 1) := by
  obtain ⟨waits, hwaits, hcount, hnone, hpositive⟩ := h
  have hlate : Waited k.realtime old clock.waits (n + 1) := ⟨waits, hwaits, by omega, hnone, hpositive⟩
  unfold Conduct.paced
  split
  · next hrealtime =>
    simp only [pace]
    split
    · next hearly =>
      refine ⟨waits ++ [due + seconds - clock.now], ?_, ?_, ?_, ?_⟩
      · simp [Clock.wait, hwaits]
      · simpa using hcount
      · simp [hrealtime]
      · intro w hw
        rcases List.mem_append.1 hw with hold | hlast
        · exact hpositive w hold
        · rwa [List.mem_singleton.1 hlast]
    · exact hlate
  · exact hlate

section

variable (hsized : Device.Sized P width height) (hrandom : RandomSource.Endless Q) {i patience : Nat}
  {u : Session δ ρ (Watch δ ρ ω)} {seconds due : Float}

theorem Watched.start (hvalid : s.cpu.machine.validate = true) (hrun : s.cpu.machine.halted = false)
    (hdevice : P s.cpu.device) (hsource : Q s.cpu.rig.random) :
    Watched P Q b s realtime 0 (s.note (.hostStarting s.host.cyclesPerFrame s.host.frameRate)) where
  able := Cpu.Able.note ⟨((Machine.validate_iff _).1 hvalid).apart, hrun, hdevice, hsource⟩ _
  frames := rfl
  cycles := by simp [note, Cpu.note, Cpu.machine]
  host := rfl
  asked := by simp [note, b.polls_zero]
  shown := by simp [note]
  waits := fun _ => ⟨[], by simp [note], Nat.le_refl 0, fun _ => rfl, by simp⟩

/-- The number of a question in a run. -/
theorem Watched.stopsAt_iff (h : Watched P Q b s realtime i u) :
    b.StopsAt u.extra.asked ↔ b.StopsAt (s.extra.asked + i) := by
  rw [h.asked]
  constructor
  · rintro ⟨answers, hanswers, hstop⟩
    exact ⟨answers, hanswers, by simpa [Bystanders.polls, hanswers] using hstop⟩
  · rintro ⟨answers, hanswers, hstop⟩
    exact ⟨answers, hanswers, by simpa [Bystanders.polls, hanswers] using hstop⟩

include hsized hrandom

/-- **A run goes on** with one more frame if nothing ends it before. -/
theorem Watched.next (h : Watched P Q b s realtime i u) (hgoes : ∀ n, limit = some n → i < n.toNat)
    (hstop : ¬ b.StopsAt (s.extra.asked + i)) (hfault : ¬ s.started.FaultsAfter s.host.cyclesPerFrame i)
    (seconds due : Float) (patience : Nat) :
    ∃ due' u', Watched P Q b s realtime (i + 1) u' ∧
      runFrames (b.conduct limit realtime) seconds (patience + 1) i due u =
        runFrames (b.conduct limit realtime) seconds patience (i + 1) due' u' := by
  have hreached : (b.conduct limit realtime).reached i = false := by
    rw [Bool.eq_false_iff, ne_eq, b.reached_conduct_iff]
    rintro ⟨n, hn, hle⟩
    exact absurd (hgoes n hn) (by omega)
  obtain ⟨stop, v, hasks, hcpu, hhost, hshown, hwaits, hasked, hiff⟩ := b.asks_conduct limit realtime u
  obtain rfl : stop = false := by
    rw [Bool.eq_false_iff, ne_eq, hiff, h.stopsAt_iff]
    exact hstop
  have hcycles : v.host.cyclesPerFrame = s.host.cyclesPerFrame := by rw [hhost, h.host]
  rcases Cpu.frame_able hsized hrandom s.host.cyclesPerFrame h.able with
    ⟨d, hframe, hd, hcount⟩ | ⟨j, hj, d, f, d', -, -, -, hframe⟩
  · have hrunFrame := runFrame_of_ok (u := v) (d := d) (by rw [hcpu, hcycles, hframe])
    refine ⟨_, _, ?_, runFrames_shown hreached hasks hrunFrame⟩
    have hframes : Cpu.frames s.host.cyclesPerFrame (i + 1) s.started = .ok () d :=
      (Cpu.frames_succ h.frames).trans hframe
    have hhost' : { v.host with frames := v.host.frames + 1 } = { s.host with frames := s.host.frames + (i + 1) } := by
      rw [hhost, h.host]
      rfl
    refine ⟨⟨hframes, ?_, hhost', ?_, ?_⟩, hd, ?_⟩
    · show d.machine.cycles = _
      rw [hcount, h.cycles, Nat.succ_mul, Int.natCast_add, Int.add_assoc]
    · show (v.extra.shown.push ({ v.host with frames := v.host.frames + 1 }, d)).toList = _
      rw [Array.toList_push, hshown, h.shown, hhost', List.range_succ, List.map_append, List.append_assoc,
        List.map_singleton, Act.after_of_ok hframes]
    · intro hstill
      have hlooked := (hstill.2 { v with cpu := d, host := { v.host with frames := v.host.frames + 1 } }).trans
        (hwaits hstill)
      have hwaited := h.waits hstill
      rw [← hlooked] at hwaited
      exact Waited.paced (k := b.conduct limit realtime) hwaited seconds due
    · show v.extra.asked = _
      rw [hasked, h.asked, b.polls_succ i]
      omega
  · exact absurd ⟨u.cpu, f, d', h.frames, hframe⟩ hfault

/-- **A run ends** when something ends it, and the limit has allowed no fewer frames. -/
theorem Watched.last (h : Watched P Q b s realtime i u) (hleast : ∀ n, limit = some n → i ≤ n.toNat)
    (hends : EndsAfter b limit s i) :
    ∃ ending t, runFrames (b.conduct limit realtime) seconds (patience + 1) i due u = .ok ending t ∧
      ∃ d, Passed b s realtime i d t ∧ Ended b limit s i d ending t := by
  by_cases hlimit : LimitAt limit i
  · have hreached : (b.conduct limit realtime).reached i = true := by
      obtain ⟨n, hn, rfl⟩ := hlimit
      exact b.reached_conduct_iff.2 ⟨n, hn, Nat.le_refl _⟩
    exact ⟨_, _, runFrames_reached hreached, _, h.toPassed.same rfl rfl fun _ => rfl, .limit hlimit rfl h.asked⟩
  have hreached : (b.conduct limit realtime).reached i = false := by
    rw [Bool.eq_false_iff, ne_eq, b.reached_conduct_iff]
    rintro ⟨n, hn, hle⟩
    exact hlimit ⟨n, hn, Nat.le_antisymm (hleast n hn) hle⟩
  obtain ⟨stop, v, hasks, hcpu, hhost, hshown, hwaits, hasked, hiff⟩ := b.asks_conduct limit realtime u
  have hpolled : v.extra.asked = s.extra.asked + b.polls (i + 1) := by
    rw [hasked, h.asked, b.polls_succ i, Nat.add_assoc]
  have hpassed := h.toPassed.same hhost hshown hwaits
  cases stop with
  | true =>
    have hstop := h.stopsAt_iff.1 (hiff.1 rfl)
    have hnote : (v.note (.hostStopped v.host.frames)).cpu = u.cpu.note (.hostStopped v.host.frames) := by
      rw [note, hcpu]
    exact ⟨_, _, runFrames_stopped hreached hasks, _, hpassed.same rfl rfl fun _ => rfl,
      .stop hlimit hstop hnote hpolled⟩
  | false =>
    have hstop : ¬ b.StopsAt (s.extra.asked + i) := fun hstop => by simpa using hiff.2 (h.stopsAt_iff.2 hstop)
    have hcycles : v.host.cyclesPerFrame = s.host.cyclesPerFrame := by rw [hhost, h.host]
    obtain ⟨d, f, d', hframes, hframe⟩ : s.started.FaultsAfter s.host.cyclesPerFrame i :=
      (hends.resolve_left hlimit).resolve_left hstop
    obtain rfl : u.cpu = d := by simpa [h.frames] using hframes
    rcases Cpu.frame_able hsized hrandom s.host.cyclesPerFrame h.able with
      ⟨d'', hcompletes, -⟩ | ⟨j, hj, d'', f', d', hsteps, hcount, hfaults, hcut⟩
    · rw [hframe] at hcompletes
      cases hcompletes
    · have hrunFrame := runFrame_of_error (u := v) (by rw [hcpu, hcycles, hcut])
      exact ⟨_, _, runFrames_faulted hreached hasks hrunFrame, _, hpassed.same rfl rfl fun _ => rfl,
        .fault hlimit hstop hj hsteps hcount hfaults rfl hfaults.fault hpolled⟩

/-- A run that is watched up to here ends after `k` frames. -/
theorem Watched.run {k : Nat} (h : Watched P Q b s realtime i u) (hleast : IsLeast {i | EndsAfter b limit s i} k)
    (hle : i ≤ k) (hpatience : k < i + patience) :
    ∃ ending t, runFrames (b.conduct limit realtime) seconds patience i due u = .ok ending t ∧
      ∃ d, Passed b s realtime k d t ∧ Ended b limit s k d ending t := by
  have hlimit {n : Int} (hn : limit = some n) : k ≤ n.toNat := hleast.2 (.inl ⟨n, hn, rfl⟩)
  induction patience generalizing i due u with
  | zero => omega
  | succ patience ih =>
    by_cases hlast : i = k
    · subst hlast
      exact h.last hsized hrandom (fun n hn => hlimit hn) hleast.1
    · have hbefore {j : Nat} (hends : EndsAfter b limit s j) : k ≤ j := hleast.2 hends
      have hstop : ¬ b.StopsAt (s.extra.asked + i) := fun hstop => by
        have := hbefore (.inr (.inl hstop))
        omega
      have hfault : ¬ s.started.FaultsAfter s.host.cyclesPerFrame i := fun hfault => by
        have := hbefore (.inr (.inr hfault))
        omega
      have hgoes (n : Int) (hn : limit = some n) : i < n.toNat := Nat.lt_of_lt_of_le (by omega) (hlimit hn)
      obtain ⟨due', u', h', heq⟩ := h.next hsized hrandom hgoes hstop hfault seconds due patience
      rw [heq]
      exact ih h' (by omega) (by omega)

/-- A run that nothing ends goes on for as long as it may. -/
theorem Watched.endless (h : Watched P Q b s realtime i u) (hends : ∀ j, ¬ EndsAfter b limit s j) :
    ∃ t, runFrames (b.conduct limit realtime) seconds patience i due u = .ok .givenUp t := by
  induction patience generalizing i due u with
  | zero => exact ⟨u, rfl⟩
  | succ patience ih =>
    have hgoes (n : Int) (hn : limit = some n) : i < n.toNat := absurd (.inl ⟨n, hn, rfl⟩) (hends n.toNat)
    obtain ⟨due', u', h', heq⟩ := h.next hsized hrandom hgoes (fun hstop => hends i (.inr (.inl hstop)))
      (fun hfault => hends i (.inr (.inr hfault))) seconds due patience
    rw [heq]
    exact ih h'

/-- **The end of a run.** The number of frames that a run completes is the least at which the limit, the bystanders or a
fault ends it, and then host, processor and bystanders have gone through just these frames. If nothing ends it, it is
never over. -/
theorem run_watched (b : Bystanders δ ρ ω) (limit : Option Int) (realtime : Bool)
    {s : Session δ ρ (Watch δ ρ ω)} (hvalid : s.cpu.machine.validate = true) (hrun : s.cpu.machine.halted = false)
    (hdevice : P s.cpu.device) (hsource : Q s.cpu.rig.random) (hrate : frameTime s.host.frameRate = .ok seconds) :
    (∀ k, IsLeast {i | EndsAfter b limit s i} k → ∀ patience, k < patience →
      ∃ ending t, run (b.conduct limit realtime) patience s = .ok ending t ∧
        ∃ d, Passed b s realtime k d t ∧ Ended b limit s k d ending t) ∧
    ((∀ i, ¬ EndsAfter b limit s i) →
      ∀ patience, ∃ t, run (b.conduct limit realtime) patience s = .ok .givenUp t) := by
  have hstart : Watched P Q b s realtime 0 _ := Watched.start hvalid hrun hdevice hsource
  constructor
  · intro k hleast patience hpatience
    rw [run_running hrun hrate]
    exact hstart.run hsized hrandom hleast (Nat.zero_le k) (by omega)
  · intro hends patience
    rw [run_running hrun hrate]
    exact hstart.endless hsized hrandom hends

end

/-- A program that jumps to itself, one instruction in a frame. -/
def looping : Session FrameBuffer Cycle (Watch FrameBuffer Cycle Unit) where
  cpu :=
    { rig :=
        { machine := { memory := (Array.replicate 4096 0).setIfInBounds 0x200 0x12 }
          device := FrameBuffer.standard
          random := { numbers := #[7] } }
      trace := { limit := none } }
  host := { cyclesPerFrame := 1, frameRate := 60 }
  extra := { rest := () }

/-- Bystanders that never ask to stop. -/
def patient : Bystanders FrameBuffer Cycle Unit where
  answers := some fun _ => false
  onAsk := fun s => (s.clock, s.extra.rest)
  onLook := fun s => (s.clock, s.extra.rest)

theorem run_watched_looping :
    ∃ t, run (patient.conduct (some 1) false) 2 looping = .ok .limitReached t ∧ t.host.frames = 1 ∧
      t.extra.asked = 1 ∧ t.cpu.machine.cycles = 1 := by
  have hsized := FrameBuffer.sized (show (1 : Int) ≤ 64 by decide) (show (1 : Int) ≤ 32 by decide)
  have hvalid : looping.cpu.machine.validate = true := by decide +kernel
  have hrate : frameTime looping.host.frameRate = .ok (1.0 / Float.ofNat 60) := by
    have hfinite : (Float.ofNat 60).isInf = false := by decide
    simp [frameTime, looping, hfinite]
  have hnever : ¬ patient.StopsAt 0 := by simp [Bystanders.StopsAt, patient]
  have hgoes : ¬ looping.started.FaultsAfter 1 0 :=
    Cpu.not_faultsAfter_zero ((Machine.validate_iff _).1 hvalid) rfl (by decide +kernel)
  have hleast : IsLeast {i | EndsAfter patient (some 1) looping i} 1 := by
    refine ⟨.inl ⟨1, rfl, rfl⟩, ?_⟩
    intro i hi
    refine Nat.one_le_iff_ne_zero.2 ?_
    rintro rfl
    rcases hi with ⟨n, hn, hzero⟩ | hstop | hfault
    · cases hn
      cases hzero
    · exact hnever hstop
    · exact hgoes hfault
  obtain ⟨hruns, -⟩ := run_watched hsized Cycle.endless patient (some 1) false hvalid rfl
    ⟨rfl, rfl⟩ (show (#[7] : Array Int) ≠ #[] by decide) hrate
  obtain ⟨ending, t, hrun, d, hpassed, hended⟩ := hruns 1 hleast 2 (by decide)
  cases hended with
  | limit _ hcpu hasked => exact ⟨t, hrun, by rw [hpassed.host]; rfl, hasked, by rw [hcpu]; exact hpassed.cycles⟩
  | stop hlimit => exact absurd ⟨1, rfl, rfl⟩ hlimit
  | fault hlimit => exact absurd ⟨1, rfl, rfl⟩ hlimit

end Session

end Chip8
