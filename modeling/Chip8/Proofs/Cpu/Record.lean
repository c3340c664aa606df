import Chip8.Cpu.Report
import Chip8.Proofs.Cpu.Handling
import Chip8.Proofs.Cpu.Strides
import Chip8.Proofs.Rig.Calls
import Mathlib.Data.List.Chain

/-!
# The record of a processor

The record of a processor is the entries of all its strides since a program was loaded, in order, and the trace is the
end of it. Between two strides only the timers can change, and a fault is the end of all strides. Main statement:
`trace_of_record`.
-/

namespace Chip8

namespace Cpu

section

variable {δ ρ : Type} {c d : Cpu δ ρ} {t : Stride} {ts : List Stride} {limit : Option Nat}

/-! ## Rows of strides -/

/-- The strides since a program was loaded, and the processor that they have led to. Only the last one can have ended in
a fault, and then the processor is halted by it. -/
structure Recorded (limit : Option Nat) (c : Cpu δ ρ) (ts : List Stride) : Prop where
  bound : c.trace.limit = limit
  kept : c.trace.entries.toList = Trace.newest limit (ts.map Stride.entry)
  numbered : ∀ (k : Nat) t, ts[k]? = some t → t.after.cycles = if t.fault.isSome then (k : Int) else k + 1
  joined : ts.IsChain fun t u => t.after.ButTimers u.before
  reached : ∀ t ∈ ts.getLast?, t.after.ButTimers c.machine
  running : c.machine.halted = false → c.machine.cycles = ts.length ∧ ∀ t ∈ ts, t.fault = none
  halted : c.machine.halted = true → ∃ earlier last f, ts = earlier ++ [last] ∧ (∀ t ∈ earlier, t.fault = none) ∧
    last.fault = some f ∧ c.fault = some f

namespace Recorded

theorem stays (h : c.Recorded limit ts) (hstays : c.Stays d) : d.Recorded limit ts where
  bound := by rw [hstays.trace, h.bound]
  kept := by rw [hstays.trace, h.kept]
  numbered := h.numbered
  joined := h.joined
  reached t ht := hstays.machine.trans (h.reached t ht)
  running hrun := by
    have hcycles : d.machine.cycles = c.machine.cycles := hstays.machine.agree (f := fun m => m.cycles) fun _ => rfl
    rw [hcycles]
    exact h.running (by rw [← hstays.machine.halted_eq, hrun])
  halted hhalted := by
    rw [hstays.fault]
    exact h.halted (by rw [← hstays.machine.halted_eq, hhalted])

/-- One more stride. -/
theorem concat [Device δ] [RandomSource ρ] (h : c.Recorded limit ts) (hstrides : c.Strides t d) :
    d.Recorded limit (ts ++ [t]) := by
  obtain ⟨hcycles, hnone⟩ := h.running hstrides.running
  exact {
    bound := by rw [hstrides.trace, Trace.limit_push, h.bound]
    kept := by
      rw [hstrides.trace, Trace.toList_push, h.bound, h.kept, Trace.newest_newest_concat, List.map_append]
      rfl
    numbered := by
      intro k u hk
      rw [List.getElem?_append] at hk
      split at hk
      · exact h.numbered k u hk
      · next hge =>
        obtain ⟨hlast, rfl⟩ : k - ts.length = 0 ∧ t = u := by simpa [List.getElem?_singleton] using hk
        obtain rfl : k = ts.length := by omega
        rw [hstrides.after]
        rcases hstrides.ending with ⟨hfault, -, hnext⟩ | ⟨f, hfault, -, hhalted⟩
        · simp [hfault, hnext, hcycles]
        · simp [hfault, hhalted, hcycles]
    joined := by
      refine h.joined.append (List.isChain_singleton t) ?_
      intro u hu v hv
      obtain rfl : t = v := by simpa using hv
      rw [hstrides.before]
      exact h.reached u hu
    reached := by
      intro u hu
      obtain rfl : t = u := by simpa using hu
      rw [hstrides.after]
      exact rfl
    running := by
      intro hrun
      rcases hstrides.ending with ⟨hfault, -, hnext⟩ | ⟨f, -, -, hhalted⟩
      · refine ⟨by simp [hnext, hcycles], fun u hu => ?_⟩
        rcases List.mem_append.1 hu with hu | hu
        · exact hnone u hu
        · rwa [List.mem_singleton.1 hu]
      · rw [hhalted] at hrun
        cases hrun
    halted := by
      intro hhalted
      rcases hstrides.ending with ⟨-, hrun, -⟩ | ⟨f, hfault, hshown, -⟩
      · rw [hrun] at hhalted
        cases hhalted
      · exact ⟨ts, t, f, rfl, hnone, hfault, hshown⟩ }

theorem length_of_fault (h : c.Recorded limit ts) {k : Nat} {f : Fault} (ht : ts[k]? = some t)
    (hfault : t.fault = some f) : k + 1 = ts.length := by
  cases hhalted : c.machine.halted with
  | false =>
    have hnone := (h.running hhalted).2 t (List.mem_of_getElem? ht)
    rw [hfault] at hnone
    cases hnone
  | true =>
    obtain ⟨earlier, last, -, rfl, hearlier, -, -⟩ := h.halted hhalted
    have hk : ¬ k < earlier.length := by
      intro hlt
      rw [List.getElem?_append_left hlt] at ht
      have hnone := hearlier t (List.mem_of_getElem? ht)
      rw [hfault] at hnone
      cases hnone
    have hlt := (List.getElem?_eq_some_iff.1 ht).1
    simp only [List.length_append, List.length_singleton] at hlt ⊢
    omega

theorem untimed_of_next (h : c.Recorded limit ts) {k : Nat} {u : Stride} (ht : ts[k]? = some t)
    (hu : ts[k + 1]? = some u) : u.before.snapshot.untimed = t.after.snapshot.untimed := by
  obtain ⟨hlt, rfl⟩ := List.getElem?_eq_some_iff.1 hu
  obtain ⟨-, rfl⟩ := List.getElem?_eq_some_iff.1 ht
  exact (h.joined.getElem k hlt).snapshot_eq

/-- What the entry of a stride says. -/
theorem entry (h : c.Recorded limit ts) {k : Nat} {e : TraceEntry} (he : (ts.map Stride.entry)[k]? = some e) :
    (e.error = none ∧ e.cycle = k + 1 ∨ e.error ≠ none ∧ e.cycle = k ∧ k + 1 = (ts.map Stride.entry).length) ∧
    (∃ p, e.passage = some p ∧ p.before.pc = e.pc ∧ ∀ e' p', (ts.map Stride.entry)[k + 1]? = some e' →
      e'.passage = some p' → p'.before.untimed = p.after.untimed) ∧
    ∀ w, e.word = some w → Decoder.standard.disassemble w.toNat = .ok e.instruction := by
  rw [List.getElem?_map, Option.map_eq_some_iff] at he
  obtain ⟨t, ht, rfl⟩ := he
  refine ⟨?_, ⟨_, rfl, rfl, ?_⟩, fun w => t.disassemble_word⟩
  · have hcycle := h.numbered k t ht
    cases hfault : t.fault with
    | none => exact .inl ⟨by simp [Stride.entry, hfault], by simpa [Stride.entry, hfault] using hcycle⟩
    | some f =>
      refine .inr ⟨by simp [Stride.entry, hfault], by simpa [Stride.entry, hfault] using hcycle, ?_⟩
      rw [List.length_map]
      exact h.length_of_fault ht hfault
  · intro e' p' he' hp'
    rw [List.getElem?_map, Option.map_eq_some_iff] at he'
    obtain ⟨u, hu, rfl⟩ := he'
    obtain rfl := Option.some.inj hp'
    exact h.untimed_of_next ht hu

/-- The errors of a summary are the fault of a halted processor, and there are none before. -/
theorem errors (h : c.Recorded limit ts) (hon : limit ≠ some 0) :
    (c.machine.halted = false ∧ c.summary.errors = []) ∨
    (c.machine.halted = true ∧ ∃ f, c.fault = some f ∧ c.summary.errors = [f.text]) := by
  have hnone (us : List Stride) (hus : ∀ t ∈ us, t.fault = none) {es : List TraceEntry}
      (hes : es <:+ us.map Stride.entry) : es.filterMap (·.error) = [] := by
    refine List.filterMap_eq_nil_iff.2 fun e he => ?_
    obtain ⟨t, ht, rfl⟩ := List.mem_map.1 (hes.mem he)
    simp [Stride.entry, hus t ht]
  have herrors : c.summary.errors = (Trace.newest limit (ts.map Stride.entry)).filterMap (·.error) :=
    congrArg (List.filterMap TraceEntry.error) h.kept
  cases hhalted : c.machine.halted with
  | false =>
    obtain ⟨-, hts⟩ := h.running hhalted
    exact .inl ⟨rfl, herrors.trans (hnone ts hts (Trace.newest_suffix limit _))⟩
  | true =>
    obtain ⟨earlier, last, f, rfl, hearlier, hlast, hfault⟩ := h.halted hhalted
    obtain ⟨rest, hrest, hnewest⟩ := Trace.newest_concat hon (earlier.map Stride.entry) last.entry
    refine .inr ⟨rfl, f, hfault, ?_⟩
    rw [List.map_append] at herrors
    rw [herrors]
    show (Trace.newest limit (earlier.map Stride.entry ++ [last.entry])).filterMap (·.error) = _
    rw [hnewest, List.filterMap_append, hnone earlier hearlier hrest]
    simp [Stride.entry, hlast]

end Recorded

/-- A program has just been loaded. -/
theorem recorded_of_loadProgram {rom : List UInt8} (h : loadProgram rom c = .ok () d) (hlimit : c.trace.limit = limit) :
    d.Recorded limit [] := by
  obtain ⟨hstart, -⟩ := bounded_of_loadProgram h
  have hfresh := (Machine.start_eq_ok_iff.1 hstart).2
  have htrace : d.trace = c.trace.cleared := by
    rcases loadProgram_cases rom c with ⟨e, herror⟩ | ⟨machine, -, hload⟩
    · rw [herror] at h
      cases h
    · rw [hload] at h
      cases h
      rfl
  exact {
    bound := by rw [htrace]; exact hlimit
    kept := by
      rw [htrace, List.map_nil, Trace.newest_nil]
      rfl
    numbered := fun k t hk => by cases hk
    joined := List.isChain_nil
    reached := fun t ht => by cases ht
    running := fun _ => ⟨by rw [hfresh]; rfl, fun t ht => by cases ht⟩
    halted := fun hhalted => by rw [hfresh] at hhalted; cases hhalted }

/-- The strides of a loaded program start with none. -/
theorem recorded_loaded {rom : List UInt8} (h : loadProgram rom c = .ok () d) : d.Recorded d.trace.limit [] := by
  have hstarted := recorded_of_loadProgram h rfl
  rwa [← hstarted.bound] at hstarted

end

variable {ρ : Type} [RandomSource ρ] {c d : Cpu FrameBuffer ρ} {ts : List Stride} {hs : List Handling}

/-! ## The record -/

/-- A row of strides after one more handling. A program that is loaded starts a new row. -/
def stridesAfter (c : Cpu FrameBuffer ρ) (ts : List Stride) : Handling → List Stride
  | .step => ts ++ c.stride?.toList
  | .load rom => match loadProgram rom c with
    | .ok _ _ => []
    | .error _ _ => ts
  | _ => ts

/-- A row of strides after a row of handlings. -/
def stridesFrom (c : Cpu FrameBuffer ρ) (ts : List Stride) : List Handling → List Stride
  | [] => ts
  | h :: hs => (h.act.after c).stridesFrom (c.stridesAfter ts h) hs

/-- The entries of all the steps that were taken, from a processor on, since a program was loaded last. -/
def record (c : Cpu FrameBuffer ρ) (hs : List Handling) : List TraceEntry := (c.stridesFrom [] hs).map Stride.entry

theorem stridesFrom_concat (c : Cpu FrameBuffer ρ) (ts : List Stride) (hs : List Handling) (h : Handling) :
    c.stridesFrom ts (hs ++ [h]) = (c.handled hs).stridesAfter (c.stridesFrom ts hs) h := by
  induction hs generalizing c ts with
  | nil => rfl
  | cons first hs ih => exact ih (first.act.after c) (c.stridesAfter ts first)

theorem record_concat_step {t : Stride} (h : (c.handled hs).stride? = some t) :
    c.record (hs ++ [.step]) = c.record hs ++ [t.entry] := by
  rw [record, stridesFrom_concat, stridesAfter, h, List.map_append, ← record]
  rfl

/-- A display keeps its size. -/
theorem size_handled (hwidth : 1 ≤ c.device.width) (hheight : 1 ≤ c.device.height) (hs : List Handling) :
    (c.handled hs).device.width = c.device.width ∧ (c.handled hs).device.height = c.device.height := by
  have hkept := Rig.kept_device (ρ := ρ) (FrameBuffer.sized hwidth hheight)
  refine keeps_handled (I := fun d => d.device.width = c.device.width ∧ d.device.height = c.device.height)
    (fun h d hd => ?_) ⟨rfl, rfl⟩
  refine hkept.after_handling (fun _ _ => Rig.keeps_draw fun _ _ hsize => hsize) (fun event _ => ?_) hd
  obtain ⟨keypad, hkeypad⟩ := event.exists_after_act d.device
  rw [hkeypad]
  exact hd

/-- The next step is a stride or does nothing. -/
theorem Recorded.next {limit : Option Nat} (hrecorded : c.Recorded limit ts) (hon : limit ≠ some 0)
    (hm : c.machine.SoundApart) (hwidth : 1 ≤ c.device.width) (hheight : 1 ≤ c.device.height) :
    (c.stride? = none ∧ c.Stays (step.after c)) ∨ ∃ t, c.stride? = some t ∧ c.Strides t (step.after c) :=
  stays_or_strides (FrameBuffer.sized hwidth hheight) ⟨rfl, rfl⟩ hm (by simpa [Trace.isOn, hrecorded.bound] using hon)

/-- One handling adds a stride, starts a new row or does not count. -/
theorem recorded_stridesAfter {limit : Option Nat} (hrecorded : c.Recorded limit ts) (hon : limit ≠ some 0)
    (hm : c.machine.SoundApart) (hwidth : 1 ≤ c.device.width) (hheight : 1 ≤ c.device.height) (h : Handling) :
    (h.act.after c).Recorded limit (c.stridesAfter ts h) := by
  cases h with
  | step =>
    rw [Handling.after_step, stridesAfter]
    rcases hrecorded.next hon hm hwidth hheight with ⟨hnone, hstays⟩ | ⟨t, hstride, hstrides⟩
    · rw [hnone]
      simpa using hrecorded.stays hstays
    · rw [hstride]
      exact hrecorded.concat hstrides
  | load rom =>
    rcases loadProgram_cases rom c with ⟨e, hload⟩ | ⟨machine, -, hload⟩
    · rw [Handling.act, Act.after_of_error hload, stridesAfter, hload]
      exact hrecorded
    · rw [Handling.act, Act.after_of_ok hload, stridesAfter, hload]
      exact recorded_of_loadProgram hload hrecorded.bound
  | setDelay value | setSound value => exact hrecorded.stays ⟨rfl, rfl, rfl⟩
  | tick =>
    have htick : Handling.tick.act.after c = c.withMachine c.machine.ticked := tickTimers_eq c
    rw [htick]
    exact hrecorded.stays ⟨rfl, rfl, rfl⟩
  | key event =>
    rw [Handling.after_key]
    exact hrecorded.stays ⟨rfl, rfl, rfl⟩

/-- **The run of a record**: whatever is done, the strides are accounted for. -/
theorem recorded_handled {limit : Option Nat} (hrecorded : c.Recorded limit []) (hon : limit ≠ some 0)
    (hm : c.machine.SoundApart) (hwidth : 1 ≤ c.device.width) (hheight : 1 ≤ c.device.height) (hs : List Handling) :
    (c.handled hs).Recorded limit (c.stridesFrom [] hs) := by
  induction hs using List.reverseRecOn with
  | nil => exact hrecorded
  | append_singleton hs h ih =>
    obtain ⟨hwidth', hheight'⟩ := size_handled hwidth hheight hs
    rw [handled_concat, stridesFrom_concat]
    exact recorded_stridesAfter ih hon (soundApart_handled hm hs) (by omega) (by omega) h

/-- **The trace is the end of the record.** Whatever is done to a processor with a trace and a display with pixels after
a program was loaded, its trace holds the newest entries of its record, as many as fit. As long as it is not halted and
has a random number to be had, a step completes or faults, and the record grows by one entry with each: the one that a
completed step hands back, or one with the text of the fault. The `k`-th entry, counted from zero, counts `k + 1`
instructions if its step completed; else it counts `k`, and is the last. It starts at the program counter before the
step, it shows the disassembly of its word, and the next one starts where it ended but for the timers. And the summary
reports the error of a halted processor, and none of any other. -/
theorem trace_of_record {rom : List UInt8} {c₀ c : Cpu FrameBuffer ρ} (hload : loadProgram rom c₀ = .ok () c)
    (hon : c.trace.limit ≠ some 0) (hwidth : 1 ≤ c.device.width) (hheight : 1 ≤ c.device.height)
    (hs : List Handling) :
    (c.handled hs).trace.entries.toList = Trace.newest c.trace.limit (c.record hs) ∧
    ((c.handled hs).machine.halted = false → (∃ answer, RandomSource.next (c.handled hs).rig.random = .ok answer) →
      (∃ e d, step (c.handled hs) = .ok e d) ∨ ∃ f d, step (c.handled hs) = .error (.fault f) d) ∧
    (∀ e d, step (c.handled hs) = .ok e d → c.record (hs ++ [.step]) = c.record hs ++ [e]) ∧
    (∀ f d, step (c.handled hs) = .error (.fault f) d →
      ∃ e, c.record (hs ++ [.step]) = c.record hs ++ [e] ∧ e.error = some f.text) ∧
    (∀ (k : Nat) e, (c.record hs)[k]? = some e →
      (e.error = none ∧ e.cycle = k + 1 ∨ e.error ≠ none ∧ e.cycle = k ∧ k + 1 = (c.record hs).length) ∧
      (∃ p, e.passage = some p ∧ p.before.pc = e.pc ∧ ∀ e' p', (c.record hs)[k + 1]? = some e' →
        e'.passage = some p' → p'.before.untimed = p.after.untimed) ∧
      ∀ w, e.word = some w → Decoder.standard.disassemble w.toNat = .ok e.instruction) ∧
    (((c.handled hs).machine.halted = false ∧ (c.handled hs).summary.errors = []) ∨
      ((c.handled hs).machine.halted = true ∧
        ∃ f, (c.handled hs).fault = some f ∧ (c.handled hs).summary.errors = [f.text])) := by
  have hm : c.machine.SoundApart := (Machine.bounded_of_start (bounded_of_loadProgram hload).1).apart
  have hrecorded := recorded_handled (recorded_loaded hload) hon hm hwidth hheight hs
  obtain ⟨hwidth', hheight'⟩ := size_handled hwidth hheight hs
  have hapart := soundApart_handled hm hs
  refine ⟨hrecorded.kept, ?_, ?_, ?_, fun k e he => hrecorded.entry he, hrecorded.errors hon⟩
  · exact ok_or_fault (FrameBuffer.sized hwidth hheight) ⟨hwidth', hheight'⟩ hapart
  · intro e d hstep
    rcases hrecorded.next hon hapart (by omega) (by omega) with ⟨hnone, -⟩ | ⟨t, hstride, hstrides⟩
    · rw [stride?_of_ok hstep] at hnone
      cases hnone
    · rw [record_concat_step hstride, hstrides.handed e d hstep]
  · intro f d hstep
    exact ⟨_, record_concat_step (stride?_of_fault hstep), rfl⟩

/-- A processor that keeps one entry. -/
def forgetful : Cpu FrameBuffer Cycle where
  rig := { machine := Machine.empty, device := FrameBuffer.standard, random := { numbers := #[7] } }
  trace := { limit := some 1 }

/-- With a program of one instruction the second step faults, and only its entry is left. -/
theorem trace_of_record_forgetful :
    ∃ (c : Cpu FrameBuffer Cycle) (f : Fault), loadProgram [0x60, 0x05] forgetful = .ok () c ∧
      (c.record [.step, .setDelay 9, .step]).length = 2 ∧
      (c.handled [.step, .setDelay 9, .step]).trace.entries.toList = (c.record [.step, .setDelay 9, .step]).rtake 1 ∧
      (c.handled [.step, .setDelay 9, .step]).summary.errors = [f.text] := by
  have hload : loadProgram [0x60, 0x05] forgetful = .ok () ((loadProgram [0x60, 0x05]).after forgetful) := rfl
  obtain ⟨htrace, -, -, -, -, herrors⟩ :=
    trace_of_record hload (by decide) (by decide) (by decide) [.step, .setDelay 9, .step]
  have hhalted : (((loadProgram [0x60, 0x05]).after forgetful).handled
      [.step, .setDelay 9, .step]).machine.halted = true := by decide +kernel
  rcases herrors with ⟨hrun, -⟩ | ⟨-, f, -, herrors⟩
  · rw [hhalted] at hrun
    cases hrun
  · exact ⟨_, f, hload, by decide +kernel, htrace, herrors⟩

end Cpu

end Chip8
