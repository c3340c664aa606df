import Chip8.Proofs.Cpu.Step
import Chip8.Proofs.Rig.Kept

/-!
# What steps keep

A property of rigs that says nothing of the machine is kept by every step, on any processor, if the display and the
keypad keep it, and if drawing a random number does where the next instruction draws one. Main statement:
`Kept.after_step`.
-/

namespace Chip8

/-- The word that the next step fetches, if it gets that far. -/
def Machine.fetched? (m : Machine) : Option UInt16 :=
  if m.halted then none
  else match fetch m with
    | .ok w _ => some w
    | .error _ _ => none

theorem Machine.fetched?_of_fetch {m m' : Machine} {w : UInt16} (hrun : m.halted = false)
    (hfetch : fetch m = .ok w m') : m.fetched? = some w := by
  simp only [fetched?, hrun, hfetch, Bool.false_eq_true, if_false]

theorem Machine.fetch_of_fetched? {m : Machine} {w : UInt16} (h : m.fetched? = some w) :
    m.halted = false ∧ ∃ m', fetch m = .ok w m' := by
  unfold fetched? at h
  split at h
  · cases h
  · next hrun =>
    cases hfetch : fetch m with
    | ok w' m' =>
      rw [hfetch] at h
      obtain rfl : w' = w := Option.some.inj h
      exact ⟨by simpa using hrun, m', rfl⟩
    | error e m' =>
      rw [hfetch] at h
      cases h

/-- Is the next instruction CXNN, which draws a random number? -/
def Machine.drawsNumber (m : Machine) : Bool := m.fetched?.any fun w => w.toNat / 0x1000 == 0xC

namespace Cpu

variable {δ ρ : Type} [Device δ] [RandomSource ρ] {c : Cpu δ ρ} {m : Machine} {w : UInt16}

/-! ## Fetching, decoding, executing -/

theorem step_of_unfetched {e : Failure} (hrun : c.machine.halted = false)
    (hfetch : Machine.fetch c.machine = .error e m) :
    step c = (c.withMachine m).abort { pc := c.machine.pc, before := c.snapshot? } e := by
  simp only [step, hrun, hfetch, Bool.false_eq_true, if_false]

theorem step_of_undecoded {e : Failure} (hrun : c.machine.halted = false) (hfetch : Machine.fetch c.machine = .ok w m)
    (hdecode : Decoder.standard.decode w.toNat = .error e) :
    step c = (c.withMachine m).abort { pc := c.machine.pc, before := c.snapshot?, word := some w } e := by
  simp only [step, hrun, hfetch, hdecode, Bool.false_eq_true, if_false]

theorem step_of_decoded {decoded : Decoded} (hrun : c.machine.halted = false)
    (hfetch : Machine.fetch c.machine = .ok w m) (hdecode : Decoder.standard.decode w.toNat = .ok decoded) :
    step c =
      (c.withMachine m).executeDecoded { pc := c.machine.pc, before := c.snapshot?, word := some w } decoded := by
  simp only [step, hrun, hfetch, hdecode, Bool.false_eq_true, if_false]

end Cpu

namespace Rig.Kept

variable {δ ρ : Type} [Device δ] {I : Rig δ ρ → Prop} (hI : Kept I)
include hI

theorem abort (p : Cpu.Progress) (e : Failure) :
    Act.Keeps (fun c : Cpu δ ρ => I c.rig) fun c => c.abort p e := by
  intro c h
  cases e with
  | fault f =>
    simp only [Act.after, Cpu.abort, Cpu.rig_keep]
    exact hI.withMachine _ _ h
  | halted reason => exact h
  | mishap m => exact h

variable [RandomSource ρ]

theorem executeDecoded (p : Cpu.Progress) (decoded : Decoded)
    (hdraw : decoded.instruction.op = .random → Act.Keeps I draw) :
    Act.Keeps (fun c : Cpu δ ρ => I c.rig) fun c => c.executeDecoded p decoded := by
  intro c h
  have hrig := hI.execute decoded.instruction.op decoded.args hdraw c.rig h
  cases hexecute : Rig.execute decoded.instruction.op decoded.args c.rig with
  | ok _ rig =>
    rw [Act.after_of_ok hexecute] at hrig
    simp only [Act.after, Cpu.executeDecoded, Cpu.note, hexecute, Cpu.complete, Cpu.rig_keep]
    exact hrig
  | error e rig =>
    rw [Act.after_of_error hexecute] at hrig
    have habort := hI.abort { p with decoded := some decoded } e { c.note (.executing p.pc decoded) with rig } hrig
    simpa only [Act.after, Cpu.executeDecoded, Cpu.note, hexecute] using habort

/-- **What the world outside keeps, a step keeps**, whatever the machine and however the step ends. -/
theorem after_step {c : Cpu δ ρ} (hdraw : c.machine.drawsNumber = true → Act.Keeps I draw) (h : I c.rig) :
    I (Cpu.step.after c).rig := by
  by_cases hhalted : c.machine.halted = true
  · rwa [Act.after_of_error (Cpu.step_halted hhalted)]
  have hrun : c.machine.halted = false := by simpa using hhalted
  cases hfetch : Machine.fetch c.machine with
  | error e m =>
    simp only [Act.after, Cpu.step_of_unfetched hrun hfetch]
    exact hI.abort _ e (c.withMachine m) (hI.withMachine _ m h)
  | ok w m =>
    cases hdecode : Decoder.standard.decode w.toNat with
    | error e =>
      simp only [Act.after, Cpu.step_of_undecoded hrun hfetch hdecode]
      exact hI.abort _ e (c.withMachine m) (hI.withMachine _ m h)
    | ok decoded =>
      have hrandom : decoded.instruction.op = .random → Act.Keeps I draw := by
        intro hop
        obtain ⟨⟨hfirst, -⟩, -⟩ := Decoder.has_of_decode hdecode
        rw [hop] at hfirst
        exact hdraw (by simpa [Machine.drawsNumber, Machine.fetched?_of_fetch hrun hfetch, Op.family] using hfirst)
      simp only [Act.after, Cpu.step_of_decoded hrun hfetch hdecode]
      exact hI.executeDecoded _ decoded hrandom (c.withMachine m) (hI.withMachine _ m h)

theorem step (hdraw : Act.Keeps I draw) : Act.Keeps (fun c : Cpu δ ρ => I c.rig) Cpu.step := fun _ h =>
  hI.after_step (fun _ => hdraw) h

end Rig.Kept

end Chip8
