import Chip8.Proofs.Display.Pixels
import Chip8.Proofs.Rig.Likeness

/-!
# Rigs side by side

Two rigs with the same machine and the same picture may have any keypads and any random sources. They stay side by side
under every operation but the four that ask for keys or for a random number. Main statement: `Abreast.execute`.
-/

namespace Chip8

open Act

/-- Machines that are equal are alike, and so is what becomes of them. -/
theorem Machine.likeness_eq : Machine.Likeness Eq where
  memory h := h ▸ rfl
  registers h := h ▸ rfl
  index h := h ▸ rfl
  pc h := h ▸ rfl
  withMemory _ h := h ▸ rfl
  withRegisters _ h := h ▸ rfl
  withIndex _ h := h ▸ rfl
  withPc _ h := h ▸ rfl
  withDelay _ h := h ▸ rfl
  withSound _ h := h ▸ rfl
  counted h := h ▸ rfl

theorem Act.respects_eq {σ α : Type} (act : Act σ α) : Respects Eq act := by
  rintro s _ rfl
  cases act s with
  | ok a t => exact .ok a rfl
  | error e t => exact .error e rfl

namespace Rig

variable {ρ : Type}

/-- Rigs with the same machine and the same picture. Keypads and random sources may be any. -/
structure Abreast (r s : Rig FrameBuffer ρ) : Prop where
  machine : r.machine = s.machine
  picture : r.device.SamePicture s.device

theorem Abreast.coupling : Coupling Eq (Abreast : Rig FrameBuffer ρ → Rig FrameBuffer ρ → Prop) where
  machine h := h.machine
  withMachine h hmachine := ⟨hmachine, h.picture⟩
  width h := h.picture.width
  height h := h.picture.height
  clearDisplay := respects_modify fun _ _ h => ⟨h.machine, h.picture.clear⟩
  turnPixel := by
    intro x y r s h
    rcases h.picture.drawPixel x y 1 with ⟨hit, f, g, hf, hg, hpicture⟩ | ⟨m, hf, hg⟩
    · have hr : Rig.turnPixel x y r = .ok hit { r with device := f } := by simp [Rig.turnPixel, Device.draw, hf]
      have hs : Rig.turnPixel x y s = .ok hit { s with device := g } := by simp [Rig.turnPixel, Device.draw, hg]
      rw [hr, hs]
      exact .ok hit ⟨h.machine, hpicture⟩
    · have hr : Rig.turnPixel x y r = .error (.mishap m) r := by simp [Rig.turnPixel, Device.draw, hf]
      have hs : Rig.turnPixel x y s = .error (.mishap m) s := by simp [Rig.turnPixel, Device.draw, hg]
      rw [hr, hs]
      exact .error _ h

end Rig

/-- The operations that ask for keys or for a random number. -/
def Op.asks : Op → Bool
  | skipKey | skipNoKey | awaitKey | random => true
  | _ => false

theorem Rig.Abreast.execute {ρ : Type} [RandomSource ρ] {op : Op} (hop : op.asks = false) (args : List Int) :
    Respects Abreast (execute op args : Act (Rig FrameBuffer ρ) Unit) := by
  refine coupling.execute Machine.likeness_eq (fun _ => respects_eq _) (respects_eq _) (fun _ _ => respects_eq _)
    ?_ ?_ ?_ args
  · rintro (rfl | rfl) <;> cases hop
  · rintro rfl
    cases hop
  · rintro rfl
    cases hop

end Chip8
