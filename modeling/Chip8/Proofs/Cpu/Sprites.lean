import Chip8.Proofs.Cpu.Execution
import Chip8.Proofs.Display.Coverage
import Mathlib.Data.List.ProdSigma
import Mathlib.Data.Nat.ModEq

/-!
# Sprites on a frame buffer

DXYN turns over the pixels that the set bits of its sprite come to, wrapped round the edges of the display. On a display
narrower than eight pixels, or lower than the sprite, several bits may come to one pixel; `Machine.coverage` counts
them. The corner is read before the flag is cleared, so the flag register may hold a coordinate. Main statement:
`sprite_covers`.
-/

namespace Chip8

namespace Machine

variable {m : Machine} {width height : Nat}

/-- Row and column of every bit that is set in a sprite of so many rows at the index register. -/
def spriteBits (m : Machine) (rows : Nat) : List (Nat × Nat) :=
  (List.range rows ×ˢ List.range 8).filter fun (row, column) =>
    (m.byteAt (m.index.toNat + row)).toNat.testBit (7 - column)

/-- The pixel that a bit of a sprite comes to, with the corner of the sprite at a place. -/
def bitPlace (width height left top : Nat) : Nat × Nat → Nat × Nat
  | (row, column) => ((left + column) % width, (top + row) % height)

/-- How many of the bits that are set come to a pixel. -/
def coverage (m : Machine) (width height left top rows : Nat) (p : Nat × Nat) : Nat :=
  (m.spriteBits rows).countP fun bit => p = bitPlace width height left top bit

theorem coverage_eq (m : Machine) (width height left top rows : Nat) :
    m.coverage width height left top rows = ((m.spriteBits rows).map (bitPlace width height left top)).count := by
  funext p
  rw [List.count_eq_countP, List.countP_map, coverage]
  refine List.countP_congr fun bit _ => ?_
  simp only [Function.comp_apply, beq_iff_eq, decide_eq_true_eq]
  exact eq_comm

theorem mem_spriteBits {rows : Nat} {bit : Nat × Nat} (h : bit ∈ m.spriteBits rows) : bit.1 < rows ∧ bit.2 < 8 := by
  have hpair := List.pair_mem_product.1 (List.mem_filter.1 h).1
  exact ⟨List.mem_range.1 hpair.1, List.mem_range.1 hpair.2⟩

theorem eq_of_add_mod {a i j size : Nat} (hi : i < size) (hj : j < size) (h : (a + i) % size = (a + j) % size) :
    i = j :=
  Nat.ModEq.eq_of_lt_of_lt (Nat.ModEq.add_left_cancel' a h) hi hj

/-- On a display that has room for it no two bits of a sprite come to one pixel. -/
theorem coverage_le_one (hwidth : 8 ≤ width) {rows : Nat} (hheight : rows ≤ height) (left top : Nat) (p : Nat × Nat) :
    m.coverage width height left top rows p ≤ 1 := by
  have hbits : (m.spriteBits rows).Nodup := (List.nodup_range.product List.nodup_range).filter _
  have hplaces : ((m.spriteBits rows).map (bitPlace width height left top)).Nodup := by
    refine hbits.map_on fun a ha b hb hplace => ?_
    obtain ⟨harow, hacolumn⟩ := mem_spriteBits ha
    obtain ⟨hbrow, hbcolumn⟩ := mem_spriteBits hb
    obtain ⟨hx, hy⟩ := Prod.mk.inj hplace
    exact Prod.ext (eq_of_add_mod (by omega) (by omega) hy) (eq_of_add_mod (by omega) (by omega) hx)
  rw [coverage_eq]
  exact List.nodup_iff_count_le_one.1 hplaces p

end Machine

namespace Rig

variable {ρ : Type} {width height : Nat}

/-- The places of a sprite are those of its bits. -/
theorem spritePlaces_eq_map (m : Machine) (left top : Int) (rows : Nat) :
    spritePlaces m left top 0 rows =
      (m.spriteBits rows).map fun (bit : Nat × Nat) => (left + bit.2, top + bit.1) := by
  rw [spritePlaces_eq, ← List.range_eq_range', Machine.spriteBits]
  simp only [SProd.sprod, List.product, List.filter_flatMap, List.map_flatMap, List.filter_map, List.map_map,
    linePlaces]
  rfl

/-- The pixel that a place comes to, wrapped round the edges. -/
def wrapped (width height : Nat) (place : Int × Int) : Nat × Nat :=
  ((place.1 % width).toNat, (place.2 % height).toNat)

/-- Turning pixels over on a frame buffer. -/
theorem turnAll_frameBuffer {f : FrameBuffer} (hf : f.OfSize width height) (hwidth : 1 ≤ width) (hheight : 1 ≤ height)
    (places : List (Int × Int)) (hit : Bool) :
    turnAll places hit f =
      .ok (hit || f.putsOut (places.map (wrapped width height))) (f.drawnAll (places.map (wrapped width height))) := by
  induction places generalizing f hit with
  | nil => simp [turnAll, FrameBuffer.putsOut, FrameBuffer.drawnAll]
  | cons place rest ih =>
    have hx := Int.emod_nonneg place.1 (show (width : Int) ≠ 0 by omega)
    have hy := Int.emod_nonneg place.2 (show (height : Int) ≠ 0 by omega)
    have hinside : f.inside (place.1 % width) (place.2 % height) = true := by
      rw [FrameBuffer.inside_iff, hf.width, hf.height]
      exact ⟨⟨hx, Int.emod_lt_of_pos _ (by omega)⟩, hy, Int.emod_lt_of_pos _ (by omega)⟩
    have hturn : turnWrapped place f =
        .ok (f.pixel (wrapped width height place).1 (wrapped width height place).2)
          (f.drawn (wrapped width height place)) := by
      have hsize : Device.width f = width ∧ Device.height f = height := ⟨hf.width, hf.height⟩
      have hdraw : Device.draw f (place.1 % width) (place.2 % height) 1 = _ :=
        FrameBuffer.drawPixel_eq hinside (by decide)
      simp [turnWrapped, turn, hsize, wrap_eq (show (1 : Int) ≤ width by omega),
        wrap_eq (show (1 : Int) ≤ height by omega), hdraw, wrapped, FrameBuffer.drawn]
    rw [turnAll, Act.bind_run, hturn, onward_ok, ih (hf.drawn _), List.map_cons, FrameBuffer.putsOut,
      FrameBuffer.drawnAll, Bool.or_assoc]

/-- Wrapped round the edges, the places of a sprite are those of its bits. -/
theorem map_wrapped_spritePlaces (m : Machine) (width height left top rows : Nat) :
    (spritePlaces m left top 0 rows).map (wrapped width height) =
      (m.spriteBits rows).map (Machine.bitPlace width height left top) := by
  rw [spritePlaces_eq_map, List.map_map]
  refine List.map_congr_left fun bit _ => ?_
  simp only [Function.comp_apply, wrapped, Machine.bitPlace, ← Int.natCast_add, ← Int.natCast_emod, Int.toNat_natCast]

variable [RandomSource ρ] {r : Rig FrameBuffer ρ}

/-- What a sprite is told by a frame buffer. -/
theorem consult_draw_frameBuffer (hdevice : r.device.OfSize width height) (hwidth : 1 ≤ width) (hheight : 1 ≤ height)
    (w : UInt16) :
    let turns := (r.machine.spriteBits (Word.n w)).map
      (Machine.bitPlace width height (r.machine.reg (Word.x w)).toNat (r.machine.reg (Word.y w)).toNat)
    consult w .draw r = .ok { hit := r.device.putsOut turns } (devicePart.put r (r.device.drawnAll turns)) := by
  simp only [consult, Act.bind_run, Act.get_run, onward_ok, Act.within_run, devicePart_get,
    turnAll_frameBuffer hdevice hwidth hheight, map_wrapped_spritePlaces, Part.back_ok, Act.pure_run, Bool.false_or]

/-- The turns of a sprite cover the display as its bits do. -/
theorem covered_sprite {f : FrameBuffer} (hf : f.OfSize width height) (hwidth : 1 ≤ width) (hheight : 1 ≤ height)
    (m : Machine) (left top rows : Nat) :
    let turns := (m.spriteBits rows).map (Machine.bitPlace width height left top)
    f.Covered (f.drawnAll turns) width height (m.coverage width height left top rows) (f.putsOut turns) := by
  rw [Machine.coverage_eq]
  refine FrameBuffer.covered_drawnAll hf fun p hp => ?_
  obtain ⟨bit, -, rfl⟩ := List.mem_map.1 hp
  exact FrameBuffer.mem_places.2 ⟨Nat.mod_lt _ hwidth, Nat.mod_lt _ hheight⟩

/-- A sprite leaves the flag that its turns end with, and moves on. -/
theorem counted_effect_draw (m : Machine) (w : UInt16) (flag : Bool) :
    (m.effect w { hit := flag } .draw).counted =
      { m with
        registers := m.registers.setIfInBounds 15 (if flag then 1 else 0)
        pc := m.pc + 2
        cycles := m.cycles + 1 } := by
  simp only [Machine.effect, Machine.flagged, Machine.withReg, Machine.moved, Machine.counted,
    Array.setIfInBounds_setIfInBounds]

/-- **Sprites.** Every pixel of the display is inverted that an odd number of bits comes to, and the flag tells whether
a lit pixel was covered at all or any pixel twice. On the display of the machine no pixel is covered twice. -/
theorem sprite_covers (hvalid : r.machine.validate = true) (hdevice : r.device.OfSize width height)
    (hwidth : 1 ≤ width) (hheight : 1 ≤ height) {x y n : Nat} (hx : x < 16) (hy : y < 16) (hn : n < 16)
    (hlast : n = 0 ∨ r.machine.index + n - 1 ≤ 0xFFF) :
    let count := r.machine.coverage width height (r.machine.reg x).toNat (r.machine.reg y).toNat n
    ∃ (flag : Bool) (device : FrameBuffer),
      Executes (.ofNat (0xD000 + 0x100 * x + 0x10 * y + n)) r
        { r with
          machine :=
            { r.machine with
              registers := r.machine.registers.setIfInBounds 15 (if flag then 1 else 0)
              pc := r.machine.pc + 2
              cycles := r.machine.cycles + 1 }
          device } ∧
      r.device.Covered device width height count flag ∧
      (width = 64 → height = 32 →
        (∀ p, count p ≤ 1) ∧ (flag = true ↔ ∃ p, r.device.pixel p.1 p.2 = true ∧ 1 ≤ count p)) := by
  intro count
  have hm := (Machine.validate_iff r.machine).1 hvalid
  have hword : 0xD000 + 0x100 * x + 0x10 * y + n < 65536 := by omega
  have hop : Op.ofWord? (.ofNat (0xD000 + 0x100 * x + 0x10 * y + n)) = some .draw :=
    Op.ofWord?_ofNat hword rfl (by omega) (by omega)
  obtain ⟨hwx, hwy, hwn⟩ : Word.x (.ofNat (0xD000 + 0x100 * x + 0x10 * y + n)) = x ∧
      Word.y (.ofNat (0xD000 + 0x100 * x + 0x10 * y + n)) = y ∧
      Word.n (.ofNat (0xD000 + 0x100 * x + 0x10 * y + n)) = n := by
    rw [Word.x, Word.y, Word.n, UInt16.toNat_ofNat_of_lt' hword]
    omega
  have hobstacle : r.machine.obstacle? (.ofNat (0xD000 + 0x100 * x + 0x10 * y + n)) .draw = none := by
    simp only [Machine.obstacle?, hwn]
    exact if_neg (by omega)
  have hconsult := consult_draw_frameBuffer hdevice hwidth hheight (.ofNat (0xD000 + 0x100 * x + 0x10 * y + n))
  rw [hwx, hwy, hwn] at hconsult
  have hexecutes := executes_of_reply hm hop hobstacle hconsult
  have hcovered := covered_sprite hdevice hwidth hheight r.machine (r.machine.reg x).toNat (r.machine.reg y).toNat n
  rw [counted_effect_draw] at hexecutes
  refine ⟨_, _, hexecutes, hcovered, ?_⟩
  rintro rfl rfl
  have hone : ∀ p, count p ≤ 1 := Machine.coverage_le_one (by decide) (by omega) _ _
  exact ⟨hone, hcovered.flag_iff_lit hone⟩

/-- A rig with a sprite of one full row, and a dark display of three columns. The flag register holds a coordinate. -/
def folding : Rig FrameBuffer Cycle where
  machine :=
    { memory := (Array.replicate 4096 0).setIfInBounds 0x300 0xFF
      registers := (Array.replicate 16 0).setIfInBounds 15 1
      index := 0x300 }
  device := FrameBuffer.blank 3 2
  random := { numbers := #[7] }

/-- Of the eight bits two come to the first column and three to each of the others, so pixels are put out on a display
that was dark. -/
theorem sprite_covers_folding :
    ∃ r, Executes 0xDF01 folding r ∧ r.machine.reg 15 = 1 ∧ r.device.draws = 8 ∧
      r.device.pixel 0 0 = false ∧ r.device.pixel 1 0 = true ∧ r.device.pixel 2 0 = true := by
  have hvalid : folding.machine.validate = true := by decide +kernel
  have hsize : folding.device.OfSize 3 2 := ⟨FrameBuffer.shaped_blank 3 2, rfl, rfl⟩
  obtain ⟨flag, device, hexecutes, hcovered, -⟩ :=
    sprite_covers (x := 15) (y := 0) (n := 1) hvalid hsize (by decide) (by decide) (by decide) (by decide) (by decide)
      (.inr (by decide))
  have hflag : flag = true := hcovered.flag_iff.2 ⟨(0, 0), .inr (by decide +kernel)⟩
  subst hflag
  have hregister : (folding.machine.registers.setIfInBounds 15 1).getD 15 0 = 1 := by decide +kernel
  refine ⟨_, hexecutes, hregister, hcovered.draws.trans (by decide +kernel), ?_, ?_, ?_⟩
  · exact (hcovered.pixel (0, 0) (by decide)).trans (by decide +kernel)
  · exact (hcovered.pixel (1, 0) (by decide)).trans (by decide +kernel)
  · exact (hcovered.pixel (2, 0) (by decide)).trans (by decide +kernel)

end Rig

end Chip8
