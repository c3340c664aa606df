import Chip8.Proofs.Cpu.Sprites

/-!
# Sprites over one another

A sprite turns pixels over, so sprites on one another add up: whatever is drawn, in the end a pixel is inverted if the
number of bits that came to it is odd (`Drawn.pixel`). It follows that a sprite drawn twice leaves no trace, and that
the order of sprites does not matter. Flags are another matter, since they tell what was lit at the time. Main
statement: `sprites_overlay`.
-/

namespace Chip8

/-- The word of DXYN. -/
def drawWord (x y n : Nat) : UInt16 := .ofNat (0xD000 + 0x100 * x + 0x10 * y + n)

/-! ## Sprites by themselves -/

/-- A sprite at its place: the column and the row of its corner, and its lines of eight pixels from the top. -/
structure Sprite where
  left : UInt8
  top : UInt8
  lines : List UInt8
  deriving DecidableEq, Repr

namespace Sprite

/-- Row and column of every bit that is set. -/
def bits (s : Sprite) : List (Nat × Nat) :=
  (List.range s.lines.length ×ˢ List.range 8).filter fun (row, column) =>
    (s.lines.getD row 0).toNat.testBit (7 - column)

/-- How many of the bits that are set come to a pixel. -/
def coverage (s : Sprite) (width height : Nat) (p : Nat × Nat) : Nat :=
  s.bits.countP fun bit => p = Machine.bitPlace width height s.left.toNat s.top.toNat bit

end Sprite

variable {m : Machine} {x y n width height : Nat} {s : Sprite} {p : Nat × Nat}

/-- A pixel that bits come to is one of the display. -/
theorem Sprite.mem_places (hwidth : 1 ≤ width) (hheight : 1 ≤ height) (h : 1 ≤ s.coverage width height p) :
    p ∈ FrameBuffer.places width height := by
  obtain ⟨⟨row, column⟩, -, hp⟩ := List.countP_pos_iff.1 h
  obtain rfl : p = _ := by simpa using hp
  exact FrameBuffer.mem_places.2 ⟨Nat.mod_lt _ hwidth, Nat.mod_lt _ hheight⟩

namespace Machine

/-- The sprite of so many lines at the index register, with its corner where two registers say. -/
def sprite (m : Machine) (x y n : Nat) : Sprite where
  left := m.reg x
  top := m.reg y
  lines := (List.range n).map fun row => m.byteAt (m.index.toNat + row)

theorem bits_sprite (m : Machine) (x y n : Nat) : (m.sprite x y n).bits = m.spriteBits n := by
  simp only [Sprite.bits, sprite, List.length_map, List.length_range, spriteBits]
  refine List.filter_congr fun bit hmem => ?_
  have hrow : bit.1 < n := List.mem_range.1 (List.pair_mem_product.1 hmem).1
  simp [List.getElem?_range hrow]

theorem coverage_sprite (m : Machine) (x y n width height : Nat) :
    (m.sprite x y n).coverage width height = m.coverage width height (m.reg x).toNat (m.reg y).toNat n := by
  funext p
  rw [Sprite.coverage, bits_sprite, coverage]
  rfl

/-- On a display that has room for it no two bits of a sprite come to one pixel. -/
theorem coverage_sprite_le_one (hwidth : 8 ≤ width) (hheight : n ≤ height) (p : Nat × Nat) :
    (m.sprite x y n).coverage width height p ≤ 1 := by
  rw [coverage_sprite]
  exact coverage_le_one hwidth hheight _ _ p

/-- The machine has its cells, and so many bytes of memory at the index register. -/
structure CanDraw (m : Machine) (x y n : Nat) : Prop where
  registers : m.registers.size = 16
  memory : m.memory.size = 4096
  x_lt : x < 16
  y_lt : y < 16
  n_lt : n < 16
  index_nonneg : 0 ≤ m.index
  last : n = 0 ∨ m.index + n - 1 ≤ 0xFFF

theorem Sound.canDraw (hm : m.Sound) (hx : x < 16) (hy : y < 16) (hn : n < 16)
    (hlast : n = 0 ∨ m.index + n - 1 ≤ 0xFFF) : m.CanDraw x y n :=
  ⟨hm.registers, hm.memory, hx, hy, hn, hm.index_nonneg, hlast⟩

/-- The machine after a sprite. -/
def afterSprite (m : Machine) (flag : Bool) : Machine :=
  { m with
    registers := m.registers.setIfInBounds 15 (if flag then 1 else 0)
    pc := m.pc + 2
    cycles := m.cycles + 1 }

theorem reg_afterSprite (hm : m.registers.size = 16) (flag : Bool) (i : Nat) :
    (m.afterSprite flag).reg i = if 15 = i then if flag then 1 else 0 else m.reg i :=
  reg_withReg hm (by decide) _ i

theorem reg_flag_afterSprite (hm : m.CanDraw x y n) (flag : Bool) :
    (m.afterSprite flag).reg 15 = if flag then 1 else 0 :=
  (reg_afterSprite hm.registers flag 15).trans (if_pos rfl)

theorem CanDraw.afterSprite (hm : m.CanDraw x y n) (flag : Bool) : (m.afterSprite flag).CanDraw x y n :=
  { hm with registers := Array.size_setIfInBounds.trans hm.registers }

/-- The flag is in no register that a sprite's corner is read from, so the sprite is still there. -/
theorem sprite_afterSprite (hm : m.CanDraw x y n) (hx : x < 15) (hy : y < 15) (flag : Bool) :
    (m.afterSprite flag).sprite x y n = m.sprite x y n := by
  simp only [sprite, reg_afterSprite hm.registers, if_neg (show ¬ 15 = x by omega), if_neg (show ¬ 15 = y by omega)]
  rfl

end Machine

/-! ## Displays with the same pixels -/

namespace FrameBuffer

variable {f g g' h : FrameBuffer} {count : Nat × Nat → Nat} {flag flag' : Bool}

theorem OfSize.same (hf : f.OfSize width height) (h : f.SamePicture g) : g.OfSize width height :=
  ⟨hf.shaped.same h, h.width.trans hf.width, h.height.trans hf.height⟩

theorem SamePicture.refl (f : FrameBuffer) : f.SamePicture f := ⟨rfl, rfl, rfl⟩

/-- Displays of one size with the same pixels have the same picture. -/
theorem OfSize.samePicture (hf : f.OfSize width height) (hg : g.OfSize width height)
    (hpixel : ∀ p ∈ places width height, g.pixel p.1 p.2 = f.pixel p.1 p.2) : f.SamePicture g := by
  have hwidth := hg.width.trans hf.width.symm
  have hheight := hg.height.trans hf.height.symm
  refine ⟨hwidth, hheight, Array.ext ?_ fun y hy hy' => ?_⟩
  · rw [hg.shaped.size_rows, hf.shaped.size_rows, hheight]
  have hrow := Array.getElem?_eq_getElem hy
  have hrow' := Array.getElem?_eq_getElem hy'
  refine Array.ext ?_ fun x hx hx' => ?_
  · rw [hg.shaped.size_row hrow, hf.shaped.size_row hrow', hwidth]
  have hplace : x < width ∧ y < height := by
    rw [hf.shaped.size_row hrow', hf.width] at hx'
    rw [hf.shaped.size_rows, hf.height] at hy'
    omega
  have hcell := hg.shaped.cell (x := x) (y := y) (by rw [hg.width]; omega) (by rw [hg.height]; omega)
  have hcell' := hf.shaped.cell (x := x) (y := y) (by rw [hf.width]; omega) (by rw [hf.height]; omega)
  rw [hrow, Option.bind_some, Array.getElem?_eq_getElem hx] at hcell
  rw [hrow', Option.bind_some, Array.getElem?_eq_getElem hx', ← hpixel (x, y) (mem_places.2 hplace), ← hcell] at hcell'
  exact (Option.some.inj hcell').symm

/-- **Turned over twice, pixels are as they were.** -/
theorem Covered.twice (hf : f.OfSize width height) (h₁ : f.Covered g width height count flag) (hsame : g.SamePicture g')
    (h₂ : g'.Covered h width height count flag') : f.SamePicture h := by
  refine hf.samePicture h₂.size fun p hp => ?_
  rw [h₂.pixel p hp, hsame.pixel, h₁.pixel p hp, Bool.bne_assoc, bne_self_eq_false, Bool.bne_false]

/-- Where no pixel has two turns, the second time the pixels are put out that were dark at first. -/
theorem Covered.flag_iff_dark (h₁ : f.Covered g width height count flag) (hsame : g.SamePicture g')
    (h₂ : g'.Covered h width height count flag') (hone : ∀ p, count p ≤ 1)
    (hplaces : ∀ p, 1 ≤ count p → p ∈ places width height) :
    flag' = true ↔ ∃ p, f.pixel p.1 p.2 = false ∧ 1 ≤ count p := by
  rw [h₂.flag_iff_lit hone]
  refine exists_congr fun p => and_congr_left fun hcount => ?_
  have hodd : count p % 2 = 1 := by
    have := hone p
    omega
  rw [hsame.pixel, h₁.pixel p (hplaces p hcount), hodd]
  simp

end FrameBuffer

/-! ## Drawing -/

namespace Rig

variable {ρ : Type} [RandomSource ρ] {r r' : Rig FrameBuffer ρ}

/-- **A sprite in memory is drawn**, also by a machine that is not sound in other respects. -/
theorem executes_draw (hm : r.machine.CanDraw x y n) (hdevice : r.device.OfSize width height) (hwidth : 1 ≤ width)
    (hheight : 1 ≤ height) :
    ∃ (flag : Bool) (device : FrameBuffer),
      Executes (drawWord x y n) r { r with machine := r.machine.afterSprite flag, device } ∧
        r.device.Covered device width height ((r.machine.sprite x y n).coverage width height) flag := by
  have hx := hm.x_lt
  have hy := hm.y_lt
  have hn := hm.n_lt
  have hlast := hm.last
  have hword : 0xD000 + 0x100 * x + 0x10 * y + n < 65536 := by omega
  have hop : Op.ofWord? (drawWord x y n) = some .draw := Op.ofWord?_ofNat hword rfl (by omega) (by omega)
  obtain ⟨hwx, hwy, hwn⟩ :
      Word.x (drawWord x y n) = x ∧ Word.y (drawWord x y n) = y ∧ Word.n (drawWord x y n) = n := by
    rw [Word.x, Word.y, Word.n, drawWord, UInt16.toNat_ofNat_of_lt' hword]
    omega
  have hfree : ¬ (Word.n (drawWord x y n) ≠ 0 ∧ 0xFFF < r.machine.index + Word.n (drawWord x y n) - 1) := by
    rw [hwn]
    omega
  have hobstacle : r.machine.obstacle? (drawWord x y n) .draw = none := by
    simp only [Machine.obstacle?, if_neg hfree]
  have hconsult := consult_draw_frameBuffer hdevice hwidth hheight (drawWord x y n)
  have hperform : perform .draw (Op.args .draw (drawWord x y n)) r = ending (drawWord x y n) .draw r :=
    drawSprite_of_none hm.registers hm.memory hm.index_nonneg hfree
  have hcovered := covered_sprite hdevice hwidth hheight r.machine (r.machine.reg x).toNat (r.machine.reg y).toNat n
  rw [← Machine.coverage_sprite] at hcovered
  rw [hwx, hwy, hwn] at hconsult
  have hexecute := execute_of_performed hperform hobstacle hconsult
  rw [counted_effect_draw] at hexecute
  exact ⟨_, _, .of_executed hm.memory ((executeWord_eq hop r).trans hexecute), hcovered⟩

/-- Sprites drawn one after the other. Between two of them anything may happen that leaves the picture as it is. -/
inductive Drawn (ρ : Type) [RandomSource ρ] : List Sprite → FrameBuffer → FrameBuffer → Prop
  | nil {f g : FrameBuffer} (hsame : f.SamePicture g) : Drawn ρ [] f g
  | cons {x y n : Nat} {sprites : List Sprite} {f g : FrameBuffer} {r r' : Rig FrameBuffer ρ}
    (hsame : f.SamePicture r.device) (hm : r.machine.CanDraw x y n) (hdraw : Executes (drawWord x y n) r r')
    (hrest : Drawn ρ sprites r'.device g) : Drawn ρ (r.machine.sprite x y n :: sprites) f g

variable {sprites sprites' : List Sprite} {f g h : FrameBuffer}

theorem odd_add (a b : Nat) : decide ((a + b) % 2 = 1) = (decide (a % 2 = 1) != decide (b % 2 = 1)) := by
  rcases Nat.mod_two_eq_zero_or_one a with ha | ha <;> rcases Nat.mod_two_eq_zero_or_one b with hb | hb <;>
    simp [Nat.add_mod, ha, hb]

/-- By induction on the sprites: **a pixel is inverted if the number of bits that came to it is odd**. -/
theorem Drawn.pixel (hdrawn : Drawn ρ sprites f g) (hf : f.OfSize width height) (hwidth : 1 ≤ width)
    (hheight : 1 ≤ height) :
    g.OfSize width height ∧ ∀ p ∈ FrameBuffer.places width height, g.pixel p.1 p.2 =
      (f.pixel p.1 p.2 != decide ((sprites.map fun s => s.coverage width height p).sum % 2 = 1)) := by
  induction hdrawn with
  | nil hsame => exact ⟨hf.same hsame, fun p _ => by simp [hsame.pixel]⟩
  | cons hsame hm hdraw hrest ih =>
    obtain ⟨flag, device, hexecutes, hcovered⟩ := executes_draw hm (hf.same hsame) hwidth hheight
    obtain rfl := hdraw.unique hexecutes
    obtain ⟨hsize, hpixel⟩ := ih hcovered.size
    refine ⟨hsize, fun p hp => ?_⟩
    rw [hpixel p hp, hcovered.pixel p hp, hsame.pixel, List.map_cons, List.sum_cons, odd_add, Bool.bne_assoc]

/-- **The order of sprites does not matter.** -/
theorem Drawn.perm (hperm : sprites.Perm sprites') (hg : Drawn ρ sprites f g) (hh : Drawn ρ sprites' f h)
    (hf : f.OfSize width height) (hwidth : 1 ≤ width) (hheight : 1 ≤ height) : g.SamePicture h := by
  obtain ⟨hgsize, hgpixel⟩ := hg.pixel hf hwidth hheight
  obtain ⟨hhsize, hhpixel⟩ := hh.pixel hf hwidth hheight
  refine hgsize.samePicture hhsize fun p hp => ?_
  rw [hgpixel p hp, hhpixel p hp, (hperm.map _).sum_eq]

/-- A machine with a sprite at the start of its memory, and the corner in its first two registers. -/
def machineFor (s : Sprite) : Machine where
  memory := (s.lines ++ List.replicate (4096 - s.lines.length) 0).toArray
  registers := (s.left :: s.top :: List.replicate 14 0).toArray
  index := 0

theorem canDraw_machineFor (hs : s.lines.length < 16) : (machineFor s).CanDraw 0 1 s.lines.length where
  registers := by simp [machineFor]
  memory := by simp [machineFor]; omega
  x_lt := by decide
  y_lt := by decide
  n_lt := hs
  index_nonneg := le_rfl
  last := by simp [machineFor]; omega

theorem sprite_machineFor (s : Sprite) : (machineFor s).sprite 0 1 s.lines.length = s := by
  have hlines : ((List.range s.lines.length).map fun row => (machineFor s).byteAt (0 + row)) = s.lines := by
    refine List.ext_getElem (by simp) fun i hi hi' => ?_
    simp [machineFor, Machine.byteAt, List.getElem?_append_left hi', List.getElem?_eq_getElem hi']
  exact congrArg (Sprite.mk s.left s.top) hlines

theorem exists_drawn (random : ρ) (hsprites : ∀ s ∈ sprites, s.lines.length < 16) (hf : f.OfSize width height)
    (hwidth : 1 ≤ width) (hheight : 1 ≤ height) : ∃ g, Drawn ρ sprites f g := by
  induction sprites generalizing f with
  | nil => exact ⟨f, .nil (.refl f)⟩
  | cons s sprites ih =>
    obtain ⟨hs, hrest⟩ := List.forall_mem_cons.1 hsprites
    have hm := canDraw_machineFor hs
    let r : Rig FrameBuffer ρ := { machine := machineFor s, device := f, random }
    obtain ⟨flag, device, hexecutes, hcovered⟩ := executes_draw (r := r) hm hf hwidth hheight
    obtain ⟨g, hg⟩ := ih hrest hcovered.size
    have hdrawn := Drawn.cons (.refl f) hm hexecutes hg
    exact ⟨g, sprite_machineFor s ▸ hdrawn⟩

/-- The byte is one if something is so, and zero if it is not. -/
def Tells (v : UInt8) (P : Prop) : Prop := (v = 1 ∧ P) ∨ (v = 0 ∧ ¬ P)

theorem tells_flag {flag : Bool} {P : Prop} (h : flag = true ↔ P) : Tells (if flag then 1 else 0) P := by
  cases flag with
  | true => exact .inl ⟨rfl, h.1 rfl⟩
  | false => exact .inr ⟨rfl, fun hP => absurd (h.2 hP) (by decide)⟩

/-- **Sprites over one another.** The same sprite drawn twice leaves the display as it was, whatever has happened in
between, as long as sprite and picture were left alone. On a display that has room for it the flag tells after the first
time whether a lit pixel was covered, and after the second time whether a dark one was. Of sprites drawn one after the
other only the bits count that come to each pixel, so they leave the same picture in every order. -/
theorem sprites_overlay (hvalid : r.machine.validate = true) (hdevice : r.device.OfSize width height)
    (hwidth : 1 ≤ width) (hheight : 1 ≤ height) :
    (∀ x y n : Nat, x < 15 → y < 15 → n < 16 → (n = 0 ∨ r.machine.index + n - 1 ≤ 0xFFF) →
      let s := r.machine.sprite x y n
      ∃ r₁, Executes (drawWord x y n) r r₁ ∧ r₁.machine.CanDraw x y n ∧ r₁.machine.sprite x y n = s ∧
        ∀ r₂ : Rig FrameBuffer ρ, r₂.machine.CanDraw x y n → r₂.machine.sprite x y n = s →
          r₁.device.SamePicture r₂.device →
          ∃ r₃, Executes (drawWord x y n) r₂ r₃ ∧ r.device.SamePicture r₃.device ∧
            (8 ≤ width → 15 ≤ height →
              Tells (r₁.machine.reg 15) (∃ p, r.device.pixel p.1 p.2 = true ∧ 1 ≤ s.coverage width height p) ∧
              Tells (r₃.machine.reg 15) (∃ p, r.device.pixel p.1 p.2 = false ∧ 1 ≤ s.coverage width height p) ∧
              ((∃ p, 1 ≤ s.coverage width height p) →
                (∀ p, 1 ≤ s.coverage width height p → r.device.pixel p.1 p.2 = false) →
                r₁.machine.reg 15 = 0 ∧ r₃.machine.reg 15 = 1))) ∧
      (∀ sprites : List Sprite, (∀ s ∈ sprites, s.lines.length < 16) → ∃ g, Drawn ρ sprites r.device g) ∧
      (∀ (sprites : List Sprite) (g : FrameBuffer), Drawn ρ sprites r.device g →
        ∀ p ∈ FrameBuffer.places width height, g.pixel p.1 p.2 =
          (r.device.pixel p.1 p.2 != decide ((sprites.map fun s => s.coverage width height p).sum % 2 = 1))) ∧
      ∀ (sprites sprites' : List Sprite) (g h : FrameBuffer), sprites.Perm sprites' → Drawn ρ sprites r.device g →
        Drawn ρ sprites' r.device h → g.SamePicture h := by
  refine ⟨fun x y n hx hy hn hlast => ?_, fun sprites hsprites => exists_drawn r.random hsprites hdevice hwidth hheight,
    fun sprites g hg => (hg.pixel hdevice hwidth hheight).2,
    fun sprites sprites' g h hperm hg hh => hg.perm hperm hh hdevice hwidth hheight⟩
  intro s
  have hm := ((Machine.validate_iff r.machine).1 hvalid).canDraw (by omega : x < 16) (by omega : y < 16) hn hlast
  obtain ⟨flag₁, d₁, hexecutes₁, hcovered₁⟩ := executes_draw hm hdevice hwidth hheight
  refine ⟨_, hexecutes₁, hm.afterSprite flag₁, Machine.sprite_afterSprite hm hx hy flag₁, ?_⟩
  intro r₂ hm₂ hsprite hsame
  obtain ⟨flag₃, d₃, hexecutes₃, hcovered₃⟩ := executes_draw hm₂ (hcovered₁.size.same hsame) hwidth hheight
  rw [hsprite] at hcovered₃
  refine ⟨_, hexecutes₃, hcovered₁.twice hdevice hsame hcovered₃, fun hroom hroom' => ?_⟩
  have hone : ∀ p, s.coverage width height p ≤ 1 := Machine.coverage_sprite_le_one hroom (by omega)
  have hlit := hcovered₁.flag_iff_lit hone
  have hdark := hcovered₁.flag_iff_dark hsame hcovered₃ hone fun p => Sprite.mem_places hwidth hheight
  have hreg₁ := Machine.reg_flag_afterSprite hm flag₁
  have hreg₃ := Machine.reg_flag_afterSprite hm₂ flag₃
  refine ⟨hreg₁ ▸ tells_flag hlit, hreg₃ ▸ tells_flag hdark, ?_⟩
  rintro ⟨p, hp⟩ hblank
  have hfirst : flag₁ = false := by
    rw [Bool.eq_false_iff, ne_eq, hlit]
    rintro ⟨q, hq, hcount⟩
    rw [hblank q hcount] at hq
    cases hq
  have hsecond : flag₃ = true := hdark.2 ⟨p, hblank p hp, hp⟩
  rw [hreg₁, hreg₃, hfirst, hsecond]
  exact ⟨rfl, rfl⟩

/-- A rig with a sprite of half a line, and a dark display. -/
def dashed : Rig FrameBuffer Cycle where
  machine := { memory := (Array.replicate 4096 0).setIfInBounds 0x300 0xF0, index := 0x300 }
  device := FrameBuffer.standard
  random := { numbers := #[7] }

/-- Drawn twice, the half line is gone again, and the flag has changed from zero to one. With a full line across its end
it does not matter which of the two comes first. -/
theorem sprites_overlay_dashed :
    (∃ r₁ r₃, Executes (drawWord 0 0 1) dashed r₁ ∧ Executes (drawWord 0 0 1) r₁ r₃ ∧ r₁.machine.reg 15 = 0 ∧
      r₃.machine.reg 15 = 1 ∧ dashed.device.SamePicture r₃.device) ∧
      ∃ g h, Drawn Cycle [⟨0, 0, [0xF0]⟩, ⟨2, 0, [0xFF]⟩] dashed.device g ∧
        Drawn Cycle [⟨2, 0, [0xFF]⟩, ⟨0, 0, [0xF0]⟩] dashed.device h ∧ g.SamePicture h := by
  have hvalid : dashed.machine.validate = true := by decide +kernel
  have hsize : dashed.device.OfSize 64 32 := ⟨FrameBuffer.shaped_blank 64 32, rfl, rfl⟩
  have hcovered : 1 ≤ (dashed.machine.sprite 0 0 1).coverage 64 32 (0, 0) := by decide +kernel
  obtain ⟨htwice, hexists, -, horder⟩ := sprites_overlay hvalid hsize (by decide) (by decide)
  constructor
  · obtain ⟨r₁, hfirst, hm, hsprite, hsecond⟩ :=
      htwice 0 0 1 (by decide) (by decide) (by decide) (.inr (by decide))
    obtain ⟨r₃, hthird, hsame, hflags⟩ := hsecond r₁ hm hsprite (.refl r₁.device)
    obtain ⟨-, -, hblank⟩ := hflags (by decide) (by decide)
    obtain ⟨hzero, hone⟩ := hblank ⟨_, hcovered⟩ fun p _ => FrameBuffer.pixel_of_dark rfl p.1 p.2
    exact ⟨r₁, r₃, hfirst, hthird, hzero, hone, hsame⟩
  · obtain ⟨g, hg⟩ := hexists [⟨0, 0, [0xF0]⟩, ⟨2, 0, [0xFF]⟩] (by decide)
    obtain ⟨h, hh⟩ := hexists [⟨2, 0, [0xFF]⟩, ⟨0, 0, [0xF0]⟩] (by decide)
    exact ⟨g, h, hg, hh, horder _ _ g h (.swap _ _ []) hg hh⟩

end Rig

end Chip8
