import Chip8.Proofs.Display.Pixels
import Mathlib.Algebra.BigOperators.Group.Finset.Piecewise
import Mathlib.Data.Finset.Prod

/-!
# Pixels turned over and over

A frame buffer on which pixels are turned over one after the other. One pixel may have several turns, since a sprite
wider than the display wraps into itself, and whether a turn puts the pixel out depends on the turns before it. In the
end only the number of turns of each pixel matters: a pixel is inverted if it is odd, and some turn has put a pixel out
if and only if a lit pixel has a turn or any pixel has two (`putsOut_iff`). Main statement: `covered_drawnAll`.
-/

namespace Chip8.FrameBuffer

variable {f : FrameBuffer} {width height : Nat}

/-! ## Turns one after the other -/

/-- The display after a turn of the pixel at a place. -/
def drawn (f : FrameBuffer) (p : Nat × Nat) : FrameBuffer :=
  { f.turned p.1 p.2 with draws := f.draws + 1, dirty := true }

/-- The display after turns one after the other. -/
def drawnAll (f : FrameBuffer) : List (Nat × Nat) → FrameBuffer
  | [] => f
  | p :: rest => (f.drawn p).drawnAll rest

/-- Does one of the turns put its pixel out? -/
def putsOut (f : FrameBuffer) : List (Nat × Nat) → Bool
  | [] => false
  | p :: rest => f.pixel p.1 p.2 || (f.drawn p).putsOut rest

/-- A display with as many rows and columns as it says, and these numbers of them. -/
structure OfSize (f : FrameBuffer) (width height : Nat) : Prop where
  shaped : f.Shaped
  width : f.width = width
  height : f.height = height

/-- The places of a display of a size. -/
def places (width height : Nat) : Finset (Nat × Nat) := Finset.range width ×ˢ Finset.range height

theorem mem_places {p : Nat × Nat} : p ∈ places width height ↔ p.1 < width ∧ p.2 < height := by simp [places]

theorem OfSize.drawn (hf : f.OfSize width height) (p : Nat × Nat) : (f.drawn p).OfSize width height where
  shaped := (hf.shaped.turned p.1 p.2).same ⟨rfl, rfl, rfl⟩
  width := hf.width
  height := hf.height

theorem OfSize.drawnAll (hf : f.OfSize width height) (turns : List (Nat × Nat)) :
    (f.drawnAll turns).OfSize width height := by
  induction turns generalizing f with
  | nil => exact hf
  | cons p rest ih => exact ih (hf.drawn p)

/-- A turn inverts its pixel and no other. -/
theorem OfSize.pixel_drawn (hf : f.OfSize width height) {p : Nat × Nat} (hp : p ∈ places width height) (q : Nat × Nat) :
    (f.drawn p).pixel q.1 q.2 = (f.pixel q.1 q.2 != decide (q = p)) := by
  obtain ⟨hx, hy⟩ := mem_places.1 hp
  have hturned := hf.shaped.pixel_turned (x := p.1) (y := p.2) (by rw [hf.width]; omega) (by rw [hf.height]; omega)
    q.1 q.2
  simp only [Prod.ext_iff]
  exact hturned

/-! ## By the number of turns -/

theorem count_turns (p q : Nat × Nat) (rest : List (Nat × Nat)) :
    (p :: rest).count q = rest.count q + if q = p then 1 else 0 := by
  rw [List.count_cons]
  by_cases hq : q = p
  · simp [hq]
  · simp [hq, Ne.symm hq]

/-- A pixel is inverted if the number of its turns is odd. -/
theorem pixel_drawnAll (hf : f.OfSize width height) {turns : List (Nat × Nat)}
    (hturns : ∀ p ∈ turns, p ∈ places width height) (q : Nat × Nat) :
    (f.drawnAll turns).pixel q.1 q.2 = (f.pixel q.1 q.2 != decide (turns.count q % 2 = 1)) := by
  induction turns generalizing f with
  | nil => simp [drawnAll]
  | cons p rest ih =>
    have hp := hturns p List.mem_cons_self
    have hrest := ih (hf.drawn p) fun p hp => hturns p (List.mem_cons_of_mem _ hp)
    rw [drawnAll, hrest, hf.pixel_drawn hp, count_turns]
    by_cases hq : q = p
    · rcases Nat.mod_two_eq_zero_or_one (rest.count q) with heven | hodd
      · have hodd : (rest.count q + 1) % 2 = 1 := by omega
        simp [← hq, heven, hodd]
      · have heven : (rest.count q + 1) % 2 = 0 := by omega
        simp [← hq, heven, hodd]
    · simp [hq]

/-- Some turn puts its pixel out if and only if a lit pixel has a turn, or any pixel two. -/
theorem putsOut_iff (hf : f.OfSize width height) {turns : List (Nat × Nat)}
    (hturns : ∀ p ∈ turns, p ∈ places width height) :
    f.putsOut turns = true ↔ ∃ q, (f.pixel q.1 q.2 = true ∧ 1 ≤ turns.count q) ∨ 2 ≤ turns.count q := by
  induction turns generalizing f with
  | nil => simp [putsOut]
  | cons p rest ih =>
    have hp := hturns p List.mem_cons_self
    have hrest := ih (hf.drawn p) fun p hp => hturns p (List.mem_cons_of_mem _ hp)
    rw [putsOut, Bool.or_eq_true, hrest]
    simp only [hf.pixel_drawn hp, count_turns]
    constructor
    · rintro (hlit | ⟨q, hq⟩)
      · exact ⟨p, .inl ⟨hlit, by simp⟩⟩
      · refine ⟨q, ?_⟩
        by_cases hplace : q = p
        · -- A pixel that this turn has lit has a turn left, and so two in all.
          rw [if_pos hplace]
          omega
        · simpa [hplace] using hq
    · rintro ⟨q, hq⟩
      by_cases hplace : q = p
      · subst hplace
        rw [if_pos rfl] at hq
        by_cases hlit : f.pixel q.1 q.2 = true
        · exact .inl hlit
        · refine .inr ⟨q, .inl ⟨by simp [hlit], ?_⟩⟩
          rcases hq with ⟨h, -⟩ | htwo
          · exact absurd h hlit
          · omega
      · exact .inr ⟨q, by simpa [hplace] using hq⟩

/-- The turns of all pixels of the display are all the turns. -/
theorem sum_count {turns : List (Nat × Nat)} (hturns : ∀ p ∈ turns, p ∈ places width height) :
    ∑ q ∈ places width height, turns.count q = turns.length := by
  induction turns with
  | nil => simp
  | cons p rest ih =>
    have hrest := ih fun p hp => hturns p (List.mem_cons_of_mem _ hp)
    simp only [count_turns]
    rw [Finset.sum_add_distrib, hrest, Finset.sum_ite_eq', if_pos (hturns p List.mem_cons_self), List.length_cons]

/-- The turns are counted, and leave the display dirty; rows apart, nothing else has changed. -/
theorem drawnAll_eq (f : FrameBuffer) (turns : List (Nat × Nat)) :
    f.drawnAll turns =
      { f with
        rows := (f.drawnAll turns).rows
        draws := f.draws + turns.length
        dirty := f.dirty || !turns.isEmpty } := by
  induction turns generalizing f with
  | nil => simp [drawnAll]
  | cons p rest ih =>
    rw [drawnAll, ih (f.drawn p)]
    simp [drawn, turned]
    omega

/-! ## In all -/

/-- One display is the other after turns of its pixels, so many of each; `flag` tells whether a turn put its pixel
out. -/
structure Covered (f g : FrameBuffer) (width height : Nat) (count : Nat × Nat → Nat) (flag : Bool) : Prop where
  size : g.OfSize width height
  pixel : ∀ p ∈ places width height, g.pixel p.1 p.2 = (f.pixel p.1 p.2 != decide (count p % 2 = 1))
  flag_iff : flag = true ↔ ∃ p, (f.pixel p.1 p.2 = true ∧ 1 ≤ count p) ∨ 2 ≤ count p
  draws : g.draws = f.draws + ∑ p ∈ places width height, count p
  dirty_iff : g.dirty = true ↔ f.dirty = true ∨ ∃ p, 1 ≤ count p
  rest : g = { f with rows := g.rows, draws := g.draws, dirty := g.dirty }

theorem covered_drawnAll (hf : f.OfSize width height) {turns : List (Nat × Nat)}
    (hturns : ∀ p ∈ turns, p ∈ places width height) :
    f.Covered (f.drawnAll turns) width height turns.count (f.putsOut turns) where
  size := hf.drawnAll turns
  pixel p _ := pixel_drawnAll hf hturns p
  flag_iff := putsOut_iff hf hturns
  draws := by rw [drawnAll_eq, sum_count hturns]
  dirty_iff := by
    rw [drawnAll_eq]
    simp [List.eq_nil_iff_forall_not_mem, List.one_le_count_iff]
  rest := by rw [drawnAll_eq]

/-- Where no pixel has two turns, only lit pixels are put out. -/
theorem Covered.flag_iff_lit {g : FrameBuffer} {count : Nat × Nat → Nat} {flag : Bool}
    (h : f.Covered g width height count flag) (hone : ∀ p, count p ≤ 1) :
    flag = true ↔ ∃ p, f.pixel p.1 p.2 = true ∧ 1 ≤ count p := by
  rw [h.flag_iff]
  constructor
  · rintro ⟨p, hlit | htwo⟩
    · exact ⟨p, hlit⟩
    · have := hone p
      omega
  · rintro ⟨p, hlit⟩
    exact ⟨p, .inl hlit⟩

end Chip8.FrameBuffer
