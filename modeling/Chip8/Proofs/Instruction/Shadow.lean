import Chip8.Instruction.Order
import Chip8.Proofs.Bits
import Mathlib.Tactic.ByContra
import Mathlib.Tactic.Push

/-!
# Shadowed families

The check of a table compares instructions two at a time by their masks and patterns. Here that comparison is read as
one of families: an instruction shadows another if and only if it matches every word that the other one matches
(`shadows_iff`). One direction needs nothing. The other one needs sixteen bits and a pattern inside its mask, for a
family that has no words is contained in every other.
-/

namespace Chip8

/-! ## Sixteen bits -/

theorem Bits.InWord.toNat_wordOf {n : Int} (h : Bits.InWord n) : ((wordOf n).toNat : Int) = n := by
  rw [Chip8.toNat_wordOf, Int.emod_eq_of_lt h.1 (by have := h.2; omega)]

/-- The word with one of its sixteen bits turned over. -/
def flipped (w : UInt16) (i : Nat) : UInt16 := UInt16.ofNat (w.toNat ^^^ 2 ^ i)

theorem testBit_flipped (w : UInt16) {i : Nat} (hi : i < 16) (j : Nat) :
    (flipped w i).toNat.testBit j = (w.toNat.testBit j ^^ decide (i = j)) := by
  have hlt : w.toNat ^^^ 2 ^ i < 2 ^ 16 :=
    Nat.xor_lt_two_pow w.toNat_lt (Nat.pow_lt_pow_right (by decide) hi)
  rw [flipped, UInt16.toNat_ofNat', Nat.mod_eq_of_lt hlt, Nat.testBit_xor, Nat.testBit_two_pow]

namespace Instruction

/-! ## Families bit by bit -/

theorem covers_iff_testBit {inst : Instruction} {w : UInt16} :
    inst.Covers w ↔
      ∀ i, (w.toNat.testBit i && Bits.testBit inst.mask i) = Bits.testBit inst.pattern i := by
  rw [Covers]
  constructor
  · intro h i
    rw [← h, Bits.testBit_and, Bits.testBit_natCast]
  · intro h
    apply Bits.ext
    intro i
    rw [Bits.testBit_and, Bits.testBit_natCast, h]

/-- Has the instruction a mask and a pattern of sixteen bits? -/
def IsNarrow (inst : Instruction) : Prop := Bits.InWord inst.mask ∧ Bits.InWord inst.pattern

instance (inst : Instruction) : Decidable inst.IsNarrow := inferInstanceAs (Decidable (_ ∧ _))

/-- In an instruction that passed the check every bit of the pattern is one of the mask. -/
theorem testBit_mask_of_pattern {inst : Instruction} (hnarrow : inst.IsNarrow) (h : inst.patternLeavesMask = false)
    {i : Nat} (hbit : Bits.testBit inst.pattern i = true) : Bits.testBit inst.mask i = true := by
  have hi : i < 16 := hnarrow.2.lt_of_testBit hbit
  have hzero : Bits.and (Bits.and inst.pattern (Bits.not inst.mask)) 0xFFFF = 0 := by
    simpa [patternLeavesMask] using h
  have hlow : Bits.testBit 0xFFFF i = true := by
    show (0xFFFF : Nat).testBit i = true
    rw [show 0xFFFF = 2 ^ 16 - 1 from rfl, Nat.testBit_two_pow_sub_one, decide_eq_true hi]
  have hoff := congrArg (Bits.testBit · i) hzero
  simp only [Bits.testBit_and, Bits.testBit_not, hbit, hlow, Bool.true_and, Bool.and_true] at hoff
  rw [show Bits.testBit 0 i = false from Nat.zero_testBit i] at hoff
  simpa using hoff

/-- The pattern is a word of its own family. -/
theorem covers_pattern {inst : Instruction} (hnarrow : inst.IsNarrow) (h : inst.patternLeavesMask = false) :
    inst.Covers (wordOf inst.pattern) := by
  rw [covers_iff_testBit]
  intro i
  rw [← Bits.testBit_natCast, hnarrow.2.toNat_wordOf]
  cases hbit : Bits.testBit inst.pattern i with
  | false => rfl
  | true => exact testBit_mask_of_pattern hnarrow h hbit

/-- A bit that the mask leaves open may be turned over. -/
theorem Covers.flipped {inst : Instruction} {w : UInt16} (h : inst.Covers w) {i : Nat} (hi : i < 16)
    (hopen : Bits.testBit inst.mask i = false) : inst.Covers (flipped w i) := by
  rw [covers_iff_testBit] at h ⊢
  intro j
  rw [← h j, testBit_flipped w hi]
  by_cases hij : i = j
  · rw [← hij, hopen, Bool.and_false, Bool.and_false]
  · rw [decide_eq_false hij, Bool.xor_false]

/-- A bit that the mask fixes may not. -/
theorem Covers.not_flipped {inst : Instruction} {w : UInt16} (h : inst.Covers w) {i : Nat} (hi : i < 16)
    (hfixed : Bits.testBit inst.mask i = true) : ¬ inst.Covers (Chip8.flipped w i) := by
  intro hflipped
  have hbit := (covers_iff_testBit.1 hflipped i).trans (covers_iff_testBit.1 h i).symm
  rw [testBit_flipped w hi, hfixed] at hbit
  simp at hbit

/-! ## Shadowing as inclusion -/

/-- Every word of an instruction that is shadowed belongs to the earlier one. -/
theorem covers_of_shadows {earlier later : Instruction} (h : earlier.shadows later = true) {w : UInt16}
    (hw : later.Covers w) : earlier.Covers w := by
  simp only [shadows, Bool.and_eq_true, beq_iff_eq] at h
  obtain ⟨hmask, hpattern⟩ := h
  rw [covers_iff_testBit] at hw ⊢
  intro i
  -- A bit fixed by the earlier mask is fixed by the later one, and there word and patterns all agree.
  rw [← hpattern, Bits.testBit_and, ← hw i, Bool.and_assoc, ← Bits.testBit_and, Bits.and_comm, hmask]

/-- An instruction that is not shadowed has a word that the earlier one does not match. -/
theorem exists_word_of_not_shadows {earlier later : Instruction} (hearlier : earlier.IsNarrow)
    (hlater : later.IsNarrow) (hpattern : later.patternLeavesMask = false) (h : earlier.shadows later = false) :
    ∃ w, later.Covers w ∧ ¬ earlier.Covers w := by
  have hown := covers_pattern hlater hpattern
  by_cases hboth : earlier.Covers (wordOf later.pattern)
  · -- The earlier instruction matches the pattern, so it must fix a bit that the later one leaves open.
    have hbit : ∃ i, Bits.testBit earlier.mask i = true ∧ Bits.testBit later.mask i = false := by
      by_contra hnone
      push Not at hnone
      have hmask : Bits.and earlier.mask later.mask = earlier.mask := by
        apply Bits.ext
        intro i
        rw [Bits.testBit_and]
        cases hfixed : Bits.testBit earlier.mask i with
        | false => rfl
        | true => simpa using hnone i hfixed
      rw [Covers, hlater.2.toNat_wordOf] at hboth
      simp [shadows, hmask, hboth] at h
    obtain ⟨i, hfixed, hopen⟩ := hbit
    have hi : i < 16 := hearlier.1.lt_of_testBit hfixed
    exact ⟨flipped (wordOf later.pattern) i, hown.flipped hi hopen, hboth.not_flipped hi hfixed⟩
  · exact ⟨wordOf later.pattern, hown, hboth⟩

/-- **Shadowing is inclusion of families.** -/
theorem shadows_iff {earlier later : Instruction} (hearlier : earlier.IsNarrow) (hlater : later.IsNarrow)
    (hpattern : later.patternLeavesMask = false) :
    earlier.shadows later = true ↔ ∀ w, later.Covers w → earlier.Covers w := by
  constructor
  · exact fun h w hw => covers_of_shadows h hw
  · intro h
    by_contra hnot
    obtain ⟨w, hw, hmiss⟩ := exists_word_of_not_shadows hearlier hlater hpattern (by simpa using hnot)
    exact hmiss (h w hw)

end Instruction

end Chip8
