import Chip8.Bits
import Mathlib.Algebra.Group.Nat.Defs

/-!
# Laws of bits

Two integers are equal when their bits are (`ext`), and moving an integer up or down moves its bits. A mask of adjacent
ones cuts a field out of a natural number, and that field is a quotient and a remainder (`land_field`): this turns
the masks of instructions into the arithmetic of digits. An integer fits a word when it has no bits beyond the first
sixteen (`inWord_iff_testBit`), and survives a mask of ones when it lies in their range (`and_ones_eq_self_iff`).
-/

namespace Chip8.Bits

theorem testBit_eq_false_of_lt {m i : Nat} (h : m ≤ i) : m.testBit i = false :=
  Nat.testBit_lt_two_pow (Nat.lt_of_lt_of_le Nat.lt_two_pow_self (Nat.pow_le_pow_right (by omega) h))

/-- Bits far to the left tell the sign. -/
theorem ofNat_ne_negSucc_of_testBit {m n : Nat} : ∃ i, testBit (.ofNat m) i ≠ testBit (.negSucc n) i :=
  ⟨m + n, by
    simp [testBit, testBit_eq_false_of_lt (Nat.le_add_right m n), testBit_eq_false_of_lt (Nat.le_add_left n m)]⟩

/-- An integer is determined by its bits. -/
theorem ext {a b : Int} (h : ∀ i, testBit a i = testBit b i) : a = b := by
  rcases a with m | m <;> rcases b with n | n
  · exact congrArg _ (Nat.eq_of_testBit_eq h)
  · obtain ⟨i, hi⟩ := ofNat_ne_negSucc_of_testBit (m := m) (n := n)
    exact absurd (h i) hi
  · obtain ⟨i, hi⟩ := ofNat_ne_negSucc_of_testBit (m := n) (n := m)
    exact absurd (h i).symm hi
  · exact congrArg _ (Nat.eq_of_testBit_eq fun i => by simpa [testBit] using h i)

theorem testBit_natCast (n i : Nat) : testBit (n : Int) i = n.testBit i := rfl

theorem testBit_shiftRight (a : Int) (k i : Nat) : testBit (a >>> k) i = testBit a (k + i) := by
  rcases a with n | n
  · exact Nat.testBit_shiftRight n
  · exact congrArg (! ·) (Nat.testBit_shiftRight n)

theorem testBit_shiftLeft (a : Int) (k i : Nat) : testBit (a <<< k) i = (decide (k ≤ i) && testBit a (i - k)) := by
  rcases a with n | n
  · exact Nat.testBit_shiftLeft n
  · -- Below zero the bits that move in are ones, and so they are turned over as well.
    have hones : (n + 1) <<< k - 1 = 2 ^ k * n + (2 ^ k - 1) := by
      have := Nat.two_pow_pos k
      rw [Nat.shiftLeft_eq, Nat.mul_comm, Nat.mul_succ]
      omega
    show (!((n + 1) <<< k - 1).testBit i) = _
    rw [hones, Nat.testBit_two_pow_mul_add _ (by have := Nat.two_pow_pos k; omega), Nat.testBit_two_pow_sub_one]
    by_cases h : i < k
    · simp [h, Nat.not_le.2 h]
    · simp [h, Nat.not_lt.1 h, testBit]

theorem and_comm (a b : Int) : and a b = and b a := ext fun i => by rw [testBit_and, testBit_and, Bool.and_comm]

theorem and_natCast (m n : Nat) : and (m : Int) (n : Int) = ((m &&& n : Nat) : Int) := rfl

/-- A mask of `width` ones, `place` bits up, cuts out a field and leaves it in its place. -/
theorem land_field (n width place : Nat) :
    n &&& ((2 ^ width - 1) <<< place) = (n / 2 ^ place % 2 ^ width) * 2 ^ place := by
  apply Nat.eq_of_testBit_eq
  intro i
  rw [← Nat.shiftLeft_eq, Nat.testBit_and, Nat.testBit_shiftLeft, Nat.testBit_shiftLeft, Nat.testBit_two_pow_sub_one,
    Nat.testBit_mod_two_pow, Nat.testBit_div_two_pow]
  by_cases h : place ≤ i
  · have hi : i - place + place = i := by omega
    simp [h, hi, Bool.and_comm]
  · simp [h]

/-- A field and the last `k` bits below it. -/
theorem land_field_tail (n width : Nat) {place k : Nat} (h : k ≤ place) :
    n &&& (((2 ^ width - 1) <<< place) ||| (2 ^ k - 1)) = (n / 2 ^ place % 2 ^ width) * 2 ^ place + n % 2 ^ k := by
  have hlt : n % 2 ^ k < 2 ^ place :=
    Nat.lt_of_lt_of_le (Nat.mod_lt _ (Nat.two_pow_pos k)) (Nat.pow_le_pow_right (by decide) h)
  rw [Nat.and_or_distrib_left, land_field, Nat.and_two_pow_sub_one_eq_mod, Nat.mul_comm,
    ← Nat.two_pow_add_eq_or_of_lt hlt]

/-! ## Sixteen bits -/

/-- Does the integer fit a word? -/
def InWord (n : Int) : Prop := 0 ≤ n ∧ n ≤ 0xFFFF

instance (n : Int) : Decidable (InWord n) := inferInstanceAs (Decidable (_ ∧ _))

/-- The integers of sixteen bits are those without a bit further up. -/
theorem inWord_iff_testBit {n : Int} : InWord n ↔ ∀ i, testBit n i = true → i < 16 := by
  rcases n with m | m
  · have hword : InWord (.ofNat m) ↔ m < 2 ^ 16 := by simp only [InWord, Int.ofNat_eq_natCast]; omega
    rw [hword]
    constructor
    · intro hm i hbit
      exact Nat.not_le.1 fun hi => absurd (Nat.lt_of_lt_of_le hm (Nat.pow_le_pow_right (by decide) hi))
        (Nat.not_lt.2 (Nat.ge_two_pow_of_testBit hbit))
    · intro h
      refine Nat.lt_pow_two_of_testBit m fun i hi => ?_
      cases hbit : m.testBit i with
      | false => rfl
      | true => exact absurd (h i hbit) (by omega)
  · refine iff_of_false (fun h => absurd h.1 (by omega)) fun h => ?_
    -- Far to the left a negative integer has ones.
    have hbit : testBit (.negSucc m) (m + 16) = true := by
      simp [testBit, testBit_eq_false_of_lt (Nat.le_add_right m 16)]
    exact absurd (h _ hbit) (by omega)

theorem InWord.lt_of_testBit {n : Int} (h : InWord n) {i : Nat} (hbit : testBit n i = true) : i < 16 :=
  inWord_iff_testBit.1 h i hbit

/-! ## Masks of ones -/

/-- What a mask of the last `width` bits does not change. -/
theorem and_ones_eq_self_iff {v : Int} {width : Nat} :
    and v ((2 ^ width - 1 : Nat) : Int) = v ↔ 0 ≤ v ∧ v ≤ ((2 ^ width - 1 : Nat) : Int) := by
  have hpos := Nat.two_pow_pos width
  rcases v with n | n
  · rw [Int.ofNat_eq_natCast, and_natCast, Nat.and_two_pow_sub_one_eq_mod, Int.natCast_inj,
      Nat.mod_eq_iff_lt (by omega)]
    omega
  · refine iff_of_false (fun h => ?_) fun h => absurd h.1 (by omega)
    have hsign : 0 ≤ and (.negSucc n) ((2 ^ width - 1 : Nat) : Int) := Int.natCast_nonneg _
    rw [h] at hsign
    omega

end Chip8.Bits
