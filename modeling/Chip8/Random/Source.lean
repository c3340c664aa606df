import Chip8.Failure

/-!
# Random sources

Where random bytes come from. A source yields one number after another; what it yields is up to the source, and the
instruction that asks keeps only the bits it wants. A list of numbers yields them over and over, and an empty one
nothing at all. Main statement: `Cycle.next_eq_error_iff`.
-/

namespace Chip8

/-- A source of random numbers. -/
class RandomSource (ρ : Type) where
  /-- The next number, and the source after it. -/
  next : ρ → Except Mishap (Int × ρ)

/-- Numbers given in advance, over and over. -/
structure Cycle where
  numbers : Array Int
  position : Nat := 0
  deriving DecidableEq, Repr

namespace Cycle

/-- The number whose turn it is. -/
def current? (c : Cycle) : Option Int := c.numbers[c.position % c.numbers.size]?

/-- The next number, if there are any. -/
def next (c : Cycle) : Except Mishap (Int × Cycle) :=
  match c.current? with
  | some n => .ok (n, { c with position := c.position + 1 })
  | none => .error .zeroModulus

/-- Only an empty list has no next number. -/
theorem next_eq_error_iff (c : Cycle) : c.next = .error .zeroModulus ↔ c.numbers = #[] := by
  constructor
  · intro h
    by_cases hsize : c.numbers.size = 0
    · exact Array.eq_empty_of_size_eq_zero hsize
    · have hlt : c.position % c.numbers.size < c.numbers.size := Nat.mod_lt _ (by omega)
      simp [next, current?, hlt] at h
  · intro h
    simp [next, current?, h]

end Cycle

instance : RandomSource Cycle where
  next := Cycle.next

instance {ρ σ : Type} [RandomSource ρ] [RandomSource σ] : RandomSource (ρ ⊕ σ) where
  next
    | .inl r => (RandomSource.next r).map fun (n, r) => (n, .inl r)
    | .inr r => (RandomSource.next r).map fun (n, r) => (n, .inr r)

end Chip8
