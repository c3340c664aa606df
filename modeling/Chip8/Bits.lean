/-!
# Bits of integers

An integer has infinitely many bits in two's complement: the bits of `-n - 1` are those of `n` turned over, so a
negative number ends in ones. Masks and patterns of an instruction table are integers in this reading, and the
sixteen bits of a word are the non-negative case. Main statement: `testBit_and`, which says that `and` works bit by
bit; the other operations have their own.
-/

namespace Chip8.Bits

/-- The bit at a position, counted from the least significant. -/
def testBit : Int → Nat → Bool
  | .ofNat n, i => n.testBit i
  | .negSucc n, i => !n.testBit i

/-- The bits of `m` that `n` does not have. -/
def without (m n : Nat) : Nat := m ^^^ (m &&& n)

/-- Bits that both numbers have. -/
def and : Int → Int → Int
  | .ofNat m, .ofNat n => .ofNat (m &&& n)
  | .ofNat m, .negSucc n => .ofNat (without m n)
  | .negSucc m, .ofNat n => .ofNat (without n m)
  | .negSucc m, .negSucc n => .negSucc (m ||| n)

/-- Bits that at least one of the numbers has. -/
def or : Int → Int → Int
  | .ofNat m, .ofNat n => .ofNat (m ||| n)
  | .ofNat m, .negSucc n => .negSucc (without n m)
  | .negSucc m, .ofNat n => .negSucc (without m n)
  | .negSucc m, .negSucc n => .negSucc (m &&& n)

/-- Every bit turned over. -/
def not (n : Int) : Int := -n - 1

/-! ## Bit by bit -/

theorem testBit_without (m n i : Nat) : (without m n).testBit i = (m.testBit i && !n.testBit i) := by
  rw [without, Nat.testBit_xor, Nat.testBit_and]
  cases m.testBit i <;> cases n.testBit i <;> rfl

theorem testBit_and (a b : Int) (i : Nat) : testBit (and a b) i = (testBit a i && testBit b i) := by
  rcases a with m | m <;> rcases b with n | n <;> simp [and, testBit, testBit_without, Bool.and_comm]

theorem testBit_or (a b : Int) (i : Nat) : testBit (or a b) i = (testBit a i || testBit b i) := by
  rcases a with m | m <;> rcases b with n | n <;>
    simp [or, testBit, testBit_without, Bool.or_comm, Bool.not_and]

theorem testBit_not (a : Int) (i : Nat) : testBit (not a) i = !testBit a i := by
  rcases a with n | n
  · rw [show not (.ofNat n) = .negSucc n by simp [not, Int.negSucc_eq]; omega]
    rfl
  · rw [show not (.negSucc n) = .ofNat n by simp [not, Int.negSucc_eq]]
    simp [testBit]

end Chip8.Bits
