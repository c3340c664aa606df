import Chip8.Proofs.Machine.Effect

/-!
# What instructions store

Two instructions write to memory: one copies registers to a block, one spells a register out in three decimal digits.
`wordStores?` is what a word is about to store at an address, by its digits, and `byteAt_effect` says that its operation
stores just that and leaves all other bytes as they are.
-/

namespace Chip8

/-- A word that stores a block of registers. -/
def Word.StoresBlock (w : UInt16) : Prop := w.toNat / 0x1000 = 0xF ∧ w.toNat % 0x100 = 0x55

/-- A word that stores the digits of a register. -/
def Word.StoresDigits (w : UInt16) : Prop := w.toNat / 0x1000 = 0xF ∧ w.toNat % 0x100 = 0x33

instance (w : UInt16) : Decidable (Word.StoresBlock w) := inferInstanceAs (Decidable (_ ∧ _))

instance (w : UInt16) : Decidable (Word.StoresDigits w) := inferInstanceAs (Decidable (_ ∧ _))

namespace Machine

variable {m : Machine}

/-- What a word stores at an address, if it is a store that covers it. -/
def wordStores? (m : Machine) (w : UInt16) (a : Nat) : Option UInt8 :=
  let vx := m.reg (Word.x w)
  if Word.StoresBlock w then
    if m.index ≤ a ∧ a ≤ m.index + Word.x w then some (m.reg (a - m.index).toNat) else none
  else if Word.StoresDigits w then
    if a = m.index then some (vx / 100)
    else if a = m.index + 1 then some (vx / 10 % 10)
    else if a = m.index + 2 then some (vx % 10)
    else none
  else none

/-- What a block of registers leaves at an address. -/
theorem byteAt_stored {m : Machine} (hm : m.memory.size = 4096) {k count : Nat}
    (hlast : m.index.toNat + k + count ≤ 4096) (a : Nat) :
    (m.stored k count).byteAt a =
      if m.index.toNat + k ≤ a ∧ a < m.index.toNat + k + count then m.reg (a - m.index.toNat) else m.byteAt a := by
  induction count generalizing m k with
  | zero => rw [stored, if_neg (by omega)]
  | succ count ih =>
    have hwritten := byteAt_withByte hm (show m.index.toNat + k < 4096 by omega) (m.reg k) a
    have hrest := @ih (m.withByte (m.index.toNat + k) (m.reg k)) (by simpa using hm) (k + 1)
      (show m.index.toNat + (k + 1) + count ≤ 4096 by omega)
    rw [stored, hrest, hwritten]
    show (if m.index.toNat + (k + 1) ≤ a ∧ a < m.index.toNat + (k + 1) + count then m.reg (a - m.index.toNat)
      else _) = _
    by_cases hfirst : m.index.toNat + k = a
    · rw [if_neg (by omega), if_pos hfirst, if_pos (by omega), show a - m.index.toNat = k by omega]
    · rw [if_neg hfirst]
      by_cases hinside : m.index.toNat + (k + 1) ≤ a ∧ a < m.index.toNat + (k + 1) + count
      · rw [if_pos hinside, if_pos (by omega)]
      · rw [if_neg hinside, if_neg (by omega)]

/-- A digit of a byte, as it is stored. -/
theorem ofInt_digit {n : Nat} {digit : UInt8} (h : digit.toNat = n) : UInt8.ofInt n = digit := by
  have hlt := digit.toNat_lt
  have hvalue := toNat_ofInt n
  exact UInt8.toNat_inj.1 (by omega)

/-- What the digits of a value leave at an address. -/
theorem byteAt_spelled (hm : m.memory.size = 4096) {i : Nat} (hlast : i + 2 < 4096) (value : UInt8) (a : Nat) :
    (m.spelled i value.toNat).byteAt a =
      if a = i then value / 100 else if a = i + 1 then value / 10 % 10 else if a = i + 2 then value % 10
      else m.byteAt a := by
  have hundreds : UInt8.ofInt (value.toNat / 100 : Nat) = value / 100 := ofInt_digit rfl
  have htens : UInt8.ofInt (value.toNat / 10 % 10 : Nat) = value / 10 % 10 := ofInt_digit rfl
  have hones : UInt8.ofInt (value.toNat % 10 : Nat) = value % 10 := ofInt_digit rfl
  rw [spelled, hundreds, htens, hones, byteAt_withByte (by simpa using hm) (by omega),
    byteAt_withByte (by simpa using hm) (by omega), byteAt_withByte hm (by omega)]
  by_cases hfirst : a = i
  · rw [if_pos hfirst, if_neg (by omega), if_neg (by omega), if_pos (by omega)]
  · rw [if_neg hfirst]
    by_cases hsecond : a = i + 1
    · rw [if_pos hsecond, if_neg (by omega), if_pos (by omega)]
    · rw [if_neg hsecond]
      by_cases hthird : a = i + 2
      · rw [if_pos hthird, if_pos (by omega)]
      · rw [if_neg hthird, if_neg (by omega), if_neg (by omega), if_neg (by omega)]

/-- What neither stores a block nor digits leaves the memory as it is. -/
theorem memory_effect (m : Machine) (w : UInt16) (r : Reply) {op : Op} (hblock : op ≠ .store)
    (hdigits : op ≠ .decimal) : (m.effect w r op).memory = m.memory := by
  cases op with
  | store => exact absurd rfl hblock
  | decimal => exact absurd rfl hdigits
  | load =>
    rw [effect, loaded_eq]
    rfl
  | awaitKey =>
    simp only [effect]
    split <;> rfl
  | _ => rfl

/-- A store leaves registers and index register as they are. -/
theorem registers_index_effect (m : Machine) (w : UInt16) (r : Reply) {op : Op} (h : op = .store ∨ op = .decimal) :
    (m.effect w r op).registers = m.registers ∧ (m.effect w r op).index = m.index := by
  rcases h with rfl | rfl
  · rw [effect, stored_eq]
    exact ⟨rfl, rfl⟩
  · exact ⟨rfl, rfl⟩

theorem memory_begun (m : Machine) (op : Op) : (m.begun op).memory = m.memory := by cases op <;> rfl

/-- **What an operation stores** is what the digits of its word say, and all other bytes stay as they are. -/
theorem byteAt_effect (hm : m.Sound) {w : UInt16} {op : Op} (hop : Op.ofWord? w = some op)
    (hobstacle : m.obstacle? w op = none) (r : Reply) (a : Nat) :
    (m.effect w r op).byteAt a = (m.wordStores? w a).getD (m.byteAt a) := by
  have hindex := hm.index_nonneg
  obtain ⟨hfirst, hlast⟩ := Op.ofWord?_eq_some_iff.1 hop
  have hnone (hblock : ¬ Word.StoresBlock w) (hdigits : ¬ Word.StoresDigits w) : m.wordStores? w a = none := by
    rw [wordStores?, if_neg hblock, if_neg hdigits]
  cases op
  case store =>
    have hin : m.index + Word.x w ≤ 0xFFF := by simpa [obstacle?] using hobstacle
    rw [wordStores?, if_pos ⟨hfirst, hlast⟩]
    refine (byteAt_stored (k := 0) (m := m) hm.memory (by omega) a).trans ?_
    by_cases hcovered : m.index ≤ a ∧ a ≤ m.index + Word.x w
    · rw [if_pos hcovered, if_pos (by omega), show ((a : Int) - m.index).toNat = a - m.index.toNat by omega]
      rfl
    · rw [if_neg hcovered, if_neg (by omega)]
      rfl
  case decimal =>
    have hin : m.index + 2 ≤ 0xFFF := by simpa [obstacle?] using hobstacle
    have hblock : ¬ Word.StoresBlock w := fun h => by
      have := hlast.symm.trans h.2
      simp [Op.family] at this
    rw [wordStores?, if_neg hblock, if_pos ⟨hfirst, hlast⟩]
    refine (byteAt_spelled hm.memory (by omega) (m.reg (Word.x w)) a).trans ?_
    have hzero : (a : Int) = m.index ↔ a = m.index.toNat := by omega
    have hone : (a : Int) = m.index + 1 ↔ a = m.index.toNat + 1 := by omega
    have htwo : (a : Int) = m.index + 2 ↔ a = m.index.toNat + 2 := by omega
    simp only [hzero, hone, htwo]
    split
    · rfl
    · split
      · rfl
      · split <;> rfl
  all_goals
    rw [hnone, Option.getD_none, byteAt, memory_effect m w r (by decide) (by decide), byteAt]
  all_goals
    simp only [Op.family] at hfirst hlast
    simp only [Word.StoresBlock, Word.StoresDigits]
    omega

end Machine

end Chip8
