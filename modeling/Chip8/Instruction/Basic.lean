import Chip8.Bits
import Chip8.Cells
import Chip8.Instruction.Mnemonic
import Chip8.Instruction.Op

/-!
# Instructions

An instruction describes a family of sixteen-bit words: those whose bits under the mask are the pattern. Its operands
are cut out of the remaining bits. Masks and patterns may be any integers, since tables come from outside. Main
statements: `toNat_wordOf`, by which the word of an opcode is its remainder modulo 65536, `shiftedUp_eq_ok`, by which
moving a value up is multiplication, and `matchesWord_iff`, by which `matchesWord` decides the set of words `Covers`.
-/

namespace Chip8

/-- The word of an opcode: its last sixteen bits. -/
def wordOf (opcode : Int) : UInt16 := UInt16.ofNat (opcode % 65536).toNat

theorem toNat_wordOf (opcode : Int) : ((wordOf opcode).toNat : Int) = opcode % 65536 := by
  have h : (opcode % 65536).toNat < 65536 := by omega
  have : (wordOf opcode).toNat = (opcode % 65536).toNat := by
    simp only [wordOf, UInt16.toNat_ofNat']
    exact Nat.mod_eq_of_lt h
  omega

theorem wordOf_natCast (w : UInt16) : wordOf (w.toNat : Int) = w := by
  apply UInt16.toNat_inj.1
  have h := toNat_wordOf w.toNat
  have := w.toNat_lt
  omega

/-! ## Large integers -/

/-- The digits of an integer whose absolute value is given: thirty bits in each. -/
def digitCount (n : Nat) : Nat := if n = 0 then 0 else n.log2 / 30 + 1

/-- The most digits an integer may have. -/
def maxDigits : Nat := 0x1FFFFFFFFFFFFFF9

/-- A value moved up by a number of bits. The digits that are added must leave the integer within the most that it may
have, and there must be room for them at four bytes each. -/
def shiftedUp (value : Int) (places : Nat) : Except Mishap Int :=
  let added := (places + 29) / 30
  if value = 0 then .ok 0
  else if 4 * added < Cells.reach then .ok (value <<< places)
  else if maxDigits < digitCount value.natAbs + added then .error .tooManyBits
  else .error .noRoom

/-- What is moved up is multiplied by a power of two. -/
theorem shiftedUp_eq_ok {value n : Int} {places : Nat} (h : shiftedUp value places = .ok n) :
    n = value * ((1 <<< places : Nat) : Int) := by
  simp only [shiftedUp] at h
  split at h
  · next hvalue => rw [← Except.ok.inj h, hvalue, Int.zero_mul]
  · split at h
    · rw [← Except.ok.inj h, Int.shiftLeft_eq, Nat.one_shiftLeft, Int.natCast_pow]
      rfl
    · split at h <;> simp at h

/-! ## Operands -/

/-- An operand: the bits of a word under a mask, moved down. -/
structure Operand where
  mask : Int
  shift : Int
  deriving DecidableEq, Repr

namespace Operand

/-- The value of an operand in a word. -/
def extract (o : Operand) (word : UInt16) : Except Mishap Int :=
  if o.shift < 0 then .error .negativeShift
  else .ok (Bits.and (word.toNat : Int) o.mask >>> o.shift.toNat)

/-- A value moved to the place of an operand, without the bits that do not belong there. -/
def insert (o : Operand) (value : Int) : Except Mishap Int :=
  if o.shift < 0 then .error .negativeShift
  else (shiftedUp value o.shift.toNat).map fun bits => Bits.and bits o.mask

end Operand

/-! ## Families of words -/

/-- The description of one family of words. -/
structure Instruction where
  op : Op
  mask : Int
  pattern : Int
  operands : List Operand
  mnemonic : Mnemonic
  deriving DecidableEq, Repr

namespace Instruction

/-- Is the word one of the family? -/
def matchesWord (inst : Instruction) (word : UInt16) : Bool := Bits.and (word.toNat : Int) inst.mask == inst.pattern

/-- The operands of a word, in the order of the description. -/
def extract (inst : Instruction) (word : UInt16) : Except Mishap (List Int) :=
  inst.operands.mapM fun o => o.extract word

/-- The family as a set of words. -/
def Covers (inst : Instruction) (word : UInt16) : Prop := Bits.and (word.toNat : Int) inst.mask = inst.pattern

instance (inst : Instruction) (word : UInt16) : Decidable (inst.Covers word) := inferInstanceAs (Decidable (_ = _))

theorem matchesWord_iff {inst : Instruction} {word : UInt16} : inst.matchesWord word = true ↔ inst.Covers word := by
  simp [matchesWord, Covers]

end Instruction

end Chip8
