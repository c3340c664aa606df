import Chip8.Proofs.Decoder.Scan
import Chip8.Proofs.Instruction.Shadow
import Mathlib.Data.List.Pairwise

/-!
# Putting operands into an opcode

An operand puts a value into the bits of its mask, and takes it out again if no bit of the value was cut off. Encoding
starts from the pattern and adds one operand after the other; an operand can take its value out of the whole opcode
because the pattern and the other operands leave its bits alone. Main statements: `insertAll_eq`, which says what
encoding gives or which value it refuses, and `IsTidy.extract_filled`, by which an instruction reads back what was
encoded.
-/

namespace Chip8

/-! ## One operand -/

namespace Operand

variable {o : Operand} {v : Int}

/-- The bits of an opcode that a value takes up. -/
def placed (o : Operand) (v : Int) : Int := Bits.and (v <<< o.shift.toNat) o.mask

/-- The value of an operand in an opcode. -/
def read (o : Operand) (opcode : Int) : Int := Bits.and opcode o.mask >>> o.shift.toNat

/-- The mask of the values, that is, the mask at the end of the word. -/
def limit (o : Operand) : Int := o.mask >>> o.shift.toNat

/-- Is the value left as it is by the mask? -/
def Fits (o : Operand) (v : Int) : Prop := Bits.and v o.limit = v

instance (o : Operand) (v : Int) : Decidable (o.Fits v) := inferInstanceAs (Decidable (_ = _))

/-- An operand near the end of the word: values can be moved to it without running out of room. -/
def IsNear (o : Operand) : Prop := 0 ≤ o.shift ∧ o.shift ≤ 30

instance (o : Operand) : Decidable o.IsNear := inferInstanceAs (Decidable (_ ∧ _))

theorem placed_shiftRight (o : Operand) (v : Int) : o.placed v >>> o.shift.toNat = Bits.and v o.limit := by
  apply Bits.ext
  intro i
  simp [placed, limit, Bits.testBit_and, Bits.testBit_shiftRight, Bits.testBit_shiftLeft]

theorem testBit_mask_of_placed {i : Nat} (h : Bits.testBit (o.placed v) i = true) : Bits.testBit o.mask i = true := by
  rw [placed, Bits.testBit_and, Bool.and_eq_true] at h
  exact h.2

theorem IsNear.insert_eq (h : o.IsNear) (v : Int) : o.insert v = .ok (o.placed v) := by
  obtain ⟨hlow, hhigh⟩ := h
  have hroom : 4 * ((o.shift.toNat + 29) / 30) < Cells.reach := by
    have hadded : (o.shift.toNat + 29) / 30 ≤ 1 := by omega
    have : Cells.reach = 0x1000000000 := rfl
    omega
  have hup : shiftedUp v o.shift.toNat = .ok (v <<< o.shift.toNat) := by
    unfold shiftedUp
    split
    · next hv => rw [hv, Int.zero_shiftLeft]
    · rw [if_pos hroom]
  rw [insert, if_neg (by omega), hup]
  rfl

end Operand

/-! ## A row of operands -/

/-- An opcode with values added to it. -/
def filled (opcode : Int) (pairs : List (Operand × Int)) : Int :=
  pairs.foldl (fun n p => Bits.or n (p.1.placed p.2)) opcode

theorem testBit_filled (opcode : Int) (pairs : List (Operand × Int)) (i : Nat) :
    Bits.testBit (filled opcode pairs) i =
      (Bits.testBit opcode i || pairs.any fun p => Bits.testBit (p.1.placed p.2) i) := by
  unfold filled
  induction pairs generalizing opcode with
  | nil => simp
  | cons p rest ih => simp only [List.foldl_cons, ih, Bits.testBit_or, List.any_cons, Bool.or_assoc]

namespace Decoder

/-- The first value that does not fit. -/
def misfit? (pairs : List (Operand × Int)) : Option (Operand × Int) := pairs.find? fun p => !decide (p.1.Fits p.2)

theorem misfit?_eq_none_iff {pairs : List (Operand × Int)} : misfit? pairs = none ↔ ∀ p ∈ pairs, p.1.Fits p.2 := by
  simp [misfit?]

/-- What encoding does with operands that have room for every value. -/
theorem insertAll_eq (name : String) (opcode : Int) {pairs : List (Operand × Int)} (h : ∀ p ∈ pairs, p.1.IsNear) :
    insertAll name opcode pairs =
      match misfit? pairs with
      | none => .ok (filled opcode pairs)
      | some p => .error (.operandTooWide name p.2 p.1.mask) := by
  induction pairs generalizing opcode with
  | nil => rfl
  | cons p rest ih =>
    have hrest := ih (Bits.or opcode (p.1.placed p.2)) fun q hq => h q (List.mem_cons_of_mem p hq)
    have hnear := h p List.mem_cons_self
    have hback : p.1.placed p.2 >>> p.1.shift.toNat = p.2 ↔ p.1.Fits p.2 := by
      rw [Operand.placed_shiftRight, Operand.Fits]
    rw [insertAll, hnear.insert_eq]
    simp only [bind, Except.bind, hback]
    by_cases hfits : p.1.Fits p.2
    · rw [if_pos hfits, hrest]
      simp [misfit?, hfits, filled]
    · rw [if_neg hfits]
      simp [misfit?, hfits]

end Decoder

/-! ## Reading back -/

/-- Have the two operands no bit in common? -/
def Operand.Apart (a b : Operand) : Prop := Bits.and a.mask b.mask = 0

instance (a b : Operand) : Decidable (a.Apart b) := inferInstanceAs (Decidable (_ = _))

theorem Operand.Apart.testBit {a b : Operand} (h : a.Apart b) {i : Nat} (ha : Bits.testBit a.mask i = true) :
    Bits.testBit b.mask i = false := by
  have hbit := congrArg (Bits.testBit · i) h
  simp only [Bits.testBit_and, ha, Bool.true_and] at hbit
  exact hbit.trans (Nat.zero_testBit i)

/-- Being apart is symmetric. -/
instance : Std.Symm fun p q : Operand × Int => p.1.Apart q.1 where
  symm p q h := by rw [Operand.Apart, Bits.and_comm]; exact h

/-- The bits under the mask of an operand are those of its value. -/
theorem and_filled {opcode : Int} {pairs : List (Operand × Int)} (hopcode : ∀ p ∈ pairs, Bits.and opcode p.1.mask = 0)
    (hapart : pairs.Pairwise fun p q => p.1.Apart q.1) {p : Operand × Int} (hp : p ∈ pairs) :
    Bits.and (filled opcode pairs) p.1.mask = p.1.placed p.2 := by
  apply Bits.ext
  intro i
  rw [Bits.testBit_and, testBit_filled]
  cases hmask : Bits.testBit p.1.mask i with
  | false => simp [Operand.placed, Bits.testBit_and, hmask]
  | true =>
    have hclear : Bits.testBit opcode i = false := by
      have hbit := congrArg (Bits.testBit · i) (hopcode p hp)
      simp only [Bits.testBit_and, hmask, Bool.and_true] at hbit
      exact hbit.trans (Nat.zero_testBit i)
    rw [hclear, Bool.false_or, Bool.and_true, Bool.eq_iff_iff, List.any_eq_true]
    constructor
    · rintro ⟨q, hq, hbit⟩
      by_cases hpq : p = q
      · rw [hpq]
        exact hbit
      · -- Another operand has no bit here.
        have hfree := (hapart.forall hp hq hpq).testBit hmask
        rw [Operand.testBit_mask_of_placed hbit] at hfree
        cases hfree
    · intro hbit
      exact ⟨p, hp, hbit⟩

namespace Instruction

/-- An instruction whose parts stay in the word and out of each other's way. -/
structure IsTidy (inst : Instruction) : Prop where
  narrow : inst.IsNarrow
  pattern : inst.patternLeavesMask = false
  operand : ∀ o ∈ inst.operands, Bits.InWord o.mask ∧ 0 ≤ o.shift ∧ Bits.and o.mask inst.mask = 0
  apart : inst.operands.Pairwise Operand.Apart

variable {inst : Instruction} {args : List Int}

theorem IsTidy.testBit_mask {o : Operand} (h : inst.IsTidy) (ho : o ∈ inst.operands) {i : Nat}
    (hbit : Bits.testBit o.mask i = true) : Bits.testBit inst.mask i = false := by
  have hoff := congrArg (Bits.testBit · i) (h.operand o ho).2.2
  simp only [Bits.testBit_and, hbit, Bool.true_and] at hoff
  exact hoff.trans (Nat.zero_testBit i)

theorem extract_eq_read (h : ∀ o ∈ inst.operands, 0 ≤ o.shift) (w : UInt16) :
    inst.extract w = .ok (inst.operands.map (·.read w.toNat)) := extract_eq_ok h w

/-- What is encoded fits a word. -/
theorem IsTidy.inWord_filled (h : inst.IsTidy) (args : List Int) :
    Bits.InWord (filled inst.pattern (inst.operands.zip args)) := by
  rw [Bits.inWord_iff_testBit]
  intro i hbit
  rw [testBit_filled, Bool.or_eq_true, List.any_eq_true] at hbit
  rcases hbit with hpattern | ⟨p, hp, hplaced⟩
  · exact h.narrow.2.lt_of_testBit hpattern
  · have hmask := (h.operand p.1 (List.of_mem_zip hp).1).1
    exact hmask.lt_of_testBit (Operand.testBit_mask_of_placed hplaced)

/-- What is encoded is a word of the family. -/
theorem IsTidy.covers_filled (h : inst.IsTidy) (args : List Int) :
    inst.Covers (wordOf (filled inst.pattern (inst.operands.zip args))) := by
  rw [covers_iff_testBit]
  intro i
  rw [← Bits.testBit_natCast, (h.inWord_filled args).toNat_wordOf, testBit_filled]
  cases hmask : Bits.testBit inst.mask i with
  | false =>
    cases hpattern : Bits.testBit inst.pattern i with
    | false => rw [Bool.and_false]
    | true =>
      rw [testBit_mask_of_pattern h.narrow h.pattern hpattern] at hmask
      cases hmask
  | true =>
    have hnone : (inst.operands.zip args).any (fun p => Bits.testBit (p.1.placed p.2) i) = false := by
      rw [List.any_eq_false]
      intro p hp hplaced
      have hoff := h.testBit_mask (List.of_mem_zip hp).1 (Operand.testBit_mask_of_placed hplaced)
      rw [hoff] at hmask
      cases hmask
    rw [hnone, Bool.or_false, Bool.and_true]

/-- What is encoded is read back. -/
theorem IsTidy.extract_filled (h : inst.IsTidy) (hlen : args.length = inst.operands.length)
    (hfits : ∀ p ∈ inst.operands.zip args, p.1.Fits p.2) :
    inst.extract (wordOf (filled inst.pattern (inst.operands.zip args))) = .ok args := by
  have hfst : (inst.operands.zip args).map Prod.fst = inst.operands := List.map_fst_zip (by omega)
  have hsnd : (inst.operands.zip args).map Prod.snd = args := List.map_snd_zip (by omega)
  have hpattern : ∀ p ∈ inst.operands.zip args, Bits.and inst.pattern p.1.mask = 0 := by
    intro p hp
    apply Bits.ext
    intro i
    rw [Bits.testBit_and]
    cases hbit : Bits.testBit inst.pattern i with
    | false => exact (Nat.zero_testBit i).symm
    | true =>
      have hmask := testBit_mask_of_pattern h.narrow h.pattern hbit
      cases hoperand : Bits.testBit p.1.mask i with
      | false => exact (Nat.zero_testBit i).symm
      | true =>
        rw [h.testBit_mask (List.of_mem_zip hp).1 hoperand] at hmask
        cases hmask
  have hapart : (inst.operands.zip args).Pairwise fun p q => p.1.Apart q.1 := by
    rw [← List.pairwise_map, hfst]
    exact h.apart
  rw [extract_eq_read (fun o ho => (h.operand o ho).2.1), (h.inWord_filled args).toNat_wordOf]
  congr 1
  generalize hopcode : filled inst.pattern (inst.operands.zip args) = opcode
  calc inst.operands.map (·.read opcode)
      = ((inst.operands.zip args).map Prod.fst).map (·.read opcode) := by rw [hfst]
    _ = (inst.operands.zip args).map fun p => p.1.read opcode := List.map_map
    _ = (inst.operands.zip args).map Prod.snd := by
        apply List.map_congr_left
        intro p hp
        rw [Operand.read, ← hopcode, and_filled hpattern hapart hp, Operand.placed_shiftRight]
        exact hfits p hp
    _ = args := hsnd

/-! ## Encoding what was read -/

/-- The bits of a word that an instruction looks at. -/
def looked (inst : Instruction) : Int := inst.operands.foldl (fun bits o => Bits.or bits o.mask) inst.mask

end Instruction

namespace Operand

/-- Does the mask leave alone the bits that are cut off when it is moved down? -/
def IsFlush (o : Operand) : Prop := o.limit <<< o.shift.toNat = o.mask

instance (o : Operand) : Decidable o.IsFlush := inferInstanceAs (Decidable (_ = _))

/-- The value of an operand goes back to where it was. -/
theorem IsFlush.placed_read {o : Operand} (h : o.IsFlush) (opcode : Int) :
    o.placed (o.read opcode) = Bits.and opcode o.mask := by
  apply Bits.ext
  intro i
  simp only [Operand.placed, Operand.read, Bits.testBit_and, Bits.testBit_shiftLeft, Bits.testBit_shiftRight]
  cases hmask : Bits.testBit o.mask i with
  | false => simp
  | true =>
    have hplace : o.shift.toNat ≤ i := by
      rw [← h, Bits.testBit_shiftLeft, Bool.and_eq_true, decide_eq_true_eq] at hmask
      exact hmask.1
    simp [hplace, Nat.add_sub_cancel' hplace, hmask]

/-- The value of an operand fits. -/
theorem fits_read (o : Operand) (opcode : Int) : o.Fits (o.read opcode) := by
  apply Bits.ext
  intro i
  simp [limit, read, Bits.testBit_and, Bits.testBit_shiftRight]

end Operand

theorem Bits.and_or (a b c : Int) : Bits.and a (Bits.or b c) = Bits.or (Bits.and a b) (Bits.and a c) := by
  apply Bits.ext
  intro i
  simp only [Bits.testBit_and, Bits.testBit_or, Bool.and_or_distrib_left]

/-- The operands of an opcode, put into the fixed bits, give the opcode without the bits that nothing looks at. -/
theorem filled_read {operands : List Operand} (hflush : ∀ o ∈ operands, o.IsFlush) (opcode mask : Int) :
    filled (Bits.and opcode mask) (operands.map fun o => (o, o.read opcode)) =
      Bits.and opcode (operands.foldl (fun bits o => Bits.or bits o.mask) mask) := by
  unfold filled
  induction operands generalizing mask with
  | nil => rfl
  | cons o rest ih =>
    have hrest := ih (fun o' ho' => hflush o' (List.mem_cons_of_mem o ho')) (Bits.or mask o.mask)
    rw [List.map_cons, List.foldl_cons, List.foldl_cons, (hflush o List.mem_cons_self).placed_read, ← Bits.and_or]
    exact hrest

end Chip8
