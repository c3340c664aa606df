import Chip8.Proofs.Decoder.Reachable

/-!
# Tables in order

The check of a table looks at masks and patterns only. What it finds out is a matter of bits and words: whether a
pattern has a bit that its mask leaves open, whether an operand has one that the mask fixes, and whether all words of an
entry belong to an earlier one. `InOrder` says this without the check. Main statement: `checkOrder_iff_inOrder`, by
which the check accepts the tables in order and no others, and what it refuses a table for is true of it.
-/

namespace Chip8

namespace Instruction

variable {inst : Instruction} {table : List Instruction}

/-! ## Single instructions -/

theorem eq_zero_iff_testBit {n : Int} : n = 0 ↔ ∀ i, Bits.testBit n i = false := by
  constructor
  · rintro rfl i
    exact Nat.zero_testBit i
  · intro h
    apply Bits.ext
    intro i
    rw [h i]
    exact (Nat.zero_testBit i).symm

/-- No operand has a bit that the mask fixes. -/
theorem overlapsMask_eq_false_iff {o : Operand} :
    inst.overlapsMask o = false ↔ ∀ i, Bits.testBit o.mask i = true → Bits.testBit inst.mask i = false := by
  simp only [overlapsMask, bne_eq_false_iff_eq, eq_zero_iff_testBit, Bits.testBit_and, Bool.and_eq_false_imp]

/-- A pattern inside its mask passes, whatever the size of both. -/
theorem patternLeavesMask_eq_false (h : ∀ i, Bits.testBit inst.pattern i = true → Bits.testBit inst.mask i = true) :
    inst.patternLeavesMask = false := by
  simp only [patternLeavesMask, bne_eq_false_iff_eq, eq_zero_iff_testBit, Bits.testBit_and, Bits.testBit_not]
  intro i
  cases hbit : Bits.testBit inst.pattern i with
  | false => rfl
  | true => simp [h i hbit]

theorem flaw?_eq_none_iff (hnarrow : inst.IsNarrow) :
    inst.flaw? = none ↔
      (∀ i, Bits.testBit inst.pattern i = true → Bits.testBit inst.mask i = true) ∧
        ∀ o ∈ inst.operands, ∀ i, Bits.testBit o.mask i = true → Bits.testBit inst.mask i = false := by
  simp only [← overlapsMask_eq_false_iff]
  constructor
  · intro h
    have hpattern := patternLeavesMask_of_flaw? h
    refine ⟨fun i hbit => testBit_mask_of_pattern hnarrow hpattern hbit, ?_⟩
    simpa [flaw?, hpattern] using h
  · rintro ⟨hpattern, hoperands⟩
    simpa [flaw?, patternLeavesMask_eq_false hpattern] using hoperands

/-! ## Tables -/

/-- A table in order: patterns lie inside their masks and operands outside them, and of any two entries the later one
has a word of its own. -/
structure InOrder (table : List Instruction) : Prop where
  pattern : ∀ inst ∈ table, ∀ i, Bits.testBit inst.pattern i = true → Bits.testBit inst.mask i = true
  operand : ∀ inst ∈ table, ∀ o ∈ inst.operands, ∀ i,
    Bits.testBit o.mask i = true → Bits.testBit inst.mask i = false
  own : ∀ i j (hi : i < j) (hj : j < table.length), ¬ ∀ w, table[j].Covers w → table[i].Covers w

/-- What an error says of a table. -/
def OrderError.IsTrueOf (table : List Instruction) : OrderError → Prop
  | patternOutsideMask inst =>
    inst ∈ table ∧ ∃ i, Bits.testBit inst.pattern i = true ∧ Bits.testBit inst.mask i = false
  | operandOverlap inst operand =>
    inst ∈ table ∧ operand ∈ inst.operands ∧
      ∃ i, Bits.testBit operand.mask i = true ∧ Bits.testBit inst.mask i = true
  | shadowed later earlier =>
    ∃ i j : Nat, i < j ∧ table[i]? = some earlier ∧ table[j]? = some later ∧ ∀ w, later.Covers w → earlier.Covers w

theorem isTrueOf_of_flaw? {e : OrderError} (hmem : inst ∈ table) (h : inst.flaw? = some e) : e.IsTrueOf table := by
  rw [flaw?] at h
  split at h
  · next hleaves =>
    obtain rfl := Option.some.inj h
    refine ⟨hmem, ?_⟩
    by_contra hnone
    push Not at hnone
    rw [patternLeavesMask_eq_false fun i hbit => by simpa using hnone i hbit] at hleaves
    cases hleaves
  · obtain ⟨o, hfind, rfl⟩ := Option.map_eq_some_iff.1 h
    refine ⟨hmem, List.mem_of_find?_eq_some hfind, ?_⟩
    by_contra hnone
    push Not at hnone
    have hoverlaps := List.find?_some hfind
    rw [overlapsMask_eq_false_iff.2 fun i hbit => by simpa using hnone i hbit] at hoverlaps
    cases hoverlaps

theorem isTrueOf_of_shadowedPair? {e : OrderError} (h : shadowedPair? table = some e) : e.IsTrueOf table := by
  induction table with
  | nil => cases h
  | cons first rest ih =>
    rw [shadowedPair?] at h
    cases hfind : rest.find? first.shadows with
    | some later =>
      obtain rfl : OrderError.shadowed later first = e := by simpa [hfind] using h
      obtain ⟨j, hj⟩ := List.getElem?_of_mem (List.mem_of_find?_eq_some hfind)
      exact ⟨0, j + 1, by omega, rfl, hj, fun w => covers_of_shadows (List.find?_some hfind)⟩
    | none =>
      have hrest := ih (by simpa [hfind] using h)
      cases e with
      | patternOutsideMask inst => exact ⟨List.mem_cons_of_mem first hrest.1, hrest.2⟩
      | operandOverlap inst operand => exact ⟨List.mem_cons_of_mem first hrest.1, hrest.2⟩
      | shadowed later earlier =>
        obtain ⟨i, j, hij, hi, hj, hcovers⟩ := hrest
        exact ⟨i + 1, j + 1, by omega, hi, hj, hcovers⟩

/-- What a table is refused for is true of it. -/
theorem isTrueOf_of_checkOrder {e : OrderError} (h : checkOrder table = .error e) : e.IsTrueOf table := by
  rw [checkOrder] at h
  cases herror : orderError? table with
  | none => simp [herror] at h
  | some e' =>
    obtain rfl : e' = e := by simpa [herror] using h
    rw [orderError?, Option.or_eq_some_iff] at herror
    rcases herror with hflaw | ⟨-, hpair⟩
    · obtain ⟨inst, hmem, hflaw⟩ := List.exists_of_findSome?_eq_some hflaw
      exact isTrueOf_of_flaw? hmem hflaw
    · exact isTrueOf_of_shadowedPair? hpair

/-- **The check accepts the tables in order, and no others.** Masks and patterns have sixteen bits; operands may have
any. A table that is not in order is refused for something that is true of it. -/
theorem checkOrder_iff_inOrder (hnarrow : ∀ inst ∈ table, inst.IsNarrow) :
    (checkOrder table = .ok () ↔ InOrder table) ∧
      (¬ InOrder table → ∃ e, checkOrder table = .error e ∧ e.IsTrueOf table) := by
  have hiff : checkOrder table = .ok () ↔ InOrder table := by
    rw [checkOrder_eq_ok_iff, shadowedPair?_eq_none_iff, List.pairwise_iff_getElem]
    constructor
    · rintro ⟨hflaw, hpairs⟩
      have hparts (inst : Instruction) (hmem : inst ∈ table) :=
        (flaw?_eq_none_iff (hnarrow inst hmem)).1 (hflaw inst hmem)
      refine ⟨fun inst hmem => (hparts inst hmem).1, fun inst hmem => (hparts inst hmem).2, ?_⟩
      intro i j hi hj hcovers
      have hmem := List.getElem_mem hj
      have hshadows := (shadows_iff (hnarrow _ (List.getElem_mem _)) (hnarrow _ hmem)
        (patternLeavesMask_of_flaw? (hflaw _ hmem))).2 hcovers
      rw [hpairs i j (by omega) hj hi] at hshadows
      cases hshadows
    · rintro ⟨hpattern, hoperand, hown⟩
      refine ⟨fun inst hmem => ?_, fun i j hi hj hij => ?_⟩
      · exact (flaw?_eq_none_iff (hnarrow inst hmem)).2 ⟨hpattern inst hmem, hoperand inst hmem⟩
      · rw [Bool.eq_false_iff]
        exact fun hshadows => hown i j hij hj fun w => covers_of_shadows hshadows
  refine ⟨hiff, fun hnot => ?_⟩
  cases hcheck : checkOrder table with
  | ok _ => exact absurd (hiff.1 hcheck) hnot
  | error e => exact ⟨e, rfl, isTrueOf_of_checkOrder hcheck⟩

/-- A table whose second entry has all the words that its first one leaves. -/
def sheltered : List Instruction :=
  [⟨.ret, 0xFFFF, 0x00EE, [], [.text "RET"]⟩, ⟨.jump, 0xF00F, 0x000E, [⟨0x0FF0, 4⟩], [.text "JP"]⟩]

/-- The other way round the second entry is shadowed. -/
theorem checkOrder_iff_inOrder_sheltered :
    InOrder sheltered ∧ ¬ InOrder sheltered.reverse ∧
      ∃ e, checkOrder sheltered.reverse = .error e ∧ e.IsTrueOf sheltered.reverse := by
  have hforth : ∀ inst ∈ sheltered, inst.IsNarrow := by decide
  have hback : ∀ inst ∈ sheltered.reverse, inst.IsNarrow := by decide
  have hnot : ¬ InOrder sheltered.reverse := fun h => nomatch (checkOrder_iff_inOrder hback).1.2 h
  exact ⟨(checkOrder_iff_inOrder hforth).1.1 rfl, hnot, (checkOrder_iff_inOrder hback).2 hnot⟩

end Instruction

end Chip8
