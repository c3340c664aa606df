import Chip8.Proofs.Decoder.Scan
import Chip8.Proofs.Instruction.Shadow

/-!
# Reachable entries

The check of a table is meant to see to it that decoding can reach every entry. It looks at entries two at a time, and
of any two it makes sure that the later one has a word which the earlier one does not match. That is enough as long as
an entry meets at most one of those before it (`resolvesTo_of_meets_one`). It is not enough in general: two earlier
entries can share the words of a third one between them, as in the table `crowded`. Main statement:
`checked_reachable`.
-/

namespace Chip8

namespace Instruction

/-! ## Two at a time -/

theorem shadowedPair?_eq_none_iff {table : List Instruction} :
    shadowedPair? table = none ↔ table.Pairwise fun earlier later => earlier.shadows later = false := by
  induction table with
  | nil => simp [shadowedPair?]
  | cons earlier rest ih =>
    rw [shadowedPair?, List.pairwise_cons, ← ih]
    cases hfind : rest.find? earlier.shadows with
    | none =>
      have hfree : ∀ later ∈ rest, earlier.shadows later = false := by simpa using hfind
      exact ⟨fun h => ⟨hfree, h⟩, And.right⟩
    | some later =>
      have hshadows := List.find?_some hfind
      simp only [reduceCtorEq, false_iff]
      intro h
      have hfree := h.1 later (List.mem_of_find?_eq_some hfind)
      rw [hshadows] at hfree
      cases hfree

theorem patternLeavesMask_of_flaw? {inst : Instruction} (h : inst.flaw? = none) : inst.patternLeavesMask = false := by
  cases hpattern : inst.patternLeavesMask with
  | false => rfl
  | true => simp [flaw?, hpattern] at h

/-- Have the two instructions a word in common? -/
def Meets (a b : Instruction) : Prop := ∃ w, a.Covers w ∧ b.Covers w

end Instruction

namespace Decoder

theorem checkOrder_of_ofTable {table : List Instruction} {d : Decoder} (h : ofTable table = .ok d) :
    Instruction.checkOrder table = .ok () := by
  rw [ofTable] at h
  cases hcheck : Instruction.checkOrder table with
  | error e => simp [hcheck, Except.map] at h
  | ok u => rfl

/-! ## Resolving to an entry -/

/-- Decoding resolves the word to the entry at a position: the entry is the first one that matches, and the operands
are those that it cuts out. -/
structure ResolvesTo (d : Decoder) (w : UInt16) (j : Nat) : Prop where
  first : d.table.findIdx? (·.matchesWord w) = some j
  decode : ∃ inst, d.table[j]? = some inst ∧
    d.decode w.toNat = match inst.extract w with
      | .ok args => .ok ⟨inst, args, w⟩
      | .error m => .error (.mishap m)

variable {table : List Instruction} {j : Nat}

theorem resolvesTo_iff (hj : j < table.length) (w : UInt16) :
    (build table).ResolvesTo w j ↔ table[j].Covers w ∧ ∀ i (hi : i < j), ¬ table[i].Covers w := by
  have hfirst : table.findIdx? (·.matchesWord w) = some j ↔
      table[j].Covers w ∧ ∀ i (hi : i < j), ¬ table[i].Covers w := by
    rw [List.findIdx?_eq_some_iff_getElem]
    simp only [Instruction.matchesWord_iff]
    exact ⟨fun ⟨_, h⟩ => h, fun h => ⟨hj, h⟩⟩
  refine ⟨fun h => hfirst.1 h.first, fun h => ⟨hfirst.2 h, table[j], List.getElem?_eq_getElem hj, ?_⟩⟩
  have hfind : table.find? (·.matchesWord w) = some table[j] := by
    rw [List.find?_eq_some_iff_getElem]
    refine ⟨Instruction.matchesWord_iff.2 h.1, j, hj, rfl, fun i hi => ?_⟩
    have hmiss : ¬ table[i].matchesWord w = true := fun hi' => h.2 i hi (Instruction.matchesWord_iff.1 hi')
    simpa using hmiss
  cases hargs : table[j].extract w <;> simp only [decode_build, wordOf_natCast, hfind, hargs]

section Checked

variable (hd : Instruction.checkOrder table = .ok ()) (hnarrow : ∀ inst ∈ table, inst.IsNarrow)
include hd hnarrow

theorem covers_pattern_of_checked (hj : j < table.length) : table[j].Covers (wordOf table[j].pattern) := by
  have hmem := List.getElem_mem hj
  have hflaw := (Instruction.checkOrder_eq_ok_iff.1 hd).1 table[j] hmem
  exact Instruction.covers_pattern (hnarrow _ hmem) (Instruction.patternLeavesMask_of_flaw? hflaw)

/-- Of two entries of a checked table the later one has a word of its own. -/
theorem exists_word_of_checked (hj : j < table.length) {i : Nat} (hi : i < j) :
    ∃ w, table[j].Covers w ∧ ¬ table[i].Covers w := by
  obtain ⟨hflaw, hpairs⟩ := Instruction.checkOrder_eq_ok_iff.1 hd
  have hfree := List.pairwise_iff_getElem.1 (Instruction.shadowedPair?_eq_none_iff.1 hpairs) i j (by omega) hj hi
  have hmem := List.getElem_mem hj
  exact Instruction.exists_word_of_not_shadows (hnarrow _ (List.getElem_mem _)) (hnarrow _ hmem)
    (Instruction.patternLeavesMask_of_flaw? (hflaw _ hmem)) hfree

/-- An entry that meets at most one of those before it is reached. -/
theorem resolvesTo_of_meets_one (hj : j < table.length)
    (hone : ∀ i i' (hi : i < j) (hi' : i' < j), table[i].Meets table[j] → table[i'].Meets table[j] → i = i') :
    ∃ w, (build table).ResolvesTo w j := by
  by_cases hmeets : ∃ i, ∃ hi : i < j, table[i].Meets table[j]
  · obtain ⟨i, hi, hmeet⟩ := hmeets
    obtain ⟨w, hw, hmiss⟩ := exists_word_of_checked hd hnarrow hj hi
    refine ⟨w, (resolvesTo_iff hj w).2 ⟨hw, fun i' hi' hcovers => hmiss ?_⟩⟩
    obtain rfl := hone i i' hi hi' hmeet ⟨w, hcovers, hw⟩
    exact hcovers
  · refine ⟨wordOf table[j].pattern, (resolvesTo_iff hj _).2 ⟨covers_pattern_of_checked hd hnarrow hj, ?_⟩⟩
    intro i hi hcovers
    exact hmeets ⟨i, hi, _, hcovers, covers_pattern_of_checked hd hnarrow hj⟩

end Checked

/-- **What the check of a table guarantees.** Every entry has, for each single one before it, a word that this one does
not match. Decoding reaches the entry if and only if one word will do for all of them, and so it does whenever the
entry meets at most one of those before it. -/
theorem checked_reachable {d : Decoder} (hd : ofTable table = .ok d) (hnarrow : ∀ inst ∈ table, inst.IsNarrow)
    (hj : j < table.length) :
    (∀ i (hi : i < j), ∃ w, table[j].Covers w ∧ ¬ table[i].Covers w) ∧
    ((∃ w, d.ResolvesTo w j) ↔ ∃ w, table[j].Covers w ∧ ∀ i (hi : i < j), ¬ table[i].Covers w) ∧
    ((∀ i i' (hi : i < j) (hi' : i' < j), table[i].Meets table[j] → table[i'].Meets table[j] → i = i') →
      ∃ w, d.ResolvesTo w j) := by
  have hcheck := checkOrder_of_ofTable hd
  obtain rfl := eq_build_of_ofTable hd
  refine ⟨fun i hi => exists_word_of_checked hcheck hnarrow hj hi, ?_, resolvesTo_of_meets_one hcheck hnarrow hj⟩
  simp only [resolvesTo_iff hj]

/-- A table whose last entry takes what the first one leaves. -/
def layered : List Instruction :=
  [⟨.clear, 0xFFFF, 0x00E0, [], [.text "CLS"]⟩, ⟨.jump, 0xF000, 0x0000, [⟨0x0FFF, 0⟩], [.text "SYS"]⟩]

theorem checked_reachable_layered : ∃ w, (build layered).ResolvesTo w 1 := by
  have hd : ofTable layered = .ok (build layered) := rfl
  have hlaw := checked_reachable hd (by decide) (show 1 < layered.length by decide)
  exact hlaw.2.2 fun i i' hi hi' _ _ => by omega

/-- A table whose first two entries have every word between them. -/
def crowded : List Instruction :=
  [⟨.clear, 0x0001, 0x0000, [], [.text "CLS"]⟩, ⟨.ret, 0x0001, 0x0001, [], [.text "RET"]⟩,
   ⟨.jump, 0x0002, 0x0000, [], [.text "JP"]⟩]

/-- **A checked table may have an entry that is never reached.** Every word is even or odd, so none is left for the
last of the three entries, and yet the check accepts the table. -/
theorem crowded_unreachable :
    ofTable crowded = .ok (build crowded) ∧ (∀ inst ∈ crowded, inst.IsNarrow) ∧
      ∀ w, ¬ (build crowded).ResolvesTo w 2 := by
  refine ⟨rfl, by decide, fun w h => ?_⟩
  have hfree := ((resolvesTo_iff (by decide : 2 < crowded.length) w).1 h).2
  have hlast : Bits.and (w.toNat : Int) 1 = ((w.toNat % 2 : Nat) : Int) := congrArg _ (Nat.and_one_is_mod w.toNat)
  have heven : ¬ Bits.and (w.toNat : Int) 1 = 0 := hfree 0 (by decide)
  have hodd : ¬ Bits.and (w.toNat : Int) 1 = 1 := hfree 1 (by decide)
  omega

end Decoder

end Chip8
