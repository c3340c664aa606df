import Chip8.Proofs.Decoder.Reachable
import Chip8.Proofs.Decoder.RoundTrip
import Mathlib.Data.List.Nodup

/-!
# The instruction set in any order

In a table the first match wins, so as a rule its order matters, to decoding and to the check that comes before it.
Where no word belongs to two entries it matters to neither: no entry can be shadowed (`checkOrder_of_apart`), and there
is no second match to choose from. The instruction set is such a table, and so is whatever is picked from it
(`find?_of_subset`). Main statement: `decode_rearranged`.
-/

namespace Chip8

namespace Instruction

variable {table : List Instruction}

/-! ## Tables without a common word -/

/-- An instruction that has its own pattern as a word can be shadowed only by one that it meets. -/
theorem not_shadows_of_not_meets {earlier later : Instruction} (hnarrow : later.IsNarrow)
    (hpattern : later.patternLeavesMask = false) (h : ¬ earlier.Meets later) : earlier.shadows later = false := by
  cases hshadows : earlier.shadows later with
  | false => rfl
  | true =>
    have hown := covers_pattern hnarrow hpattern
    exact absurd ⟨_, covers_of_shadows hshadows hown, hown⟩ h

/-- **A table without a common word is in order**, as long as its entries are well formed. -/
theorem checkOrder_of_apart (hnarrow : ∀ inst ∈ table, inst.IsNarrow) (hflaw : ∀ inst ∈ table, inst.flaw? = none)
    (happart : table.Pairwise fun a b => ¬ a.Meets b) : checkOrder table = .ok () := by
  refine checkOrder_eq_ok_iff.2 ⟨hflaw, shadowedPair?_eq_none_iff.2 ?_⟩
  refine happart.imp_of_mem ?_
  intro earlier later _ hlater h
  exact not_shadows_of_not_meets (hnarrow later hlater) (patternLeavesMask_of_flaw? (hflaw later hlater)) h

/-! ## The instruction set -/

theorem flaw?_of_mem_all {inst : Instruction} (h : inst ∈ all) : inst.flaw? = none :=
  (checkOrder_eq_ok_iff.1 (Decoder.checkOrder_of_ofTable Decoder.standard_eq)).1 inst h

theorem nodup_all : all.Nodup := List.Nodup.of_map (·.op) (by rw [map_op_all]; decide)

/-- Two instructions of the set that meet are the same. -/
theorem eq_of_meets {a b : Instruction} (ha : a ∈ all) (hb : b ∈ all) (h : a.Meets b) : a = b := by
  obtain ⟨w, hwa, hwb⟩ := h
  exact Option.some.inj ((find?_of_covers ha hwa).symm.trans (find?_of_covers hb hwb))

variable (hset : ∀ inst ∈ table, inst ∈ all)
include hset

theorem apart_of_subset (hdistinct : table.Nodup) : table.Pairwise fun a b => ¬ a.Meets b := by
  refine List.Pairwise.imp_of_mem ?_ hdistinct
  intro a b ha hb hne hmeets
  exact hne (eq_of_meets (hset a ha) (hset b hb) hmeets)

/-- What is picked from the set matches a word with the instruction of the set, or not at all. -/
theorem find?_of_subset (w : UInt16) :
    table.find? (·.matchesWord w) = (all.find? (·.matchesWord w)).filter (· ∈ table) := by
  cases hfind : table.find? (·.matchesWord w) with
  | some inst =>
    have hmem := List.mem_of_find?_eq_some hfind
    have hcovers : inst.Covers w := matchesWord_iff.1 (by simpa using List.find?_some hfind)
    rw [find?_of_covers (hset inst hmem) hcovers, Option.filter_some, if_pos (by simpa using hmem)]
  | none =>
    have hnone := List.find?_eq_none.1 hfind
    symm
    rw [Option.filter_eq_none_iff]
    intro inst hall hmem
    have hmatch : inst.matchesWord w = true := by simpa using List.find?_some hall
    exact hnone inst (by simpa using hmem) hmatch

end Instruction

namespace Decoder

variable {table : List Instruction}

/-- **The instruction set does not depend on its order.** Whatever is picked from it, each instruction once and in any
order, makes a decoder. An opcode that the decoder of the whole set resolves to one of them is resolved to the same
instruction and the same operands; any other opcode is unknown. -/
theorem decode_rearranged (hset : ∀ inst ∈ table, inst ∈ Instruction.all) (hdistinct : table.Nodup) :
    ∃ d, ofTable table = .ok d ∧ ∀ opcode,
      (∀ decoded, standard.decode opcode = .ok decoded → decoded.instruction ∈ table →
        d.decode opcode = .ok decoded) ∧
      ((∀ decoded, standard.decode opcode = .ok decoded → decoded.instruction ∉ table) →
        d.decode opcode =
          .error (.fault { cause := .noInstruction (opcode % 65536), opcode := some (opcode % 65536) })) := by
  have hcheck : Instruction.checkOrder table = .ok () :=
    Instruction.checkOrder_of_apart (fun inst h => (Instruction.isTidy_of_mem_all (hset inst h)).narrow)
      (fun inst h => Instruction.flaw?_of_mem_all (hset inst h)) (Instruction.apart_of_subset hset hdistinct)
  refine ⟨build table, by rw [ofTable, hcheck]; rfl, fun opcode => ?_⟩
  have hunknown : unknown (wordOf opcode) =
      .fault { cause := .noInstruction (opcode % 65536), opcode := some (opcode % 65536) } := by
    rw [unknown, toNat_wordOf]
  rw [← hunknown, decode_build, standard, decode_build, Instruction.find?_of_subset hset]
  cases hfind : Instruction.all.find? (·.matchesWord (wordOf opcode)) with
  | none =>
    refine ⟨?_, fun _ => rfl⟩
    intro decoded hdecoded
    cases hdecoded
  | some inst =>
    have hargs := Instruction.extract_of_mem_all (List.mem_of_find?_eq_some hfind) (wordOf opcode)
    simp only [hargs, Except.ok.injEq, forall_eq']
    constructor
    · intro hmem
      rw [Option.filter_some, if_pos (by simpa using hmem)]
      simp only [hargs]
    · intro hmem
      rw [Option.filter_some, if_neg (by simpa using hmem)]

/-- The instruction set backwards, without its first two instructions. -/
def backwards : List Instruction := (Instruction.all.drop 2).reverse

theorem decode_rearranged_backwards :
    (∀ inst ∈ backwards, inst ∈ Instruction.all) ∧ backwards.Nodup ∧ ∃ d, ofTable backwards = .ok d ∧
      (∃ decoded, d.decode 0x18AB5 = .ok decoded ∧ decoded.instruction.op = .subReg ∧ decoded.args = [0xA, 0xB]) ∧
      d.decode 0x00EE = .error (.fault { cause := .noInstruction 0xEE, opcode := some 0xEE }) := by
  have hset : ∀ inst ∈ backwards, inst ∈ Instruction.all :=
    fun inst h => List.mem_of_mem_drop (List.mem_reverse.1 h)
  have hdistinct : backwards.Nodup := List.nodup_reverse.2 (Instruction.nodup_all.sublist (List.drop_sublist 2 _))
  obtain ⟨d, hd, hdecode⟩ := decode_rearranged hset hdistinct
  refine ⟨hset, hdistinct, d, hd, ⟨⟨⟨.subReg, 0xF00F, 0x8005, [Instruction.regX, Instruction.regY],
    Instruction.withRegs "SUB"⟩, [0xA, 0xB], 0x8AB5⟩, ?_, rfl, rfl⟩, ?_⟩
  · exact (hdecode 0x18AB5).1 _ (by decide +kernel) (by decide +kernel)
  · refine (hdecode 0x00EE).2 fun decoded hdecoded => ?_
    have hop : decoded.instruction.op = .ret :=
      Op.eq_of_has (has_of_decode (w := 0x00EE) hdecoded).1 (show Op.ret.family.Has 0x00EE from ⟨by decide, by decide⟩)
    have hother : ∀ inst ∈ backwards, inst.op ≠ .ret := by decide
    exact fun hmem => hother _ hmem hop

end Decoder

end Chip8
