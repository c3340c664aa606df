import Chip8.Proofs.Decoder.Encode
import Chip8.Proofs.Instruction.Family

/-!
# Encoding and decoding the instruction set

Every operand of the instruction set is a run of ones in its mask, so the values that fit are those from zero up to the
mask moved to the end of the word. The operands of an instruction have all the bits that its mask leaves open, except
that the two shifts ignore the third digit. Main statement: `encode_decode_standard`.
-/

namespace Chip8

namespace Instruction

/-! ## The shape of the set -/

theorem isTidy_of_mem_all {inst : Instruction} (h : inst ∈ all) : inst.IsTidy := by
  have hnarrow : ∀ inst ∈ all, inst.IsNarrow ∧ inst.patternLeavesMask = false := by decide
  have hoperand : ∀ inst ∈ all, ∀ o ∈ inst.operands,
      Bits.InWord o.mask ∧ 0 ≤ o.shift ∧ Bits.and o.mask inst.mask = 0 := by decide
  have hapart : ∀ inst ∈ all, inst.operands.Pairwise Operand.Apart := by decide
  exact ⟨(hnarrow inst h).1, (hnarrow inst h).2, hoperand inst h, hapart inst h⟩

theorem operand_of_mem_all : ∀ inst ∈ all, ∀ o ∈ inst.operands, o.IsNear ∧ o.IsFlush ∧
    ∃ width ∈ List.range 13, o.limit = ((2 ^ width - 1 : Nat) : Int) := by
  decide

/-- Only the two shifts leave bits of the word aside. -/
theorem looked_of_mem_all : ∀ inst ∈ all,
    inst.looked = if inst.op = .shiftRight ∨ inst.op = .shiftLeft then 0xFF0F else 0xFFFF := by
  decide

theorem find?_op_of_mem_all : ∀ inst ∈ all, all.find? (·.op == inst.op) = some inst := by decide

/-- The instruction that matches a word is the one that decoding finds. -/
theorem find?_of_covers {inst : Instruction} (h : inst ∈ all) {w : UInt16} (hw : inst.Covers w) :
    all.find? (·.matchesWord w) = some inst := by
  have hsome : (all.find? (·.matchesWord w)).isSome = true := List.find?_isSome.2 ⟨inst, h, matchesWord_iff.2 hw⟩
  obtain ⟨first, hfind⟩ := Option.isSome_iff_exists.1 hsome
  have hop : first.op = inst.op := Op.eq_of_has (has_of_find? hfind) ((covers_iff_family h w).1 hw)
  have hfirst := find?_op_of_mem_all first (List.mem_of_find?_eq_some hfind)
  rw [hop, find?_op_of_mem_all inst h] at hfirst
  rw [hfind, Option.some.inj hfirst]

/-- Do the arguments go with the instruction: one for each operand, and each in the range of its operand? -/
def Takes (inst : Instruction) (args : List Int) : Prop :=
  args.length = inst.operands.length ∧ ∀ p ∈ inst.operands.zip args, 0 ≤ p.2 ∧ p.2 ≤ p.1.mask >>> p.1.shift.toNat

theorem fits_iff {inst : Instruction} (h : inst ∈ all) {o : Operand} (ho : o ∈ inst.operands) (v : Int) :
    o.Fits v ↔ 0 ≤ v ∧ v ≤ o.mask >>> o.shift.toNat := by
  obtain ⟨-, -, width, -, hlimit⟩ := operand_of_mem_all inst h o ho
  have hmask : o.mask >>> o.shift.toNat = ((2 ^ width - 1 : Nat) : Int) := hlimit
  rw [Operand.Fits, hlimit, hmask]
  exact Bits.and_ones_eq_self_iff

theorem takes_iff {inst : Instruction} (h : inst ∈ all) (args : List Int) :
    inst.Takes args ↔ args.length = inst.operands.length ∧ ∀ p ∈ inst.operands.zip args, p.1.Fits p.2 := by
  refine and_congr_right fun _ => forall_congr' fun p => forall_congr' fun hp => ?_
  exact (fits_iff h (List.of_mem_zip hp).1 p.2).symm

end Instruction

namespace Decoder

open Instruction (all Takes)

variable {inst : Instruction}

theorem encode_standard (h : inst ∈ all) (args : List Int) :
    standard.encode inst.op args =
      if args.length = inst.operands.length then
        match misfit? (inst.operands.zip args) with
        | none => .ok (filled inst.pattern (inst.operands.zip args))
        | some p => .error (.operandTooWide inst.op.name p.2 p.1.mask)
      else .error (.operandCount inst.op.name inst.operands.length args.length) := by
  have hfind : standard.table.find? (·.op == inst.op) = some inst := Instruction.find?_op_of_mem_all inst h
  have hlookup : standard.lookup inst.op = .ok inst := by rw [lookup, hfind]
  have hnear : ∀ p ∈ inst.operands.zip args, p.1.IsNear := by
    intro p hp
    exact (Instruction.operand_of_mem_all inst h p.1 (List.of_mem_zip hp).1).1
  have hencode : standard.encode inst.op args =
      if args.length = inst.operands.length then insertAll inst.op.name inst.pattern (inst.operands.zip args)
      else .error (.operandCount inst.op.name inst.operands.length args.length) := by
    rw [encode, hlookup]
    rfl
  rw [hencode]
  by_cases hlen : args.length = inst.operands.length
  · rw [if_pos hlen, if_pos hlen]
    exact insertAll_eq inst.op.name inst.pattern hnear
  · rw [if_neg hlen, if_neg hlen]

theorem encode_of_takes (h : inst ∈ all) {args : List Int} (htakes : inst.Takes args) :
    standard.encode inst.op args = .ok (filled inst.pattern (inst.operands.zip args)) := by
  obtain ⟨hlen, hfits⟩ := (Instruction.takes_iff h args).1 htakes
  rw [encode_standard h, if_pos hlen, misfit?_eq_none_iff.2 hfits]

theorem encode_of_not_takes (h : inst ∈ all) {args : List Int} (htakes : ¬ inst.Takes args) :
    ∃ m : Mishap, standard.encode inst.op args = .error m ∧ m.kind = .value := by
  rw [encode_standard h]
  by_cases hlen : args.length = inst.operands.length
  · rw [if_pos hlen]
    cases hmisfit : misfit? (inst.operands.zip args) with
    | some p => exact ⟨_, rfl, rfl⟩
    | none => exact absurd ((Instruction.takes_iff h args).2 ⟨hlen, misfit?_eq_none_iff.1 hmisfit⟩) htakes
  · rw [if_neg hlen]
    exact ⟨_, rfl, rfl⟩

/-- Encoding gives one opcode at most, and only for arguments that the instruction takes. -/
theorem takes_of_encode (h : inst ∈ all) {args : List Int} {opcode : Int}
    (hopcode : standard.encode inst.op args = .ok opcode) :
    inst.Takes args ∧ opcode = filled inst.pattern (inst.operands.zip args) := by
  by_cases htakes : inst.Takes args
  · rw [encode_of_takes h htakes] at hopcode
    exact ⟨htakes, (Except.ok.inj hopcode).symm⟩
  · obtain ⟨m, hm, -⟩ := encode_of_not_takes h htakes
    rw [hm] at hopcode
    cases hopcode

/-- What was encoded is decoded to the same instruction and the same arguments. -/
theorem decode_filled (h : inst ∈ all) {args : List Int} (htakes : inst.Takes args) :
    standard.decode (filled inst.pattern (inst.operands.zip args)) =
      .ok ⟨inst, args, wordOf (filled inst.pattern (inst.operands.zip args))⟩ := by
  obtain ⟨hlen, hfits⟩ := (Instruction.takes_iff h args).1 htakes
  have htidy := Instruction.isTidy_of_mem_all h
  have hfind := Instruction.find?_of_covers h (htidy.covers_filled args)
  have hargs := htidy.extract_filled hlen hfits
  simp only [standard, decode_build, hfind, hargs]

/-- What was decoded is encoded to the bits of the word that the instruction looked at. -/
theorem encode_decoded {opcode : Int} {d : Decoded} (hd : standard.decode opcode = .ok d) :
    d.instruction ∈ all ∧
      standard.encode d.instruction.op d.args = .ok (Bits.and (opcode % 65536) d.instruction.looked) := by
  rw [standard, decode_build] at hd
  cases hfind : all.find? (·.matchesWord (wordOf opcode)) with
  | none => simp [hfind] at hd
  | some inst =>
    have h := List.mem_of_find?_eq_some hfind
    have hcovers : inst.Covers (wordOf opcode) := by simpa [Instruction.matchesWord_iff] using List.find?_some hfind
    have hshift : ∀ o ∈ inst.operands, 0 ≤ o.shift := fun o ho => ((Instruction.isTidy_of_mem_all h).operand o ho).2.1
    have hargs := Instruction.extract_eq_read hshift (wordOf opcode)
    rw [toNat_wordOf] at hargs
    simp only [hfind, hargs] at hd
    obtain rfl := Except.ok.inj hd
    refine ⟨h, ?_⟩
    have htakes : inst.Takes (inst.operands.map (·.read (opcode % 65536))) := by
      refine ⟨List.length_map _, ?_⟩
      intro p hp
      rw [← List.map_prod_left_eq_zip, List.mem_map] at hp
      obtain ⟨o, ho, rfl⟩ := hp
      exact (Instruction.fits_iff h ho _).1 (o.fits_read _)
    have hflush : ∀ o ∈ inst.operands, o.IsFlush := fun o ho => (Instruction.operand_of_mem_all inst h o ho).2.1
    rw [Instruction.Covers, toNat_wordOf] at hcovers
    rw [encode_of_takes h htakes, ← List.map_prod_left_eq_zip, ← hcovers, filled_read hflush]
    rfl

/-- **Encoding and decoding are inverse to each other.** For every operation and every list of arguments, encoding
gives an opcode if and only if the instruction takes the arguments, and else it fails on a value. The opcode fits a
word and is decoded to the same operation and arguments. Conversely, what an opcode was decoded to is encoded to the
opcode modulo 65536; of the two shifts the third digit comes back as zero. -/
theorem encode_decode_standard :
    (∀ op args, ∃ inst ∈ all, inst.op = op ∧
      ((∃ opcode, standard.encode op args = .ok opcode) ↔ inst.Takes args) ∧
      (¬ inst.Takes args → ∃ m : Mishap, standard.encode op args = .error m ∧ m.kind = .value) ∧
      ∀ opcode, standard.encode op args = .ok opcode →
        0 ≤ opcode ∧ opcode ≤ 0xFFFF ∧ standard.decode opcode = .ok ⟨inst, args, wordOf opcode⟩) ∧
    ∀ opcode d, standard.decode opcode = .ok d →
      standard.encode d.instruction.op d.args =
        .ok (if d.instruction.op = .shiftRight ∨ d.instruction.op = .shiftLeft then Bits.and (opcode % 65536) 0xFF0F
          else opcode % 65536) := by
  refine ⟨?_, ?_⟩
  · intro op args
    obtain ⟨inst, h, rfl⟩ := Instruction.exists_mem_all op
    refine ⟨inst, h, rfl, ⟨?_, ?_⟩, encode_of_not_takes h, ?_⟩
    · rintro ⟨opcode, hopcode⟩
      exact (takes_of_encode h hopcode).1
    · intro htakes
      exact ⟨_, encode_of_takes h htakes⟩
    · intro opcode hopcode
      obtain ⟨htakes, rfl⟩ := takes_of_encode h hopcode
      obtain ⟨hlow, hhigh⟩ := (Instruction.isTidy_of_mem_all h).inWord_filled args
      exact ⟨hlow, hhigh, decode_filled h htakes⟩
  · intro opcode d hd
    obtain ⟨h, hencode⟩ := encode_decoded hd
    rw [hencode, Instruction.looked_of_mem_all _ h]
    split
    · rfl
    · have hrange : 0 ≤ opcode % 65536 ∧ opcode % 65536 ≤ ((2 ^ 16 - 1 : Nat) : Int) := by omega
      exact congrArg Except.ok (Bits.and_ones_eq_self_iff.2 hrange)

end Decoder

end Chip8
