import Chip8.Proofs.Decoder.Encode
import Chip8.Proofs.Decoder.Reachable

/-!
# Encoding with any table

The masks of operands need not be runs of ones, and their values may be moved by any number of bits. Encoding gives an
opcode only if every value comes back out of its bits, so of an opcode that it gives the values are known
(`fits_of_insertAll`). In a table that passed the check an operand has no bit of the mask, so all it needs besides is
that the operands have no bit in common; then the opcode is a word of the instruction and reads back. An earlier entry
may still have the same word, and takes it. Main statement: `decode_encoded`.
-/

namespace Chip8

/-! ## What encoding gives -/

/-- A value that was moved to its place. -/
theorem Operand.eq_placed_of_insert {o : Operand} {v bits : Int} (h : o.insert v = .ok bits) : bits = o.placed v := by
  rw [insert] at h
  split at h
  · cases h
  · cases hup : shiftedUp v o.shift.toNat with
    | error m => simp [hup, Except.map] at h
    | ok n =>
      have hn := shiftedUp_eq_ok hup
      rw [Nat.one_shiftLeft, Int.natCast_pow] at hn
      rw [hup, hn] at h
      rw [placed, Int.shiftLeft_eq]
      exact (Except.ok.inj h).symm

namespace Decoder

/-- Where encoding gives an opcode, every value fits. -/
theorem fits_of_insertAll {name : String} {opcode n : Int} {pairs : List (Operand × Int)}
    (h : insertAll name opcode pairs = .ok n) : n = filled opcode pairs ∧ ∀ p ∈ pairs, p.1.Fits p.2 := by
  induction pairs generalizing opcode with
  | nil => exact ⟨(Except.ok.inj h).symm, by simp⟩
  | cons p rest ih =>
    rw [insertAll] at h
    cases hinsert : p.1.insert p.2 with
    | error m => simp [hinsert, bind, Except.bind] at h
    | ok bits =>
      obtain rfl := Operand.eq_placed_of_insert hinsert
      simp only [hinsert, bind, Except.bind] at h
      split at h
      · next hback =>
        obtain ⟨hn, hrest⟩ := ih h
        refine ⟨hn, List.forall_mem_cons.2 ⟨?_, hrest⟩⟩
        rwa [Operand.placed_shiftRight] at hback
      · cases h

end Decoder

/-! ## Entries of a checked table -/

namespace Instruction

variable {inst : Instruction}

/-- Has the instruction masks and a pattern of sixteen bits, and no operand that is moved by a negative number? -/
def IsWordSized (inst : Instruction) : Prop :=
  inst.IsNarrow ∧ ∀ o ∈ inst.operands, Bits.InWord o.mask ∧ 0 ≤ o.shift

instance (inst : Instruction) : Decidable inst.IsWordSized := inferInstanceAs (Decidable (_ ∧ _))

/-- An instruction that passed the check is tidy if its operands stay out of each other's way. -/
theorem isTidy_of_flaw? (hsized : inst.IsWordSized) (hflaw : inst.flaw? = none)
    (hapart : inst.operands.Pairwise Operand.Apart) : inst.IsTidy where
  narrow := hsized.1
  pattern := patternLeavesMask_of_flaw? hflaw
  operand o ho := by
    obtain ⟨hmask, hshift⟩ := hsized.2 o ho
    have hfree : ∀ o ∈ inst.operands, inst.overlapsMask o = false := by
      simpa [flaw?, patternLeavesMask_of_flaw? hflaw] using hflaw
    exact ⟨hmask, hshift, by simpa [overlapsMask] using hfree o ho⟩
  apart := hapart

end Instruction

namespace Decoder

section

variable {table earlier later : List Instruction} {inst : Instruction} {args : List Int} {opcode : Int}

/-- The first instruction of an operation. -/
theorem lookup_of_first (hfirst : ∀ other ∈ earlier, other.op ≠ inst.op) :
    (build (earlier ++ inst :: later)).lookup inst.op = .ok inst := by
  have hfind : (earlier ++ inst :: later).find? (fun other => other.op == inst.op) = some inst := by
    rw [List.find?_append, List.find?_eq_none.2 (by simpa using hfirst), Option.none_or,
      List.find?_cons_of_pos (by simp)]
  simp only [lookup, build, hfind]

/-- Where the encoding of an operation gives an opcode, it is that of the values, and they fit. -/
theorem filled_of_encode (hfirst : ∀ other ∈ earlier, other.op ≠ inst.op)
    (h : (build (earlier ++ inst :: later)).encode inst.op args = .ok opcode) :
    args.length = inst.operands.length ∧ opcode = filled inst.pattern (inst.operands.zip args) ∧
      ∀ p ∈ inst.operands.zip args, p.1.Fits p.2 := by
  simp only [encode, lookup_of_first hfirst, bind, Except.bind] at h
  split at h
  · next hlen =>
    obtain ⟨hopcode, hfits⟩ := fits_of_insertAll h
    exact ⟨hlen, hopcode, hfits⟩
  · cases h

theorem decode_of_find? (hfind : table.find? (·.matchesWord (wordOf opcode)) = some inst)
    (hargs : inst.extract (wordOf opcode) = .ok args) :
    (build table).decode opcode = .ok ⟨inst, args, wordOf opcode⟩ := by
  simp only [decode_build, hfind, hargs]

/-- The first entry that has the word comes before whatever stands behind it. -/
theorem find?_of_first {w : UInt16} (hfree : ∀ other ∈ earlier, ¬ other.Covers w) (h : inst.Covers w) :
    (earlier ++ inst :: later).find? (·.matchesWord w) = some inst := by
  have hnone : earlier.find? (·.matchesWord w) = none := by
    simpa [List.find?_eq_none, Instruction.matchesWord_iff] using hfree
  rw [List.find?_append, hnone, Option.none_or]
  exact List.find?_cons_of_pos (Instruction.matchesWord_iff.2 h)

/-- **What was encoded reads back.** In a table that passed the check, take the first entry of an operation, and let its
operands have no bit in common. An opcode that its encoding gives fits a word, belongs to the entry, and reads back
as the same arguments. It is decoded to the entry if and only if no earlier entry has the word as well, and else to the
first of those. -/
theorem decode_encoded {d : Decoder} (hd : ofTable (earlier ++ inst :: later) = .ok d)
    (hsized : ∀ other ∈ earlier ++ inst :: later, other.IsWordSized)
    (hfirst : ∀ other ∈ earlier, other.op ≠ inst.op) (hapart : inst.operands.Pairwise Operand.Apart)
    (hencode : d.encode inst.op args = .ok opcode) :
    (0 ≤ opcode ∧ opcode ≤ 0xFFFF) ∧ Bits.and opcode inst.mask = inst.pattern ∧
    inst.extract (wordOf opcode) = .ok args ∧
    (d.decode opcode = .ok ⟨inst, args, wordOf opcode⟩ ↔ ∀ other ∈ earlier, ¬ other.Covers (wordOf opcode)) ∧
    ∀ front other back, earlier = front ++ other :: back → (∀ e ∈ front, ¬ e.Covers (wordOf opcode)) →
      other.Covers (wordOf opcode) →
      ∃ others, other.extract (wordOf opcode) = .ok others ∧ d.decode opcode = .ok ⟨other, others, wordOf opcode⟩ := by
  have hflaw := (Instruction.checkOrder_eq_ok_iff.1 (checkOrder_of_ofTable hd)).1
  obtain rfl := eq_build_of_ofTable hd
  have hmem : inst ∈ earlier ++ inst :: later := by simp
  have htidy := Instruction.isTidy_of_flaw? (hsized _ hmem) (hflaw _ hmem) hapart
  obtain ⟨hlen, hopcode, hfits⟩ := filled_of_encode hfirst hencode
  have hword : Bits.InWord opcode := hopcode ▸ htidy.inWord_filled args
  have hcovers : inst.Covers (wordOf opcode) := hopcode ▸ htidy.covers_filled args
  have hargs : inst.extract (wordOf opcode) = .ok args := hopcode ▸ htidy.extract_filled hlen hfits
  have hextract (other : Instruction) (hother : other ∈ earlier) :
      ∃ others, other.extract (wordOf opcode) = .ok others :=
    ⟨_, Instruction.extract_eq_read (fun o ho => ((hsized other (by simp [hother])).2 o ho).2) _⟩
  refine ⟨hword, ?_, hargs, ⟨?_, ?_⟩, ?_⟩
  · rwa [Instruction.Covers, hword.toNat_wordOf] at hcovers
  · intro hdecode other hother htakes
    -- The word goes to the first entry that has it, and that is one of another operation.
    have hsome : (earlier.find? (·.matchesWord (wordOf opcode))).isSome = true :=
      List.find?_isSome.2 ⟨other, hother, Instruction.matchesWord_iff.2 htakes⟩
    obtain ⟨first, hfind⟩ := Option.isSome_iff_exists.1 hsome
    have hmemfirst := List.mem_of_find?_eq_some hfind
    obtain ⟨others, hothers⟩ := hextract first hmemfirst
    have htable : (earlier ++ inst :: later).find? (·.matchesWord (wordOf opcode)) = some first := by
      rw [List.find?_append, hfind, Option.some_or]
    rw [decode_of_find? htable hothers] at hdecode
    exact hfirst first hmemfirst (congrArg (·.instruction.op) (Except.ok.inj hdecode))
  · intro hfree
    exact decode_of_find? (find?_of_first hfree hcovers) hargs
  · rintro front other back rfl hfree htakes
    obtain ⟨others, hothers⟩ := hextract other (by simp)
    refine ⟨others, hothers, decode_of_find? ?_ hothers⟩
    rw [List.append_assoc, List.cons_append]
    exact find?_of_first hfree htakes

end

/-- A family with one free byte in front, and one with two operands that interlock. They have words in common. -/
def interlocked : Instruction × Instruction :=
  (⟨.ret, 0x00FF, 0x00EE, [⟨0xFF00, 8⟩], [.text "RET"]⟩,
   ⟨.jump, 0x8000, 0x8000, [⟨0x50F0, 4⟩, ⟨0x2F0F, 0⟩], [.text "JP"]⟩)

/-- Of two opcodes of the second entry one is decoded to it, and the other one to the first entry. -/
theorem decode_encoded_interlocked :
    let d := build [interlocked.1, interlocked.2]
    (d.encode .jump [0x10F, 0x2A05] = .ok 0xBAF5 ∧
      d.decode 0xBAF5 = .ok ⟨interlocked.2, [0x10F, 0x2A05], wordOf 0xBAF5⟩) ∧
    d.encode .jump [0x10E, 0x2A0E] = .ok 0xBAEE ∧
      ∃ others, d.decode 0xBAEE = .ok ⟨interlocked.1, others, wordOf 0xBAEE⟩ := by
  intro d
  have hd : ofTable ([interlocked.1] ++ interlocked.2 :: []) = .ok d := rfl
  have hsized : ∀ inst ∈ [interlocked.1] ++ interlocked.2 :: [], inst.IsWordSized := by decide
  have hfirst : ∀ other ∈ [interlocked.1], other.op ≠ interlocked.2.op := by decide
  have hapart : interlocked.2.operands.Pairwise Operand.Apart := by decide
  have hfree : d.encode interlocked.2.op [0x10F, 0x2A05] = .ok 0xBAF5 := rfl
  have htaken : d.encode interlocked.2.op [0x10E, 0x2A0E] = .ok 0xBAEE := rfl
  obtain ⟨-, -, -, hown, -⟩ := decode_encoded hd hsized hfirst hapart hfree
  obtain ⟨-, -, -, -, hearlier⟩ := decode_encoded hd hsized hfirst hapart htaken
  obtain ⟨others, -, hdecode⟩ := hearlier [] interlocked.1 [] rfl (by decide) (by decide)
  exact ⟨⟨hfree, hown.2 (by decide)⟩, htaken, others, hdecode⟩

end Decoder

end Chip8
