import Chip8.Decoder
import Chip8.Proofs.Bits

/-!
# The jump table and the ordered scan

A decoder looks a word up in the list of its first digit only. An instruction whose mask leaves some of the first four
bits open stands in several of the sixteen lists, so the question is whether the list at hand can lack an instruction
that matches. It cannot (`admits_of_matchesWord`), and since every list keeps the order of the table, the first match
in the list is the first match in the table: `find?_candidates`. Main statement: `decode_eq_scan`.
-/

namespace Chip8

/-! ## Words of opcodes -/

/-- What an opcode shows to a mask is what its remainder modulo 65536 shows. -/
theorem Instruction.matchesWord_wordOf (inst : Instruction) (opcode : Int) :
    inst.matchesWord (wordOf opcode) = (Bits.and (opcode % 65536) inst.mask == inst.pattern) := by
  rw [Instruction.matchesWord, toNat_wordOf]

theorem mapM_eq_ok {α β ε : Type} {f : α → Except ε β} {g : α → β} :
    ∀ {l : List α}, (∀ a ∈ l, f a = .ok (g a)) → l.mapM f = .ok (l.map g)
  | [], _ => rfl
  | a :: l, h => by
    have hrest := mapM_eq_ok fun b (hb : b ∈ l) => h b (List.mem_cons_of_mem a hb)
    rw [List.mapM_cons, h a List.mem_cons_self, hrest]
    rfl

/-- What comes of two steps comes of the second, after the first has gone through. -/
theorem exists_ok_of_bind {ε α β : Type} {x : Except ε α} {f : α → Except ε β} {b : β} (h : x >>= f = .ok b) :
    ∃ a, x = .ok a ∧ f a = .ok b := by
  cases x with
  | error e => cases h
  | ok a => exact ⟨a, rfl, h⟩

/-- With no operand to be moved by a negative number of bits, the operands of a word can be cut out. -/
theorem Instruction.extract_eq_ok {inst : Instruction} (h : ∀ o ∈ inst.operands, 0 ≤ o.shift) (word : UInt16) :
    inst.extract word = .ok (inst.operands.map fun o : Operand =>
      Bits.and (word.toNat : Int) o.mask >>> o.shift.toNat) := by
  refine mapM_eq_ok fun o ho => ?_
  have := h o ho
  rw [Operand.extract, if_neg (by omega)]

namespace Decoder

/-! ## No list lacks a match -/

/-- An instruction stands in the list of the first digit of every word it matches: the bits that its mask fixes
among the first four are those of the word. -/
theorem admits_of_matchesWord {inst : Instruction} {word : UInt16} (h : inst.matchesWord word = true) :
    admits (word.toNat / 4096) inst = true := by
  have hpattern : Bits.and (word.toNat : Int) inst.mask = inst.pattern := Instruction.matchesWord_iff.1 h
  -- Bit `i` of the first digit is bit `12 + i` of the word, and a bit that the mask does not fix is cleared twice.
  simp only [admits, beq_iff_eq, ← hpattern]
  apply Bits.ext
  intro i
  have hdigit : Bits.testBit ((word.toNat / 4096 : Nat) : Int) i = Bits.testBit (word.toNat : Int) (12 + i) := by
    rw [Bits.testBit_natCast, Bits.testBit_natCast, show 4096 = 2 ^ 12 from rfl, Nat.testBit_div_two_pow, Nat.add_comm]
  simp only [Bits.testBit_and, Bits.testBit_shiftRight, hdigit]
  cases Bits.testBit inst.mask (12 + i) <;> simp

/-- The first match in the list of the first digit is the first match in the table. -/
theorem find?_candidates (table : List Instruction) (word : UInt16) :
    ((build table).candidates word).find? (·.matchesWord word) = table.find? (·.matchesWord word) := by
  rw [candidates_build, List.find?_filter]
  congr 1
  funext inst
  cases h : inst.matchesWord word with
  | false => simp
  | true => simp [admits_of_matchesWord h]

theorem find?_eq_head?_matching (table : List Instruction) (opcode : Int) :
    table.find? (·.matchesWord (wordOf opcode)) = ((build table).matching opcode).head? := by
  rw [matching, List.head?_filter]
  rfl

/-- Decoding without the jump table: the first match of the table, and its operands. -/
theorem decode_build (table : List Instruction) (opcode : Int) :
    (build table).decode opcode =
      match table.find? (·.matchesWord (wordOf opcode)) with
      | none => .error (unknown (wordOf opcode))
      | some inst => match inst.extract (wordOf opcode) with
        | .ok args => .ok ⟨inst, args, wordOf opcode⟩
        | .error m => .error (.mishap m) := by
  cases hfind : table.find? (·.matchesWord (wordOf opcode)) with
  | none => simp only [decode, find?_candidates, hfind]
  | some inst =>
    cases hargs : inst.extract (wordOf opcode) <;> simp only [decode, find?_candidates, hfind, hargs]

theorem eq_build_of_ofTable {table : List Instruction} {d : Decoder} (h : ofTable table = .ok d) : d = build table := by
  rw [ofTable] at h
  cases hc : Instruction.checkOrder table with
  | error e => simp [hc, Except.map] at h
  | ok u => simpa [hc, Except.map] using h.symm

/-! ## The scan -/

/-- **The jump table is the ordered scan.** For every table that a decoder accepts, `matching` filters the table by the
opcode modulo 65536, and decoding gives the first instruction that is left, with the operands it cuts out of that
word; if none is left, decoding gives the fault of an unknown word. -/
theorem decode_eq_scan {table : List Instruction} {d : Decoder} (hd : ofTable table = .ok d)
    (hshift : ∀ inst ∈ table, ∀ o ∈ inst.operands, 0 ≤ o.shift) (opcode : Int) :
    d.matching opcode = table.filter (fun inst => Bits.and (opcode % 65536) inst.mask == inst.pattern) ∧
    match d.matching opcode with
    | [] => d.decode opcode =
        .error (.fault { cause := .noInstruction (opcode % 65536), opcode := some (opcode % 65536) })
    | inst :: _ => ∃ decoded, d.decode opcode = .ok decoded ∧ decoded.instruction = inst ∧
        inst.extract (wordOf opcode) = .ok decoded.args ∧
        decoded.args = inst.operands.map (fun o : Operand => Bits.and (opcode % 65536) o.mask >>> o.shift.toNat) ∧
        (decoded.word.toNat : Int) = opcode % 65536 := by
  obtain rfl := eq_build_of_ofTable hd
  have hfind := find?_eq_head?_matching table opcode
  refine ⟨by simp only [matching, Instruction.matchesWord_wordOf]; rfl, ?_⟩
  cases hm : (build table).matching opcode with
  | nil =>
    simp only [hm, List.head?_nil] at hfind
    simp only [decode_build, hfind, unknown, toNat_wordOf]
  | cons inst rest =>
    simp only [hm, List.head?_cons] at hfind
    have hmem : inst ∈ table := List.mem_of_find?_eq_some hfind
    have hargs := Instruction.extract_eq_ok (hshift inst hmem) (wordOf opcode)
    refine ⟨⟨inst, _, wordOf opcode⟩, by simp only [decode_build, hfind, hargs], rfl, hargs, ?_, toNat_wordOf opcode⟩
    simp only [toNat_wordOf]

/-- A table in order in which one word can match two instructions: the first mask fixes no first bit, the second fixes
one of them, and the third is negative. -/
def overlapping : List Instruction :=
  [⟨.ret, 0x00FF, 0x00EE, [⟨0xFF00, 8⟩], [.text "RET"]⟩, ⟨.jump, 0x8000, 0x8000, [⟨0x7FFF, 0⟩], [.text "JP"]⟩,
   ⟨.call, -0x1000, 0x1000, [⟨0x0FFF, 0⟩], [.text "CALL"]⟩]

/-- The opcode stands for the word 0x90EE, which the first two instructions of the table match. -/
theorem decode_eq_scan_overlapping :
    ofTable overlapping = .ok (build overlapping) ∧ (∀ inst ∈ overlapping, ∀ o ∈ inst.operands, 0 ≤ o.shift) ∧
    ∃ decoded, (build overlapping).decode (-0x6F12) = .ok decoded ∧ decoded.instruction.op = .ret ∧
      decoded.args = [0x90] := by
  have hd : ofTable overlapping = .ok (build overlapping) := rfl
  have hshift : ∀ inst ∈ overlapping, ∀ o ∈ inst.operands, 0 ≤ o.shift := by decide
  obtain ⟨decoded, hok, hinst, -, hargs, -⟩ := (decode_eq_scan hd hshift (-0x6F12)).2
  exact ⟨hd, hshift, decoded, hok, by rw [hinst], hargs⟩

end Decoder

end Chip8
