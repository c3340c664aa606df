import Chip8.Proofs.Decoder.Scan

/-!
# Families of words

The instruction set by the digits of its words. Every mask of the set fixes the first digit and some number of last
bits, so a family is a first digit and a remainder (`covers_iff_family`), and every operand is a run of digits
(`extract_of_mem_all`). No word belongs to two families. Main statements: `ofWord?_eq_some_iff`, which says when a
word stands for an operation, and `decode_standard`, by which the decoder of the set gives that operation and its
operands.
-/

namespace Chip8

/-! ## Digits -/

namespace Word

/-- The number of the first register: the second digit. -/
def x (w : UInt16) : Nat := w.toNat / 256 % 16

/-- The number of the second register: the third digit. -/
def y (w : UInt16) : Nat := w.toNat / 16 % 16

/-- The last digit. -/
def n (w : UInt16) : Nat := w.toNat % 16

/-- The last two digits. -/
def byte (w : UInt16) : Nat := w.toNat % 256

/-- The last three digits. -/
def address (w : UInt16) : Nat := w.toNat % 4096

theorem x_lt (w : UInt16) : x w < 16 := Nat.mod_lt _ (by decide)

theorem y_lt (w : UInt16) : y w < 16 := Nat.mod_lt _ (by decide)

theorem n_lt (w : UInt16) : n w < 16 := Nat.mod_lt _ (by decide)

theorem address_lt (w : UInt16) : address w < 4096 := Nat.mod_lt _ (by decide)

end Word

/-! ## Operands -/

/-- An operand that is a run of adjacent bits is a quotient and a remainder. -/
theorem Operand.extract_field (o : Operand) (width place : Nat)
    (hmask : o.mask = (((2 ^ width - 1) <<< place : Nat) : Int)) (hshift : o.shift = place) (w : UInt16) :
    o.extract w = .ok ((w.toNat / 2 ^ place % 2 ^ width : Nat) : Int) := by
  rw [extract, if_neg (by omega), hmask, hshift, Int.toNat_natCast, Bits.and_natCast, Bits.land_field,
    ← Int.natCast_shiftRight, Nat.shiftRight_eq_div_pow, Nat.mul_div_cancel _ (Nat.two_pow_pos place)]

/-- An operand that ends with the word is a remainder. -/
theorem Operand.extract_tail (o : Operand) (width : Nat) (hmask : o.mask = ((2 ^ width - 1 : Nat) : Int))
    (hshift : o.shift = 0) (w : UInt16) : o.extract w = .ok ((w.toNat % 2 ^ width : Nat) : Int) := by
  rw [extract_field o width 0 hmask hshift, Nat.pow_zero, Nat.div_one]

namespace Instruction

theorem extract_regX (w : UInt16) : regX.extract w = .ok (Word.x w : Int) :=
  Operand.extract_field regX 4 8 rfl rfl w

theorem extract_regY (w : UInt16) : regY.extract w = .ok (Word.y w : Int) :=
  Operand.extract_field regY 4 4 rfl rfl w

theorem extract_nibble (w : UInt16) : nibble.extract w = .ok (Word.n w : Int) :=
  Operand.extract_tail nibble 4 rfl rfl w

theorem extract_byte (w : UInt16) : byte.extract w = .ok (Word.byte w : Int) :=
  Operand.extract_tail byte 8 rfl rfl w

theorem extract_address (w : UInt16) : address.extract w = .ok (Word.address w : Int) :=
  Operand.extract_tail address 12 rfl rfl w

end Instruction

/-! ## Families -/

/-- What the words of a family have in common: the first digit and the last `bits` bits. -/
structure Family where
  first : Nat
  bits : Nat := 0
  last : Nat := 0
  deriving DecidableEq, Repr

/-- Is the word one of the family? -/
def Family.Has (f : Family) (w : UInt16) : Prop := w.toNat / 4096 = f.first ∧ w.toNat % 2 ^ f.bits = f.last

namespace Op

/-- The words that stand for an operation. -/
def family : Op → Family
  | clear => ⟨0x0, 12, 0x0E0⟩
  | ret => ⟨0x0, 12, 0x0EE⟩
  | jump => ⟨0x1, 0, 0⟩
  | call => ⟨0x2, 0, 0⟩
  | skipEqByte => ⟨0x3, 0, 0⟩
  | skipNeByte => ⟨0x4, 0, 0⟩
  | skipEqReg => ⟨0x5, 4, 0x0⟩
  | setByte => ⟨0x6, 0, 0⟩
  | addByte => ⟨0x7, 0, 0⟩
  | setReg => ⟨0x8, 4, 0x0⟩
  | orReg => ⟨0x8, 4, 0x1⟩
  | andReg => ⟨0x8, 4, 0x2⟩
  | xorReg => ⟨0x8, 4, 0x3⟩
  | addReg => ⟨0x8, 4, 0x4⟩
  | subReg => ⟨0x8, 4, 0x5⟩
  | shiftRight => ⟨0x8, 4, 0x6⟩
  | subFromReg => ⟨0x8, 4, 0x7⟩
  | shiftLeft => ⟨0x8, 4, 0xE⟩
  | skipNeReg => ⟨0x9, 4, 0x0⟩
  | setIndex => ⟨0xA, 0, 0⟩
  | jumpOffset => ⟨0xB, 0, 0⟩
  | random => ⟨0xC, 0, 0⟩
  | draw => ⟨0xD, 0, 0⟩
  | skipKey => ⟨0xE, 8, 0x9E⟩
  | skipNoKey => ⟨0xE, 8, 0xA1⟩
  | readDelay => ⟨0xF, 8, 0x07⟩
  | awaitKey => ⟨0xF, 8, 0x0A⟩
  | setDelay => ⟨0xF, 8, 0x15⟩
  | setSound => ⟨0xF, 8, 0x18⟩
  | addIndex => ⟨0xF, 8, 0x1E⟩
  | glyph => ⟨0xF, 8, 0x29⟩
  | decimal => ⟨0xF, 8, 0x33⟩
  | store => ⟨0xF, 8, 0x55⟩
  | load => ⟨0xF, 8, 0x65⟩

/-- The operands that an operation takes from a word. -/
def args (op : Op) (w : UInt16) : List Int :=
  match op with
  | clear | ret => []
  | jump | call | setIndex | jumpOffset => [Word.address w]
  | skipEqByte | skipNeByte | setByte | addByte | random => [Word.x w, Word.byte w]
  | skipEqReg | skipNeReg | setReg | orReg | andReg | xorReg | addReg | subReg | subFromReg => [Word.x w, Word.y w]
  | draw => [Word.x w, Word.y w, Word.n w]
  | shiftRight | shiftLeft | skipKey | skipNoKey | readDelay | awaitKey | setDelay | setSound | addIndex | glyph
  | decimal | store | load => [Word.x w]

end Op

namespace Instruction

/-- Every operand list of the set is cut out digit by digit. -/
theorem extract_of_mem_all {inst : Instruction} (h : inst ∈ all) (w : UInt16) :
    inst.extract w = .ok (inst.op.args w) := by
  revert inst
  simp [all, extract, Op.args, extract_regX, extract_regY, extract_nibble, extract_byte, extract_address, bind,
    Except.bind, pure, Except.pure]

/-- Every mnemonic of the set has its operands. -/
theorem fits_of_mem_all {inst : Instruction} (h : inst ∈ all) (w : UInt16) :
    inst.mnemonic.fits (inst.op.args w).length = true := by
  revert inst
  simp [all, Op.args, Mnemonic.fits, withAddress, withRegByte, withRegs, withReg, withRegThen]

/-- The bits of a word under a mask of the first digit and some last bits. -/
theorem land_first_last {n k : Nat} (hn : n < 65536) (hk : k ≤ 12) :
    n &&& (0xF000 ||| (2 ^ k - 1)) = n / 4096 * 4096 + n % 2 ^ k := by
  have hfields := Bits.land_field_tail n 4 hk
  simp only [Nat.reducePow, Nat.reduceSub, Nat.reduceShiftLeft] at hfields
  rw [hfields, Nat.mod_eq_of_lt (by omega)]

/-- The masks and patterns of the set are first digits and last bits. -/
theorem mask_pattern_of_mem_all : ∀ inst ∈ all,
    inst.mask = ((0xF000 ||| (2 ^ inst.op.family.bits - 1) : Nat) : Int) ∧
    inst.pattern = ((inst.op.family.first * 4096 + inst.op.family.last : Nat) : Int) ∧
    inst.op.family.bits ≤ 12 ∧ inst.op.family.last < 2 ^ inst.op.family.bits := by
  decide

theorem covers_iff_family {inst : Instruction} (h : inst ∈ all) (w : UInt16) :
    inst.Covers w ↔ inst.op.family.Has w := by
  obtain ⟨hmask, hpattern, hbits, hlast⟩ := mask_pattern_of_mem_all inst h
  have hpow : 2 ^ inst.op.family.bits ≤ 2 ^ 12 := Nat.pow_le_pow_right (by decide) hbits
  have hmod := Nat.mod_lt w.toNat (Nat.two_pow_pos inst.op.family.bits)
  rw [Covers, hmask, hpattern, Bits.and_natCast, land_first_last w.toNat_lt hbits, Int.natCast_inj, Family.Has]
  omega

theorem exists_mem_all (op : Op) : ∃ inst ∈ all, inst.op = op :=
  List.mem_map.1 (map_op_all ▸ Op.mem_all op)

/-- The first match of the set has the word in its family. -/
theorem has_of_find? {inst : Instruction} {w : UInt16} (h : all.find? (·.matchesWord w) = some inst) :
    inst.op.family.Has w := by
  have hmatch : inst.matchesWord w = true := by simpa using List.find?_some h
  exact (covers_iff_family (List.mem_of_find?_eq_some h) w).1 (matchesWord_iff.1 hmatch)

end Instruction

/-! ## The operation of a word -/

namespace Op

/-- Two families that agree on the bits that both fix are one. -/
theorem eq_of_family_agree : ∀ a ∈ all, ∀ b ∈ all, a.family.first = b.family.first →
    a.family.last % 2 ^ min a.family.bits b.family.bits = b.family.last % 2 ^ min a.family.bits b.family.bits →
    a = b := by
  decide +kernel

/-- No word stands for two operations. -/
theorem eq_of_has {a b : Op} {w : UInt16} (ha : a.family.Has w) (hb : b.family.Has w) : a = b := by
  -- The word has the first digit of both, and the last bits of both as far as the shorter of the two masks goes.
  refine eq_of_family_agree a (mem_all a) b (mem_all b) (ha.1.symm.trans hb.1) ?_
  rw [← ha.2, ← hb.2, Nat.mod_mod_of_dvd _ (Nat.pow_dvd_pow 2 (Nat.min_le_left _ _)),
    Nat.mod_mod_of_dvd _ (Nat.pow_dvd_pow 2 (Nat.min_le_right _ _))]

/-- The operation that a word stands for. -/
def ofWord? (w : UInt16) : Option Op := (Instruction.all.find? (·.matchesWord w)).map (·.op)

theorem ofWord?_eq_some_iff {op : Op} {w : UInt16} : ofWord? w = some op ↔ op.family.Has w := by
  constructor
  · intro h
    obtain ⟨inst, hfind, rfl⟩ := Option.map_eq_some_iff.1 h
    exact Instruction.has_of_find? hfind
  · intro h
    obtain ⟨inst, hmem, rfl⟩ := Instruction.exists_mem_all op
    have hmatch : inst.matchesWord w = true :=
      Instruction.matchesWord_iff.2 ((Instruction.covers_iff_family hmem w).2 h)
    have hsome : (Instruction.all.find? (·.matchesWord w)).isSome = true := List.find?_isSome.2 ⟨inst, hmem, hmatch⟩
    obtain ⟨first, hfind⟩ := Option.isSome_iff_exists.1 hsome
    rw [ofWord?, hfind, Option.map_some, eq_of_has (Instruction.has_of_find? hfind) h]

theorem ofWord?_eq_none_iff {w : UInt16} : ofWord? w = none ↔ ∀ inst ∈ Instruction.all, ¬ inst.Covers w := by
  simp only [ofWord?, Option.map_eq_none_iff, List.find?_eq_none, Instruction.matchesWord_iff]

/-! ### Words put together from digits -/

theorem ofWord?_ofNat {op : Op} {n first bits last : Nat} (hn : n < 65536) (hfamily : op.family = ⟨first, bits, last⟩)
    (hfirst : n / 4096 = first) (hlast : n % 2 ^ bits = last) : ofWord? (.ofNat n) = some op := by
  rw [ofWord?_eq_some_iff, hfamily, Family.Has, UInt16.toNat_ofNat_of_lt' hn]
  exact ⟨hfirst, hlast⟩

/-- The words of an operation with one register. -/
theorem ofWord?_register {op : Op} {base x : Nat} (hx : x < 16) (hfamily : op.family = ⟨base / 4096, 8, base % 256⟩)
    (hbase : base < 65536) (hdigit : base / 256 % 16 = 0) :
    ofWord? (.ofNat (base + 0x100 * x)) = some op ∧ Word.x (.ofNat (base + 0x100 * x)) = x := by
  have hword : base + 0x100 * x < 65536 := by omega
  refine ⟨ofWord?_ofNat hword hfamily (by omega) (by omega), ?_⟩
  rw [Word.x, UInt16.toNat_ofNat_of_lt' hword]
  omega

/-- The words of an operation with two registers. -/
theorem ofWord?_registers {op : Op} {base x y : Nat} (hx : x < 16) (hy : y < 16)
    (hfamily : op.family = ⟨base / 4096, 4, base % 16⟩) (hbase : base < 65536) (hdigits : base / 16 % 256 = 0) :
    ofWord? (.ofNat (base + 0x100 * x + 0x10 * y)) = some op ∧
      Word.x (.ofNat (base + 0x100 * x + 0x10 * y)) = x ∧ Word.y (.ofNat (base + 0x100 * x + 0x10 * y)) = y := by
  have hword : base + 0x100 * x + 0x10 * y < 65536 := by omega
  refine ⟨ofWord?_ofNat hword hfamily (by omega) (by omega), ?_⟩
  rw [Word.x, Word.y, UInt16.toNat_ofNat_of_lt' hword]
  omega

/-- The words of an operation with a register and a byte. -/
theorem ofWord?_registerByte {op : Op} {base x byte : Nat} (hx : x < 16) (hbyte : byte < 256)
    (hfamily : op.family = ⟨base / 4096, 0, 0⟩) (hbase : base < 65536) (hdigits : base % 4096 = 0) :
    ofWord? (.ofNat (base + 0x100 * x + byte)) = some op ∧
      Word.x (.ofNat (base + 0x100 * x + byte)) = x ∧ Word.byte (.ofNat (base + 0x100 * x + byte)) = byte := by
  have hword : base + 0x100 * x + byte < 65536 := by omega
  refine ⟨ofWord?_ofNat hword hfamily (by omega) (by omega), ?_⟩
  rw [Word.x, Word.byte, UInt16.toNat_ofNat_of_lt' hword]
  omega

end Op

namespace Decoder

/-- The decoder of the set resolves a word to its operation and operands. -/
theorem decode_standard {op : Op} {w : UInt16} (h : Op.ofWord? w = some op) :
    ∃ inst, inst.op = op ∧ standard.decode w.toNat = .ok ⟨inst, op.args w, w⟩ := by
  obtain ⟨inst, hfind, rfl⟩ := Option.map_eq_some_iff.1 h
  have hargs := Instruction.extract_of_mem_all (List.mem_of_find?_eq_some hfind) w
  exact ⟨inst, rfl, by simp only [standard, decode_build, wordOf_natCast, hfind, hargs]⟩

theorem decode_standard_unknown {w : UInt16} (h : Op.ofWord? w = none) :
    standard.decode w.toNat = .error (unknown w) := by
  have hfind := Option.map_eq_none_iff.1 h
  simp only [standard, decode_build, wordOf_natCast, hfind]

/-- What the decoder of the set makes of a word: its operation has the word, and the operands are the digits. -/
theorem has_of_decode {w : UInt16} {decoded : Decoded} (h : standard.decode w.toNat = .ok decoded) :
    decoded.instruction.op.family.Has w ∧ decoded.args = decoded.instruction.op.args w := by
  cases hw : Op.ofWord? w with
  | none =>
    rw [decode_standard_unknown hw] at h
    cases h
  | some op =>
    obtain ⟨inst, rfl, hdecode⟩ := decode_standard hw
    rw [hdecode] at h
    cases h
    exact ⟨Op.ofWord?_eq_some_iff.1 hw, rfl⟩

/-- What the decoder of the set makes of a word has a text. -/
theorem text_of_decode {w : UInt16} {decoded : Decoded} (h : standard.decode w.toNat = .ok decoded) :
    decoded.text = .ok decoded.shown := by
  cases hfind : Instruction.all.find? (·.matchesWord w) with
  | none => simp [standard, decode_build, wordOf_natCast, hfind] at h
  | some inst =>
    have hmem := List.mem_of_find?_eq_some hfind
    have hargs := Instruction.extract_of_mem_all hmem w
    simp only [standard, decode_build, wordOf_natCast, hfind, hargs, Except.ok.injEq] at h
    obtain ⟨text, htext⟩ := Mnemonic.fill_ok (Instruction.fits_of_mem_all hmem w)
    subst h
    simp only [Decoded.shown, Decoded.text, htext]

theorem disassemble_of_unknown {w : UInt16} (h : Op.ofWord? w = none) :
    standard.disassemble w.toNat = .ok (dataText w) := by
  simp only [disassemble, decode_standard_unknown h, unknown, wordOf_natCast]

theorem disassemble_of_decode {w : UInt16} {decoded : Decoded} (h : standard.decode w.toNat = .ok decoded) :
    standard.disassemble w.toNat = .ok decoded.shown := by
  simp only [disassemble, h, text_of_decode h]
  rfl

end Decoder

end Chip8
