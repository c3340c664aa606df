import Chip8.Proofs.Decoder.RoundTrip
import Chip8.Proofs.Instruction.Texts
import Chip8.Proofs.Program.Transcript

/-!
# What a listing tells about a program

An instruction depends on the bits of a word that it looks at and on no others (`reads_looked`). In the instruction set
that is every bit, but for the third digit of the two shifts. So a text can tell no more about a word than the word
without that digit, and it tells just that (`disassemble_eq_iff`). Main statement: `listing_texts_eq_iff`, by which the
texts of a listing tell all of the program but the third digits of its shifts.
-/

namespace Chip8

/-! ## The bits that are looked at -/

namespace Instruction

variable {inst : Instruction} {w w' : UInt16}

theorem testBit_looked (inst : Instruction) (i : Nat) :
    Bits.testBit inst.looked i = (Bits.testBit inst.mask i || inst.operands.any fun o => Bits.testBit o.mask i) := by
  rw [looked]
  generalize inst.mask = bits
  induction inst.operands generalizing bits with
  | nil => simp
  | cons o rest ih => simp only [List.foldl_cons, ih, Bits.testBit_or, List.any_cons, Bool.or_assoc]

/-- A mask of bits that are looked at sees nothing of the others. -/
theorem and_looked {mask : Int} (h : ∀ i, Bits.testBit mask i = true → Bits.testBit inst.looked i = true) (n : Int) :
    Bits.and (Bits.and n inst.looked) mask = Bits.and n mask := by
  apply Bits.ext
  intro i
  simp only [Bits.testBit_and]
  cases hmask : Bits.testBit mask i with
  | false => simp
  | true => simp [h i hmask]

/-- **An instruction depends on the bits that it looks at.** -/
theorem reads_looked (h : (w'.toNat : Int) = Bits.and w.toNat inst.looked) :
    (inst.Covers w' ↔ inst.Covers w) ∧ ∀ o ∈ inst.operands, o.read w'.toNat = o.read w.toNat := by
  refine ⟨?_, fun o ho => ?_⟩
  · have hmask : ∀ i, Bits.testBit inst.mask i = true → Bits.testBit inst.looked i = true := by
      intro i hi
      rw [testBit_looked, hi, Bool.true_or]
    rw [Covers, Covers, h, and_looked hmask]
  · have hmask : ∀ i, Bits.testBit o.mask i = true → Bits.testBit inst.looked i = true := by
      intro i hi
      rw [testBit_looked, List.any_eq_true.2 ⟨o, ho, hi⟩, Bool.or_true]
    rw [Operand.read, Operand.read, h, and_looked hmask]

end Instruction

/-! ## Words without their unread digits -/

namespace Word

/-- Is the word decoded as one of the two shifts? -/
def isShift (w : UInt16) : Bool :=
  match Decoder.standard.decode w.toNat with
  | .ok d => d.instruction.op == .shiftRight || d.instruction.op == .shiftLeft
  | .error _ => false

/-- The word, but for the third digit of a shift, which is zero. -/
def legible (w : UInt16) : UInt16 := if isShift w then w &&& 0xFF0F else w

variable {w w' : UInt16}

theorem toNat_legible {d : Decoded} (h : Decoder.standard.decode w.toNat = .ok d) :
    ((legible w).toNat : Int) = Bits.and w.toNat d.instruction.looked := by
  obtain ⟨hmem, -⟩ := Decoder.encode_decoded h
  have hrange : 0 ≤ (w.toNat : Int) ∧ (w.toNat : Int) ≤ ((2 ^ 16 - 1 : Nat) : Int) := by
    have := w.toNat_lt
    omega
  rw [Instruction.looked_of_mem_all _ hmem, legible, isShift]
  simp only [h, Bool.or_eq_true, beq_iff_eq]
  split
  · rfl
  · exact (Bits.and_ones_eq_self_iff.2 hrange).symm

theorem legible_of_unknown (h : Op.ofWord? w = none) : legible w = w := by
  simp [legible, isShift, Decoder.decode_standard_unknown h]

theorem mod_of_isShift (h : isShift w = true) : w.toNat % 16 = 6 ∨ w.toNat % 16 = 14 := by
  rw [isShift] at h
  split at h
  · next d hdecode =>
    obtain ⟨hfamily, -⟩ := Decoder.has_of_decode hdecode
    rw [Bool.or_eq_true, beq_iff_eq, beq_iff_eq] at h
    rcases h with h | h
    · rw [h] at hfamily
      exact .inl hfamily.2
    · rw [h] at hfamily
      exact .inr hfamily.2
  · cases h

end Word

/-! ## Texts of words -/

namespace Decoder

variable {w w' : UInt16}

/-- A word is an instruction with its operands, or it is data. -/
theorem line_cases (w : UInt16) :
    (∃ inst ∈ Instruction.all, ∃ t, standard.decode w.toNat = .ok ⟨inst, inst.op.args w, w⟩ ∧
      inst.mnemonic.fill (inst.op.args w) = .ok t ∧ standard.disassemble w.toNat = .ok t) ∨
    (Op.ofWord? w = none ∧ standard.disassemble w.toNat = .ok (dataText w)) := by
  cases hfind : Instruction.all.find? (·.matchesWord w) with
  | none =>
    have hunknown : Op.ofWord? w = none := Option.map_eq_none_iff.2 hfind
    exact .inr ⟨hunknown, disassemble_of_unknown hunknown⟩
  | some inst =>
    have hmem := List.mem_of_find?_eq_some hfind
    have hargs := Instruction.extract_of_mem_all hmem w
    have hdecode : standard.decode w.toNat = .ok ⟨inst, inst.op.args w, w⟩ := by
      simp only [standard, decode_build, wordOf_natCast, hfind, hargs]
    obtain ⟨t, ht⟩ := Mnemonic.fill_ok (Instruction.fits_of_mem_all hmem w)
    refine .inl ⟨inst, hmem, t, hdecode, ht, ?_⟩
    simp only [disassemble, hdecode, Decoded.text, ht]
    rfl

/-- Words with the same text are the same instruction with the same operands, or the same data. -/
theorem eq_of_disassemble (h : standard.disassemble w.toNat = standard.disassemble w'.toNat) :
    (∃ inst args, standard.decode w.toNat = .ok ⟨inst, args, w⟩ ∧ standard.decode w'.toNat = .ok ⟨inst, args, w'⟩) ∨
    (w = w' ∧ standard.decode w.toNat = .error (unknown w)) := by
  rcases line_cases w with ⟨inst, hmem, t, hdecode, hfill, htext⟩ | ⟨hunknown, htext⟩
  · rcases line_cases w' with ⟨inst', hmem', t', hdecode', hfill', htext'⟩ | ⟨-, htext'⟩
    · rw [htext, htext'] at h
      obtain rfl := Except.ok.inj h
      obtain ⟨rfl, hargs⟩ := Instruction.eq_of_fill hmem hmem' hfill hfill'
      exact .inl ⟨inst, _, hdecode, by rw [hdecode', hargs]⟩
    · rw [htext, htext'] at h
      rw [Except.ok.inj h] at hfill
      exact absurd hfill (fill_ne_dataText hmem w w')
  · rcases line_cases w' with ⟨inst', hmem', t', -, hfill', htext'⟩ | ⟨-, htext'⟩
    · rw [htext, htext'] at h
      rw [← Except.ok.inj h] at hfill'
      exact absurd hfill' (fill_ne_dataText hmem' w' w)
    · rw [htext, htext'] at h
      exact .inr ⟨dataText_injective (Except.ok.inj h), decode_standard_unknown hunknown⟩

/-- Without its unread digit a word is the same instruction with the same operands. -/
theorem decode_legible {inst : Instruction} {args : List Int} (h : standard.decode w.toNat = .ok ⟨inst, args, w⟩) :
    standard.decode (Word.legible w).toNat = .ok ⟨inst, args, Word.legible w⟩ := by
  obtain ⟨hmem, -⟩ := encode_decoded h
  obtain ⟨hfamily, hargs⟩ := has_of_decode h
  obtain ⟨hcovers, hread⟩ := Instruction.reads_looked (Word.toNat_legible h)
  have hfind := Instruction.find?_of_covers hmem (hcovers.2 ((Instruction.covers_iff_family hmem w).2 hfamily))
  have hshift : ∀ o ∈ inst.operands, 0 ≤ o.shift := fun o ho => ((Instruction.isTidy_of_mem_all hmem).operand o ho).2.1
  have hextract : inst.extract (Word.legible w) = .ok args := by
    rw [Instruction.extract_eq_read hshift, List.map_congr_left hread, ← Instruction.extract_eq_read hshift,
      Instruction.extract_of_mem_all hmem]
    exact congrArg Except.ok hargs.symm
  simp only [standard, decode_build, wordOf_natCast, hfind, hextract]

theorem disassemble_legible (w : UInt16) :
    standard.disassemble (Word.legible w).toNat = standard.disassemble w.toNat := by
  rcases line_cases w with ⟨inst, -, t, hdecode, -, -⟩ | ⟨hunknown, -⟩
  · rw [disassemble_of_decode hdecode, disassemble_of_decode (decode_legible hdecode)]
    rfl
  · rw [Word.legible_of_unknown hunknown]

/-- **The text of a word tells the word without its unread digit**, and nothing else. -/
theorem disassemble_eq_iff :
    standard.disassemble w.toNat = standard.disassemble w'.toNat ↔ Word.legible w = Word.legible w' := by
  constructor
  · intro h
    rcases eq_of_disassemble h with ⟨inst, args, hdecode, hdecode'⟩ | ⟨rfl, -⟩
    · -- Instruction and operands are encoded to the bits that were looked at, and so these are the same.
      have hencode := (encode_decoded hdecode).2
      rw [(encode_decoded hdecode').2] at hencode
      have hlooked := (Except.ok.inj hencode).symm
      have hw := w.toNat_lt
      have hw' := w'.toNat_lt
      simp only [show (w.toNat : Int) % 65536 = w.toNat by omega, show (w'.toNat : Int) % 65536 = w'.toNat by omega]
        at hlooked
      apply UInt16.toNat_inj.1
      apply Int.ofNat_inj.1
      rw [Word.toNat_legible hdecode, Word.toNat_legible hdecode', hlooked]
    · rfl
  · intro h
    rw [← disassemble_legible w, h, disassemble_legible]

end Decoder

/-! ## Programs -/

/-- Lists are told apart by the one function as they are by the other. -/
theorem map_eq_map_iff_of {α β γ : Type} {f : α → β} {g : α → γ} (h : ∀ a b, f a = f b ↔ g a = g b) (l l' : List α) :
    l.map f = l'.map f ↔ l.map g = l'.map g := by
  rw [← List.forall₂_eq_eq_eq, ← List.forall₂_eq_eq_eq]
  simp only [List.forall₂_map_left_iff, List.forall₂_map_right_iff, h]

namespace Program

variable {rom rom' : List UInt8}

/-- The program with the third digit of every shift among its words set to zero. -/
def legible : List UInt8 → List UInt8
  | high :: low :: rest =>
    high :: (if Word.isShift (wordOfBytes high low) then low &&& 0x0F else low) :: legible rest
  | rest => rest

theorem length_legible (rom : List UInt8) : (legible rom).length = rom.length := by
  fun_induction legible rom with
  | case1 high low rest ih => simp [ih]
  | case2 => rfl

/-- The third digit of a word is the first digit of its second byte. -/
theorem wordOfBytes_and (high low : UInt8) : wordOfBytes high (low &&& 0x0F) = wordOfBytes high low &&& 0xFF0F := by
  have hhigh := high.toNat_lt
  have hlow := low.toNat_lt
  have hdigits := Bits.land_field_tail (high.toNat * 256 + low.toNat) 8 (show 4 ≤ 8 by decide)
  simp only [Nat.reducePow, Nat.reduceSub, Nat.reduceShiftLeft] at hdigits
  have hdigit : (low &&& 0x0F).toNat = low.toNat % 16 := by
    rw [UInt8.toNat_and]
    exact Nat.and_two_pow_sub_one_eq_mod low.toNat 4
  apply UInt16.toNat_inj.1
  rw [UInt16.toNat_and, toNat_wordOfBytes, toNat_wordOfBytes, hdigit]
  refine Eq.trans ?_ hdigits.symm
  omega

/-- The words of the program are without their unread digits. The byte that completes an odd program is zero, so the
last word of one is no shift. -/
theorem words_legible (rom : List UInt8) : words (legible rom) = (words rom).map Word.legible := by
  fun_induction words rom with
  | case1 => rfl
  | case2 high =>
    have hshift : Word.isShift (wordOfBytes high 0) = false := by
      rw [← Bool.not_eq_true]
      intro h
      have hdigit := Word.mod_of_isShift h
      rw [toNat_wordOfBytes, UInt8.toNat_zero] at hdigit
      omega
    simp [legible, words, Word.legible, hshift]
  | case3 high low rest ih =>
    rw [legible, words, ih, List.map_cons, Word.legible]
    split
    · rw [wordOfBytes_and]
    · rfl

/-- Programs of the same length are told apart by their words. -/
theorem eq_of_words_eq (hlength : rom.length = rom'.length) (h : words rom = words rom') : rom = rom' := by
  have hbytes := flatMap_words rom
  rw [h, flatMap_words, hlength] at hbytes
  exact (List.append_cancel_right hbytes).symm

/-- The texts of a listing are those of the words. -/
theorem texts_of_listing {d : Decoder} {start : Int} {rs : List Row} (h : listing d rom start = .ok rs) :
    (rs.map Row.text).map Except.ok = (words rom).map fun w => d.disassemble w.toNat := by
  obtain ⟨hwords, htexts⟩ := word_text_of_rows h
  rw [← hwords, List.map_map, List.map_map]
  exact List.map_congr_left fun row hrow => (htexts row hrow).symm

/-- **A listing tells all of a program but the third digits of its shifts.** Every program has a listing, and the texts
in the listings of two programs of the same length are the same if and only if the programs are, once the third digit
of every word that is a shift is set to zero. Words that have the same text are decoded to the same instruction with the
same operands, or else they are the same word and it is no instruction. -/
theorem listing_texts_eq_iff (hlength : rom.length = rom'.length) (start start' : Int) :
    (∃ rs rs', listing Decoder.standard rom start = .ok rs ∧ listing Decoder.standard rom' start' = .ok rs' ∧
      (rs.map Row.text = rs'.map Row.text ↔ legible rom = legible rom')) ∧
    ∀ w w' : UInt16, Decoder.standard.disassemble w.toNat = Decoder.standard.disassemble w'.toNat →
      (∃ inst args, Decoder.standard.decode w.toNat = .ok ⟨inst, args, w⟩ ∧
        Decoder.standard.decode w'.toNat = .ok ⟨inst, args, w'⟩) ∨
      (w = w' ∧ Decoder.standard.decode w.toNat = .error (Decoder.unknown w)) := by
  refine ⟨?_, fun w w' => Decoder.eq_of_disassemble⟩
  obtain ⟨rs, hlisting, -⟩ := listing_standard rom start
  obtain ⟨rs', hlisting', -⟩ := listing_standard rom' start'
  refine ⟨rs, rs', hlisting, hlisting', ?_⟩
  have hok : Function.Injective (Except.ok : String → Except Failure String) := fun _ _ => Except.ok.inj
  have hsame : legible rom = legible rom' ↔ words (legible rom) = words (legible rom') := by
    refine ⟨congrArg words, eq_of_words_eq ?_⟩
    rw [length_legible, length_legible, hlength]
  rw [hsame, words_legible, words_legible, ← map_eq_map_iff_of fun w w' => Decoder.disassemble_eq_iff,
    ← texts_of_listing hlisting, ← texts_of_listing hlisting', (List.map_injective_iff.2 hok).eq_iff]

/-- A shift to the right with its second byte, another instruction, and an odd end that is no instruction. -/
def shifting (second : UInt8) : List UInt8 := [0x81, second, 0x00, 0xE0, 0xFF]

/-- The two programs differ in the third digit of the shift and nowhere else. -/
theorem listing_texts_eq_iff_shifting :
    (shifting 0x26).length = (shifting 0x76).length ∧
    (∃ rs rs', listing Decoder.standard (shifting 0x26) 0x200 = .ok rs ∧
      listing Decoder.standard (shifting 0x76) 0x200 = .ok rs' ∧ rs.map Row.text = rs'.map Row.text) ∧
    Decoder.standard.disassemble (0x8126 : UInt16).toNat = Decoder.standard.disassemble (0x8176 : UInt16).toNat ∧
    ∃ inst args, Decoder.standard.decode (0x8126 : UInt16).toNat = .ok ⟨inst, args, 0x8126⟩ ∧
      Decoder.standard.decode (0x8176 : UInt16).toNat = .ok ⟨inst, args, 0x8176⟩ := by
  have hlength : (shifting 0x26).length = (shifting 0x76).length := rfl
  have htext : Decoder.standard.disassemble (0x8126 : UInt16).toNat =
      Decoder.standard.disassemble (0x8176 : UInt16).toNat := by decide +kernel
  obtain ⟨⟨rs, rs', hlisting, hlisting', hiff⟩, hwords⟩ := listing_texts_eq_iff hlength 0x200 0x200
  refine ⟨hlength, ⟨rs, rs', hlisting, hlisting', hiff.2 (by decide +kernel)⟩, htext, ?_⟩
  exact (hwords 0x8126 0x8176 htext).resolve_right fun h => absurd h.1 (by decide)

end Program

end Chip8
