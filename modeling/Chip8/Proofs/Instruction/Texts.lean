import Chip8.Proofs.Instruction.Family
import Chip8.Proofs.Text.Integer
import Chip8.Proofs.Text.Words

/-!
# Assembly texts

A text is put together from left to right, from stretches of its mnemonic and from operands. All operands but a last one
take up a fixed number of characters, so two texts can be compared piece by piece. If the mnemonic is the same, so are
the operands (`operand_eq_of_fill`). If there are two mnemonics that agree up to stretches of which neither begins with
the other, the texts differ (`fill_ne_of_apart`), and any two mnemonics of the instruction set come apart like this, as
they do from a word that is written as data. Main statement: `eq_of_fill`, by which a text has one instruction and one
list of operands.
-/

namespace Chip8

/-! ## Pieces -/

namespace GapForm

/-- Does the number take up the places of the gap, no more and no less? A decimal number has no fixed places. -/
def Holds : GapForm → Int → Prop
  | decimal, _ => False
  | hex width, n => 0 ≤ n ∧ n < (16 ^ max width 1 : Nat)

variable {form : GapForm} {a b : Int} {rest rest' : List Char}

theorem length_write (ha : form.Holds a) (hb : form.Holds b) :
    (form.write a).toList.length = (form.write b).toList.length := by
  cases form with
  | decimal => cases ha
  | hex width => rw [write, write, Text.length_hex ha.1 ha.2, Text.length_hex hb.1 hb.2]

theorem write_injective (h : form.write a = form.write b) : a = b := by
  cases form with
  | decimal => exact Text.decimal_injective h
  | hex width => exact Text.hex_injective h

/-- Numbers that take up the places of their gap can be told apart from what follows them. -/
theorem write_append_inj (ha : form.Holds a) (hb : form.Holds b)
    (h : (form.write a).toList ++ rest = (form.write b).toList ++ rest') : a = b ∧ rest = rest' := by
  obtain ⟨hnumber, hrest⟩ := List.append_inj h (length_write ha hb)
  exact ⟨write_injective (String.toList_inj.1 hnumber), hrest⟩

end GapForm

namespace Piece

variable {args : List Int} {t : String}

theorem fill_gap {position : Nat} {form : GapForm} (h : (gap position form).fill args = .ok t) :
    ∃ n, args[position]? = some n ∧ t = form.write n := by
  rw [fill] at h
  split at h
  · next n hn => exact ⟨n, hn, (Except.ok.inj h).symm⟩
  · cases h

end Piece

namespace Mnemonic

variable {piece : Piece} {m m' rest : Mnemonic} {args args' : List Int} {t t' : String}

/-- The first piece is in front of the others. -/
theorem fill_cons (h : fill (piece :: rest) args = .ok t) :
    ∃ head tail, piece.fill args = .ok head ∧ fill rest args = .ok tail ∧ t.toList = head.toList ++ tail.toList := by
  obtain ⟨head, hhead, h⟩ := exists_ok_of_bind h
  obtain ⟨tail, htail, h⟩ := exists_ok_of_bind h
  cases h
  exact ⟨head, tail, hhead, htail, String.toList_append⟩

/-! ## The same mnemonic -/

/-- The positions of the operands that are asked for, in the order of the gaps. -/
def positions (m : Mnemonic) : List Nat :=
  m.filterMap fun
    | .text _ => none
    | .gap position _ => some position

/-- Every gap, if it is not at the end, has an operand that takes up its places. -/
def Aligned (args : List Int) : Mnemonic → Prop
  | [] => True
  | .text _ :: rest => Aligned args rest
  | .gap position form :: rest =>
    (rest = [] ∨ ∃ n, args[position]? = some n ∧ form.Holds n) ∧ Aligned args rest

theorem Aligned.holds {position : Nat} {form : GapForm} {n : Int} (h : Aligned args (.gap position form :: rest))
    (hrest : rest ≠ []) (hn : args[position]? = some n) : form.Holds n := by
  obtain ⟨n', hn', hholds⟩ := h.1.resolve_left hrest
  rw [hn] at hn'
  rwa [Option.some.inj hn']

/-- By induction on the mnemonic: first pieces take up as many characters in both texts, and are cut off together. -/
theorem operand_eq_of_fill (hm : m.Aligned args) (hm' : m.Aligned args') (h : m.fill args = .ok t)
    (h' : m.fill args' = .ok t) {position : Nat} (hposition : position ∈ m.positions) :
    args[position]? = args'[position]? := by
  induction m generalizing t with
  | nil => cases hposition
  | cons piece rest ih =>
    obtain ⟨head, tail, hhead, htail, ht⟩ := fill_cons h
    obtain ⟨head', tail', hhead', htail', ht'⟩ := fill_cons h'
    rw [ht] at ht'
    cases piece with
    | text own =>
      cases hhead
      cases hhead'
      obtain rfl : tail = tail' := String.toList_inj.1 (List.append_cancel_left ht')
      exact ih hm hm' htail htail' hposition
    | gap first form =>
      obtain ⟨n, hn, rfl⟩ := Piece.fill_gap hhead
      obtain ⟨n', hn', rfl⟩ := Piece.fill_gap hhead'
      have hcut : n = n' ∧ tail = tail' := by
        by_cases hrest : rest = []
        · subst hrest
          cases htail
          cases htail'
          exact ⟨GapForm.write_injective (String.toList_inj.1 (List.append_cancel_right ht')), rfl⟩
        · obtain ⟨hnumber, htails⟩ := GapForm.write_append_inj (hm.holds hrest hn) (hm'.holds hrest hn') ht'
          exact ⟨hnumber, String.toList_inj.1 htails⟩
      obtain ⟨rfl, rfl⟩ := hcut
      rcases List.mem_cons.1 hposition with rfl | hlater
      · rw [hn, hn']
      · exact ih hm.2 hm'.2 htail htail' hlater

/-! ## Two mnemonics -/

/-- Do the mnemonics agree, but for the positions of their operands, up to two texts of which neither begins with the
other? -/
def apart : Mnemonic → Mnemonic → Bool
  | .text own :: rest, .text own' :: rest' =>
    if own = own' then apart rest rest'
    else !own.toList.isPrefixOf own'.toList && !own'.toList.isPrefixOf own.toList
  | .gap _ form :: rest, .gap _ form' :: rest' => form == form' && apart rest rest'
  | _, _ => false

theorem ne_nil_of_apart (h : m.apart m' = true) : m ≠ [] ∧ m' ≠ [] := by
  constructor <;> rintro rfl <;> simp [apart] at h

/-- By induction along the comparison: the texts have the same beginning as far as the mnemonics agree, and then they
differ. -/
theorem fill_ne_of_apart (h : m.apart m' = true) (hm : m.Aligned args) (hm' : m'.Aligned args')
    (hfill : m.fill args = .ok t) (hfill' : m'.fill args' = .ok t') : t ≠ t' := by
  rintro rfl
  fun_induction apart m m' generalizing t with
  | case1 own rest rest' ih =>
    obtain ⟨head, tail, hhead, htail, ht⟩ := fill_cons hfill
    obtain ⟨head', tail', hhead', htail', ht'⟩ := fill_cons hfill'
    cases hhead
    cases hhead'
    rw [ht] at ht'
    obtain rfl : tail = tail' := String.toList_inj.1 (List.append_cancel_left ht')
    exact ih h hm hm' htail htail'
  | case2 own rest own' rest' hne =>
    obtain ⟨head, tail, hhead, -, ht⟩ := fill_cons hfill
    obtain ⟨head', tail', hhead', -, ht'⟩ := fill_cons hfill'
    cases hhead
    cases hhead'
    have hown : own.toList <+: t.toList := ⟨tail.toList, ht.symm⟩
    have hown' : own'.toList <+: t.toList := ⟨tail'.toList, ht'.symm⟩
    -- Two beginnings of one text, and so one of them is a beginning of the other.
    rcases List.prefix_or_prefix_of_prefix hown hown' with hprefix | hprefix
    · simp [List.isPrefixOf_iff_prefix.2 hprefix] at h
    · simp [List.isPrefixOf_iff_prefix.2 hprefix] at h
  | case3 position form rest position' form' rest' ih =>
    rw [Bool.and_eq_true, beq_iff_eq] at h
    obtain ⟨rfl, hrests⟩ := h
    obtain ⟨hrest, hrest'⟩ := ne_nil_of_apart hrests
    obtain ⟨head, tail, hhead, htail, ht⟩ := fill_cons hfill
    obtain ⟨head', tail', hhead', htail', ht'⟩ := fill_cons hfill'
    obtain ⟨n, hn, rfl⟩ := Piece.fill_gap hhead
    obtain ⟨n', hn', rfl⟩ := Piece.fill_gap hhead'
    rw [ht] at ht'
    obtain ⟨-, htails⟩ := GapForm.write_append_inj (hm.holds hrest hn) (hm'.holds hrest' hn') ht'
    obtain rfl : tail = tail' := String.toList_inj.1 htails
    exact ih hrests hm.2 hm'.2 htail htail'
  | case4 => cases h

end Mnemonic

/-! ## The instruction set -/

namespace Instruction

variable {inst inst' : Instruction} {w w' : UInt16} {t : String}

theorem aligned_of_mem_all (h : inst ∈ all) (w : UInt16) : inst.mnemonic.Aligned (inst.op.args w) := by
  have hx : (GapForm.hex 0).Holds (Word.x w) := ⟨Int.natCast_nonneg _, Int.ofNat_lt.2 (Word.x_lt w)⟩
  have hy : (GapForm.hex 0).Holds (Word.y w) := ⟨Int.natCast_nonneg _, Int.ofNat_lt.2 (Word.y_lt w)⟩
  revert inst
  simp [all, Op.args, Mnemonic.Aligned, withAddress, withRegByte, withRegs, withReg, withRegThen, hx, hy]

/-- Every operand is asked for. -/
theorem positions_of_mem_all : ∀ inst ∈ all, inst.mnemonic.positions = List.range inst.operands.length := by decide

theorem length_args_of_mem_all (h : inst ∈ all) (w : UInt16) : (inst.op.args w).length = inst.operands.length := by
  revert inst
  simp [all, Op.args]

/-- Any two instructions of the set come apart. -/
theorem eq_or_apart_of_mem_all :
    ∀ inst ∈ all, ∀ inst' ∈ all, inst = inst' ∨ inst.mnemonic.apart inst'.mnemonic = true := by
  decide +kernel

/-- **A text has one instruction and one list of operands.** -/
theorem eq_of_fill (hinst : inst ∈ all) (hinst' : inst' ∈ all) (h : inst.mnemonic.fill (inst.op.args w) = .ok t)
    (h' : inst'.mnemonic.fill (inst'.op.args w') = .ok t) : inst = inst' ∧ inst.op.args w = inst.op.args w' := by
  have haligned := aligned_of_mem_all hinst w
  have haligned' := aligned_of_mem_all hinst' w'
  rcases eq_or_apart_of_mem_all inst hinst inst' hinst' with rfl | hapart
  · refine ⟨rfl, List.ext_getElem? fun position => ?_⟩
    have hlength := length_args_of_mem_all hinst
    by_cases hp : position < inst.operands.length
    · apply Mnemonic.operand_eq_of_fill haligned haligned' h h'
      rwa [positions_of_mem_all inst hinst, List.mem_range]
    · rw [List.getElem?_eq_none (by rw [hlength]; omega), List.getElem?_eq_none (by rw [hlength]; omega)]
  · exact absurd rfl (Mnemonic.fill_ne_of_apart hapart haligned haligned' h h')

end Instruction

/-! ## Words as data -/

namespace Decoder

variable {inst : Instruction} {w w' : UInt16}

/-- The mnemonic of a word that is no instruction. -/
def dataForm : Mnemonic := [.text "DW 0x", .gap 0 (.hex 4)]

theorem fill_dataForm (w : UInt16) : dataForm.fill [(w.toNat : Int)] = .ok (dataText w) := by
  have hdata : dataText w = "DW 0x" ++ (Text.hex 4 w.toNat ++ "") := by rw [String.append_empty, dataText]
  rw [hdata]
  rfl

theorem aligned_dataForm (w : UInt16) : dataForm.Aligned [(w.toNat : Int)] := ⟨.inl rfl, trivial⟩

theorem apart_dataForm : ∀ inst ∈ Instruction.all, inst.mnemonic.apart dataForm = true := by decide

theorem dataText_injective (h : dataText w = dataText w') : w = w' := by
  have hfill := fill_dataForm w
  rw [h] at hfill
  have hword : [(w.toNat : Int)][0]? = [(w'.toNat : Int)][0]? :=
    Mnemonic.operand_eq_of_fill (aligned_dataForm w) (aligned_dataForm w') hfill (fill_dataForm w') (by decide)
  exact UInt16.toNat_inj.1 (Int.ofNat_inj.1 (Option.some.inj hword))

/-- No instruction is written like data. -/
theorem fill_ne_dataText (h : inst ∈ Instruction.all) (w w' : UInt16) :
    inst.mnemonic.fill (inst.op.args w) ≠ .ok (dataText w') := by
  intro hfill
  have haligned := Instruction.aligned_of_mem_all h w
  exact Mnemonic.fill_ne_of_apart (apart_dataForm inst h) haligned (aligned_dataForm w') hfill (fill_dataForm w') rfl

end Decoder

end Chip8
