import Chip8.Text.Integer
import Chip8.Text.Number
import Mathlib.Algebra.Group.Nat.Defs
import Mathlib.Data.List.TakeWhile

/-!
# Whole numbers written and read

A whole number is read back from its decimal digits as long as it has no more of them than a number may have, and a
longer one is refused. Main statements: `readInteger_decimal` and `readInteger_of_long`.
-/

namespace Chip8.Text

/-! ## Digits -/

theorem code_of_isDigit {c : Char} (h : c.isDigit = true) : 48 ≤ c.toNat ∧ c.toNat < 58 := by
  rw [Char.isDigit, Bool.and_eq_true, decide_eq_true_eq, decide_eq_true_eq] at h
  exact ⟨h.1, Nat.lt_succ_of_le h.2⟩

theorem digitValue?_of_isDigit {c : Char} (h : c.isDigit = true) : digitValue? c = some (c.toNat - 48) := by
  rw [digitValue?, zeroCodes, List.find?_cons_of_pos (by simp [code_of_isDigit h])]
  rfl

theorem digitsOf?_of_digits {joined : Bool} {cs : List Char} (hend : joined = true ∨ cs ≠ [])
    (h : ∀ c ∈ cs, c.isDigit = true) : digitsOf? joined cs = some (cs.map fun c => c.toNat - 48) := by
  induction cs generalizing joined with
  | nil =>
    obtain rfl := hend.resolve_right (by simp)
    rfl
  | cons c cs ih =>
    obtain ⟨hc, hcs⟩ := List.forall_mem_cons.1 h
    have hne : c ≠ '_' := by
      rintro rfl
      cases hc
    rw [digitsOf?, if_neg hne, digitValue?_of_isDigit hc]
    simp only [ih (.inl rfl) hcs, Option.map_some, List.map_cons]

theorem valueOf_concat (digits : List Nat) (d : Nat) : valueOf (digits ++ [d]) = valueOf digits * 10 + d := by
  rw [valueOf, List.foldl_append]
  rfl

/-- The digits of a number write it. -/
theorem valueOf_toDigits (n : Nat) : valueOf ((Nat.toDigits 10 n).map fun c => c.toNat - 48) = n := by
  induction n using Nat.strongRecOn with
  | ind n ih =>
    by_cases hn : n < 10
    · rw [Nat.toDigits_of_lt_base hn, List.map_singleton, Nat.toNat_digitChar_sub_48_of_lt_ten hn]
      exact Nat.zero_add n
    · rw [Nat.toDigits_of_base_le (by decide) (by omega), List.map_append, List.map_singleton, valueOf_concat,
        ih (n / 10) (by omega), Nat.toNat_digitChar_sub_48_of_lt_ten (by omega)]
      omega

/-! ## Numbers -/

theorem isDigit_of_mem_toDigits {n : Nat} {c : Char} (h : c ∈ Nat.toDigits 10 n) : c.isDigit = true :=
  Nat.isDigit_of_mem_toDigits (by decide) (by decide) h

theorem isNumeralChar_of_isDigit {c : Char} (h : c.isDigit = true) : isNumeralChar c = true := by
  rw [isNumeralChar, digitValue?_of_isDigit h]
  simp

theorem toList_decimal (n : Int) :
    (decimal n).toList = (if n < 0 then ['-'] else []) ++ Nat.toDigits 10 n.natAbs := by
  unfold decimal
  split <;> simp [Nat.toList_repr]

/-- The sign and the digits come apart again. -/
theorem splitSign_decimal (n : Int) :
    splitSign ((decimal n).toList.dropWhile isSpace) = (decide (n < 0), Nat.toDigits 10 n.natAbs) := by
  rw [toList_decimal]
  by_cases hn : n < 0
  · rw [if_pos hn, decide_eq_true hn]
    rfl
  · rw [if_neg hn, decide_eq_false hn, List.nil_append]
    obtain ⟨c, cs, hdigits⟩ := List.exists_cons_of_ne_nil (Nat.toDigits_ne_nil (n := n.natAbs) (b := 10))
    have hc : c.isDigit = true := isDigit_of_mem_toDigits (n := n.natAbs) (by simp [hdigits])
    have hspace : isSpace c = false := by
      have hcode := code_of_isDigit hc
      simp [isSpace, isBlank]
      omega
    rw [hdigits, List.dropWhile_cons_of_neg (by simp [hspace])]
    unfold splitSign
    split
    · next hminus =>
      obtain rfl := List.head_eq_of_cons_eq hminus
      cases hc
    · next hplus =>
      obtain rfl := List.head_eq_of_cons_eq hplus
      cases hc
    · rfl

theorem decimal_injective {a b : Int} (h : decimal a = decimal b) : a = b := by
  have hsplit := splitSign_decimal a
  rw [h, splitSign_decimal] at hsplit
  obtain ⟨hsign, hdigits⟩ := Prod.mk.inj hsplit
  have hvalue := valueOf_toDigits b.natAbs
  rw [hdigits, valueOf_toDigits] at hvalue
  have : b < 0 ↔ a < 0 := by simpa using hsign
  omega

/-- What is read of a written number is its digits and its sign. -/
theorem readInteger_decimal_eq (n : Int) :
    readInteger (decimal n) =
      if digitLimit < (Nat.toDigits 10 n.natAbs).length then
        .error (.tooManyDigits (Nat.toDigits 10 n.natAbs).length)
      else .ok n := by
  have hdigits : ∀ c ∈ Nat.toDigits 10 n.natAbs, c.isDigit = true := fun c hc => isDigit_of_mem_toDigits hc
  have hnumeral : ∀ c ∈ Nat.toDigits 10 n.natAbs, isNumeralChar c = true :=
    fun c hc => isNumeralChar_of_isDigit (hdigits c hc)
  have hsign : (if decide (n < 0) = true then -(n.natAbs : Int) else n.natAbs) = n := by
    simp only [decide_eq_true_eq]
    split <;> omega
  rw [readInteger, splitSign_decimal]
  simp only [List.takeWhile_eq_self_iff.2 hnumeral, List.dropWhile_eq_nil_iff.2 hnumeral,
    digitsOf?_of_digits (.inr Nat.toDigits_ne_nil) hdigits, List.length_map, valueOf_toDigits, List.all_nil, if_true,
    hsign]

/-- **A whole number is read back as it was written.** -/
theorem readInteger_decimal {n : Int} (h : n.natAbs < 10 ^ digitLimit) : readInteger (decimal n) = .ok n := by
  have hlength : (Nat.toDigits 10 n.natAbs).length ≤ digitLimit :=
    (Nat.length_toDigits_le_iff (by decide) (by decide)).2 h
  rw [readInteger_decimal_eq, if_neg (by omega)]

/-- A number with more digits than a number may have is refused. -/
theorem readInteger_of_long {n : Int} (h : 10 ^ digitLimit ≤ n.natAbs) :
    ∃ count, readInteger (decimal n) = .error (.tooManyDigits count) := by
  have hlength : ¬ (Nat.toDigits 10 n.natAbs).length ≤ digitLimit := fun hle =>
    absurd ((Nat.length_toDigits_le_iff (by decide) (by decide)).1 hle) (by omega)
  exact ⟨_, by rw [readInteger_decimal_eq, if_pos (by omega)]⟩

end Chip8.Text
