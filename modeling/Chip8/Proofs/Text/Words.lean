import Chip8.Program.Hex
import Chip8.Text.Number
import Mathlib.Algebra.Group.Nat.Defs

/-!
# Words and numbers of a report

A line of a report is read word by word, and its numbers are read in base sixteen. Nothing is lost on the way: a word
between separators is found again (`runs_append`, `runs_of_word`), the words that are found are those the text is put
together from (`spaced_iff`), and a number that was written in base sixteen, with zeros in front or not, is read back as
it was (`hexValue?_hex`). A number that has room in its width takes up all of it and no more (`length_hex`).
-/

namespace Chip8.Text

/-! ## Words -/

section

variable {separates : Char → Bool} {s : Char}

theorem pieces_ne_nil (separates : Char → Bool) (cs : List Char) : pieces separates cs ≠ [] := by
  cases cs with
  | nil => exact List.cons_ne_nil _ _
  | cons c cs =>
    rw [pieces]
    split
    · exact List.cons_ne_nil _ _
    · split <;> exact List.cons_ne_nil _ _

theorem pieces_of_word {w : List Char} (h : ∀ c ∈ w, separates c = false) : pieces separates w = [w] := by
  induction w with
  | nil => rfl
  | cons c w ih =>
    obtain ⟨hc, hw⟩ := List.forall_mem_cons.1 h
    rw [pieces, hc, ih hw]
    rfl

theorem pieces_append (hs : separates s = true) (a b : List Char) :
    pieces separates (a ++ s :: b) = pieces separates a ++ pieces separates b := by
  induction a with
  | nil => simp only [List.nil_append, pieces, hs, if_true, List.cons_append]
  | cons c a ih =>
    simp only [List.cons_append, pieces, ih]
    obtain ⟨piece, more, hpieces⟩ := List.exists_cons_of_ne_nil (pieces_ne_nil separates a)
    rw [hpieces]
    split <;> rfl

/-- **Words come apart at a separator.** -/
theorem runs_append (hs : separates s = true) (a b : List Char) :
    runs separates (a ++ s :: b) = runs separates a ++ runs separates b := by
  rw [runs, pieces_append hs, List.filter_append, ← runs, ← runs]

theorem runs_cons (hs : separates s = true) (b : List Char) : runs separates (s :: b) = runs separates b :=
  runs_append hs [] b

theorem runs_of_word {w : List Char} (hne : w ≠ []) (h : ∀ c ∈ w, separates c = false) : runs separates w = [w] := by
  rw [runs, pieces_of_word h]
  simp [hne]

/-- A word at the front is the first of the words. -/
theorem runs_word_append {w : List Char} (hne : w ≠ []) (h : ∀ c ∈ w, separates c = false)
    (hs : separates s = true) (b : List Char) : runs separates (w ++ s :: b) = w :: runs separates b := by
  rw [runs_append hs, runs_of_word hne h, List.singleton_append]

/-- A text and its words: characters in a row that do not separate, with separators before, behind and between. -/
inductive Spaced (separates : Char → Bool) : List Char → List (List Char) → Prop
  | empty : Spaced separates [] []
  | gap {s : Char} {rest : List Char} {words : List (List Char)} (hs : separates s = true)
    (hrest : Spaced separates rest words) : Spaced separates (s :: rest) words
  | word {w rest : List Char} {words : List (List Char)} (hne : w ≠ []) (hw : ∀ c ∈ w, separates c = false)
    (hstop : ∀ c ∈ rest.head?, separates c = true) (hrest : Spaced separates rest words) :
    Spaced separates (w ++ rest) (w :: words)

variable {c : Char} {w text rest : List Char} {words : List (List Char)}

/-- A word ends where the text ends or a separator follows. -/
theorem runs_word_append_of_stop (hne : w ≠ []) (h : ∀ c ∈ w, separates c = false)
    (hstop : ∀ c ∈ rest.head?, separates c = true) : runs separates (w ++ rest) = w :: runs separates rest := by
  cases rest with
  | nil => rw [List.append_nil, runs_of_word hne h]; rfl
  | cons s b =>
    have hs : separates s = true := hstop s rfl
    rw [runs_word_append hne h hs, runs_cons hs]

/-- A character that does not separate goes to the word behind it, or it is a word of its own. -/
theorem Spaced.cons (hc : separates c = false) (h : Spaced separates text words) :
    ∃ words', Spaced separates (c :: text) words' := by
  have hsingle : ∀ d ∈ [c], separates d = false := List.forall_mem_singleton.2 hc
  cases h with
  | empty => exact ⟨_, .word (List.cons_ne_nil c []) hsingle (by simp) .empty⟩
  | gap hs hrest => exact ⟨_, .word (List.cons_ne_nil c []) hsingle (by simpa using hs) (.gap hs hrest)⟩
  | @word w rest words hne hw hstop hrest =>
    exact ⟨_, .word (List.cons_ne_nil c w) (List.forall_mem_cons.2 ⟨hc, hw⟩) hstop hrest⟩

theorem exists_spaced (separates : Char → Bool) (text : List Char) : ∃ words, Spaced separates text words := by
  induction text with
  | nil => exact ⟨[], .empty⟩
  | cons c text ih =>
    obtain ⟨words, hwords⟩ := ih
    cases hc : separates c with
    | false => exact hwords.cons hc
    | true => exact ⟨words, .gap hc hwords⟩

theorem Spaced.eq_runs (h : Spaced separates text words) : words = runs separates text := by
  induction h with
  | empty => rfl
  | gap hs hrest ih => rw [ih, runs_cons hs]
  | word hne hw hstop hrest ih => rw [ih, runs_word_append_of_stop hne hw hstop]

/-- **The runs of a text are its words**, and there are no others. -/
theorem spaced_iff : Spaced separates text words ↔ words = runs separates text := by
  constructor
  · exact Spaced.eq_runs
  · rintro rfl
    obtain ⟨words, hwords⟩ := exists_spaced separates text
    exact hwords.eq_runs ▸ hwords

end

/-! ## Numbers in base sixteen -/

/-- The number that digits write in base sixteen, most significant first. -/
def hexNat? (digits : List Char) : Option Nat :=
  digits.foldlM (fun value c => (Program.digitValue? c).map (16 * value + ·)) 0

/-- The number that is written in base sixteen, behind a minus sign if it is negative. -/
def hexValue? (cs : List Char) : Option Int :=
  if cs.head? = some '-' then (hexNat? cs.tail).map fun n : Nat => -(n : Int) else (hexNat? cs).map Int.ofNat

theorem digitValue?_hexDigit : ∀ n < 16, Program.digitValue? (hexDigit n) = some n := by decide

theorem digitValue?_of_mem_hexDigits {n : Nat} {c : Char} (h : c ∈ hexDigits n) :
    (Program.digitValue? c).isSome = true := by
  induction n using Nat.strongRecOn with
  | ind n ih =>
    by_cases hn : n < 16
    · rw [hexDigits_of_lt hn, List.mem_singleton] at h
      rw [h, digitValue?_hexDigit n hn]
      rfl
    · rw [hexDigits_of_le (by omega), List.mem_append, List.mem_singleton] at h
      rcases h with h | rfl
      · exact ih (n / 16) (by omega) h
      · rw [digitValue?_hexDigit (n % 16) (by omega)]
        rfl

theorem hexNat?_concat {digits : List Char} {n d : Nat} (h : hexNat? digits = some n) (hd : d < 16) :
    hexNat? (digits ++ [hexDigit d]) = some (16 * n + d) := by
  rw [hexNat?, List.foldlM_append, ← hexNat?, h]
  simp [digitValue?_hexDigit d hd]

/-- Zeros in front do not count. -/
theorem hexNat?_zeros (k : Nat) : hexNat? (List.replicate k '0') = some 0 := by
  induction k with
  | zero => rfl
  | succ k ih => exact List.replicate_succ' ▸ hexNat?_concat ih (d := 0) (by decide)

theorem hexNat?_hexDigits (k n : Nat) : hexNat? (List.replicate k '0' ++ hexDigits n) = some n := by
  induction n using Nat.strongRecOn with
  | ind n ih =>
    by_cases hn : n < 16
    · rw [hexDigits_of_lt hn, hexNat?_concat (hexNat?_zeros k) hn]
      simp
    · rw [hexDigits_of_le (by omega), ← List.append_assoc, hexNat?_concat (ih (n / 16) (by omega)) (by omega)]
      congr 1
      omega

theorem hexDigits_ne_nil (n : Nat) : hexDigits n ≠ [] := by
  rw [hexDigits]
  split <;> simp

theorem hex_ne_nil (width : Nat) (n : Int) : (hex width n).toList ≠ [] := by
  simp [hex, zeroFilled, hexDigits_ne_nil]

theorem isSome_of_mem_zeros {k n : Nat} {c : Char} (h : c ∈ List.replicate k '0' ++ hexDigits n) :
    (Program.digitValue? c).isSome = true := by
  rcases List.mem_append.1 h with h | h
  · obtain rfl := (List.mem_replicate.1 h).2
    decide
  · exact digitValue?_of_mem_hexDigits h

/-- What stands in a number: digits, and a minus sign. -/
theorem eq_minus_or_digit {width : Nat} {n : Int} {c : Char} (h : c ∈ (hex width n).toList) :
    c = '-' ∨ (Program.digitValue? c).isSome = true := by
  simp only [hex, zeroFilled, String.toList_ofList, List.append_nil, List.append_assoc] at h
  rcases List.mem_append.1 h with h | h
  · split at h
    · exact .inl (List.mem_singleton.1 h)
    · cases h
  · exact .inr (isSome_of_mem_zeros h)

theorem hexValue?_zeros (k n : Nat) : hexValue? (List.replicate k '0' ++ hexDigits n) = some (n : Int) := by
  -- A sign in front would be no digit.
  have hsign : (List.replicate k '0' ++ hexDigits n).head? ≠ some '-' :=
    fun h => absurd (isSome_of_mem_zeros (List.mem_of_head? h)) (by decide)
  rw [hexValue?, if_neg hsign, hexNat?_hexDigits]
  rfl

/-- **A number is read back as it was written.** -/
theorem hexValue?_hex (width : Nat) (n : Int) : hexValue? (hex width n).toList = some n := by
  rw [hex, zeroFilled, String.toList_ofList]
  by_cases hn : n < 0
  · have habs : -(n.natAbs : Int) = n := by omega
    rw [decide_eq_true hn, hexValue?, if_pos (by simp)]
    exact (congrArg (Option.map _) (hexNat?_hexDigits _ _)).trans (congrArg some habs)
  · have habs : (n.natAbs : Int) = n := by omega
    rw [decide_eq_false hn]
    exact (hexValue?_zeros _ _).trans (congrArg some habs)

theorem hex_injective {width : Nat} {a b : Int} (h : hex width a = hex width b) : a = b := by
  have hvalue := hexValue?_hex width a
  rw [h, hexValue?_hex] at hvalue
  exact (Option.some.inj hvalue).symm

/-! ## Numbers of a fixed width -/

/-- A number of so many digits. -/
theorem length_hexDigits_le {n k : Nat} (h : n < 16 ^ (k + 1)) : (hexDigits n).length ≤ k + 1 := by
  induction k generalizing n with
  | zero => simp [hexDigits_of_lt (show n < 16 by simpa using h)]
  | succ k ih =>
    rcases Nat.lt_or_ge n 16 with hn | hn
    · rw [hexDigits_of_lt hn, List.length_singleton]
      omega
    · have hrest : n / 16 < 16 ^ (k + 1) := by
        rw [Nat.div_lt_iff_lt_mul (by decide), ← Nat.pow_succ]
        exact h
      rw [hexDigits_of_le hn, List.length_append, List.length_singleton]
      exact Nat.succ_le_succ (ih hrest)

/-- A number that has room in the width fills it, and one without a width fills one place if it is a digit. -/
theorem length_hex {width : Nat} {n : Int} (hn : 0 ≤ n) (hlt : n < (16 ^ max width 1 : Nat)) :
    (hex width n).toList.length = max width 1 := by
  obtain ⟨k, hk⟩ : ∃ k, max width 1 = k + 1 := ⟨max width 1 - 1, by omega⟩
  obtain ⟨i, rfl⟩ := Int.eq_ofNat_of_zero_le hn
  have hdigits : (hexDigits i).length ≤ k + 1 := length_hexDigits_le (hk ▸ Int.ofNat_lt.1 hlt)
  have hsome : 0 < (hexDigits i).length := List.length_pos_iff.2 (hexDigits_ne_nil i)
  have hsign : ¬ (i : Int) < 0 := by omega
  simp only [hex, String.toList_ofList, length_zeroFilled, hsign, decide_false, Int.natAbs_natCast, List.length_nil,
    Bool.false_eq_true, if_false]
  omega

end Chip8.Text
