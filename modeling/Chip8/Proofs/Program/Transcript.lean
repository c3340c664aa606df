import Chip8.Proofs.Program.Grammar
import Chip8.Proofs.Program.Listing
import Chip8.Proofs.Text.Integer

/-!
# Listings read back

A listing that is written down is a program text: every row is a line, with the word in front and the assembly text as
its comment. Reading the text gives the program back, whatever its words are, since no assembly text ends its line.
Only the zero byte that completes the last word of a program of odd length is added. Main statement:
`ofText_transcript`.
-/

namespace Chip8

/-! ## Texts in one line -/

section

variable {c : Char}

/-- Characters that stand within a line. -/
def Text.isInner (cs : List Char) : Bool := cs.all fun c => !isLineEnd c

theorem Text.isLineEnd_of_isInner {cs : List Char} (h : isInner cs = true) (hc : c ∈ cs) : isLineEnd c = false := by
  simpa using List.all_eq_true.1 h c hc

/-- Minus signs and digits stand within a line. -/
theorem Text.isLineEnd_of_numeric (h : c = '-' ∨ (Program.digitValue? c).isSome = true) : isLineEnd c = false := by
  have hdigits : isInner Program.digitChars = true := by decide
  rcases h with rfl | h
  · rfl
  · obtain ⟨v, hv⟩ := Option.isSome_iff_exists.1 h
    exact isLineEnd_of_isInner hdigits (Program.exists_isDigitOf_iff.1 ⟨v, Program.isDigitOf_of_digitValue? hv⟩)

/-- An operand is written within a line. -/
theorem GapForm.isLineEnd_write (form : GapForm) (n : Int) (hc : c ∈ (form.write n).toList) :
    Text.isLineEnd c = false := by
  apply Text.isLineEnd_of_numeric
  cases form with
  | decimal =>
    rw [write, Text.toList_decimal] at hc
    rcases List.mem_append.1 hc with hc | hc
    · split at hc
      · exact .inl (List.mem_singleton.1 hc)
      · cases hc
    · have hcode := Text.code_of_isDigit (Text.isDigit_of_mem_toDigits hc)
      exact .inr (by rw [Program.digitValue?, if_pos (by omega)]; rfl)
  | hex width => exact Text.eq_minus_or_digit hc

/-- A stretch of a mnemonic whose own text stands within a line. -/
def Piece.isInner : Piece → Bool
  | .text t => Text.isInner t.toList
  | .gap _ _ => true

theorem Piece.isLineEnd_of_fill {piece : Piece} {args : List Int} {t : String} (hpiece : piece.isInner = true)
    (h : piece.fill args = .ok t) (hc : c ∈ t.toList) : Text.isLineEnd c = false := by
  cases piece with
  | text t' =>
    cases h
    exact Text.isLineEnd_of_isInner hpiece hc
  | gap position form =>
    rw [fill] at h
    split at h
    · cases h
      exact form.isLineEnd_write _ hc
    · cases h

theorem Mnemonic.isLineEnd_of_fill {m : Mnemonic} {args : List Int} {t : String} (hm : m.all Piece.isInner = true)
    (h : m.fill args = .ok t) (hc : c ∈ t.toList) : Text.isLineEnd c = false := by
  induction m generalizing t with
  | nil =>
    cases h
    cases hc
  | cons piece rest ih =>
    rw [List.all_cons, Bool.and_eq_true] at hm
    obtain ⟨hpiece, hrest⟩ := hm
    obtain ⟨head, hhead, h⟩ := exists_ok_of_bind h
    obtain ⟨tail, htail, h⟩ := exists_ok_of_bind h
    cases h
    rw [String.toList_append, List.mem_append] at hc
    rcases hc with hc | hc
    · exact Piece.isLineEnd_of_fill hpiece hhead hc
    · exact ih hrest htail hc

/-- The mnemonics of the instruction set stand within a line. -/
theorem Instruction.isInner_of_mem_all : ∀ inst ∈ all, inst.mnemonic.all Piece.isInner = true := by decide

/-- **The assembly text of a word stands within a line.** -/
theorem Decoder.isLineEnd_of_disassemble {w : UInt16} {text : String}
    (h : standard.disassemble w.toNat = .ok text) (hc : c ∈ text.toList) : Text.isLineEnd c = false := by
  cases hfind : Instruction.all.find? (·.matchesWord w) with
  | none =>
    have hunknown : Op.ofWord? w = none := Option.map_eq_none_iff.2 hfind
    have hfront : Text.isInner "DW 0x".toList = true := by decide
    rw [disassemble_of_unknown hunknown] at h
    cases h
    rw [dataText, String.toList_append, List.mem_append] at hc
    rcases hc with hc | hc
    · exact Text.isLineEnd_of_isInner hfront hc
    · exact Text.isLineEnd_of_numeric (Text.eq_minus_or_digit hc)
  | some inst =>
    have hmem := List.mem_of_find?_eq_some hfind
    have hargs := Instruction.extract_of_mem_all hmem w
    simp only [disassemble, standard, decode_build, wordOf_natCast, hfind, hargs, Decoded.text] at h
    cases hfill : inst.mnemonic.fill (inst.op.args w) with
    | error m =>
      rw [hfill] at h
      cases h
    | ok t =>
      rw [hfill] at h
      cases h
      exact Mnemonic.isLineEnd_of_fill (Instruction.isInner_of_mem_all inst hmem) hfill hc

end

/-! ## Words in four digits -/

namespace Text

/-- The digits of a number in at least so many places. -/
def padded (width n : Nat) : List Char := List.replicate (width - (hexDigits n).length) '0' ++ hexDigits n

/-- One place more is the next digit, be it a zero or not. -/
theorem padded_succ (width n : Nat) : padded (width + 2) n = padded (width + 1) (n / 16) ++ [hexDigit (n % 16)] := by
  rcases Nat.lt_or_ge n 16 with hn | hn
  · rw [padded, padded, hexDigits_of_lt hn, Nat.div_eq_of_lt hn, Nat.mod_eq_of_lt hn, hexDigits_of_lt (by decide)]
    simp [List.replicate_succ', hexDigit]
  · rw [padded, hexDigits_of_le hn, padded, List.append_assoc, List.length_append, List.length_singleton,
      show width + 2 - ((hexDigits (n / 16)).length + 1) = width + 1 - (hexDigits (n / 16)).length by omega]

theorem toList_hex_four {n : Nat} (hn : n < 65536) :
    (hex 4 n).toList = [hexDigit (n / 4096), hexDigit (n / 256 % 16), hexDigit (n / 16 % 16), hexDigit (n % 16)] := by
  have hfour : (hex 4 n).toList = padded 4 n := by
    have hsign : ¬ (n : Int) < 0 := by omega
    simp [hex, zeroFilled, padded, hsign]
  rw [hfour, padded_succ, padded_succ, padded_succ, padded, hexDigits_of_lt (by omega)]
  simp [Nat.div_div_eq_div_mul]

end Text

namespace Program

/-- The bytes of a word, most significant first. -/
def bytesOf (w : UInt16) : List UInt8 := [UInt8.ofNat (w.toNat / 256), UInt8.ofNat (w.toNat % 256)]

theorem writes_hex (w : UInt16) : Writes (Text.hex 4 w.toNat).toList (bytesOf w) := by
  have hw := w.toNat_lt
  have hdigit {v : Nat} (hv : v < 16) : IsDigitOf v (Text.hexDigit v) := ⟨hv, .inl rfl⟩
  have hhigh : (UInt8.ofNat (w.toNat / 256)).toNat = w.toNat / 256 := UInt8.toNat_ofNat_of_lt' (show _ < 2 ^ 8 by omega)
  have hlow : (UInt8.ofNat (w.toNat % 256)).toNat = w.toNat % 256 := UInt8.toNat_ofNat_of_lt' (show _ < 2 ^ 8 by omega)
  rw [Text.toList_hex_four hw]
  refine .word ⟨?_, ?_⟩ ⟨?_, ?_⟩
  · rw [hhigh, Nat.div_div_eq_div_mul]
    exact hdigit (by omega)
  · rw [hhigh]
    exact hdigit (by omega)
  · rw [hlow, show w.toNat % 256 / 16 = w.toNat / 16 % 16 by omega]
    exact hdigit (by omega)
  · rw [hlow, show w.toNat % 256 % 16 = w.toNat % 16 by omega]
    exact hdigit (by omega)

/-- The words of a program are its bytes two by two. -/
theorem flatMap_words (rom : List UInt8) :
    (words rom).flatMap bytesOf = rom ++ if rom.length % 2 = 1 then [0] else [] := by
  have hbytes (high low : UInt8) : bytesOf (wordOfBytes high low) = [high, low] := by
    have hhigh := high.toNat_lt
    have hlow := low.toNat_lt
    rw [bytesOf, toNat_wordOfBytes, show (high.toNat * 256 + low.toNat) / 256 = high.toNat by omega,
      show (high.toNat * 256 + low.toNat) % 256 = low.toNat by omega, UInt8.ofNat_toNat, UInt8.ofNat_toNat]
  fun_induction words rom with
  | case1 => rfl
  | case2 high => rw [List.flatMap_singleton, hbytes]; rfl
  | case3 high low rest ih =>
    rw [List.flatMap_cons, hbytes, ih, List.length_cons, List.length_cons,
      show (rest.length + 1 + 1) % 2 = rest.length % 2 by omega]
    rfl

/-! ## Rows as lines -/

/-- A row as a line of a program text: the word in four digits of either case, and the assembly text as a comment. -/
def Row.IsLine (row : Row) (line : List Char) : Prop :=
  ∃ digits, Writes digits (bytesOf row.word) ∧ line = digits ++ " ; ".toList ++ row.text.toList

/-- The lines of the text are the rows of the listing, one by one. -/
def Transcribes (source : List Char) (rs : List Row) : Prop :=
  ∃ ls, Text.Lined source ls ∧ List.Forall₂ Row.IsLine rs ls

/-- A row in upper-case digits. -/
def Row.line (row : Row) : String := Text.hex 4 row.word.toNat ++ " ; " ++ row.text

/-- The rows with line feeds between them. -/
def transcript (rs : List Row) : String := "\n".intercalate (rs.map Row.line)

variable {rs : List Row} {row : Row} {line source : List Char}

/-- The word is the token of the line, and the text is no part of it. -/
theorem Row.IsLine.readTokens (h : row.IsLine line) (n : Nat) :
    readTokens n (tokens line) = .ok (bytesOf row.word) := by
  obtain ⟨digits, hwrites, rfl⟩ := h
  have hspells : Spells digits (bytesOf row.word) := ⟨[], digits, .inl rfl, hwrites, rfl⟩
  obtain ⟨hne, hinner⟩ := (exists_spells_iff.1 ⟨_, hspells⟩).inner
  have htokens : tokens (digits ++ " ; ".toList ++ row.text.toList) = [digits] := by
    rw [List.append_assoc, tokens_token_append hne hinner (by simp; decide)]
    exact congrArg (digits :: ·) ((tokens_separator_cons (by decide) _).trans (tokens_of_opens (by decide) _))
  rw [htokens, Program.readTokens, tokenBytes?_eq_some_iff.2 hspells]
  exact congrArg Except.ok (List.append_nil _)

/-- By induction on the rows: each line gives the two bytes of its word. -/
theorem readLines_of_isLine {ls : List (List Char)} (h : List.Forall₂ Row.IsLine rs ls) (n : Nat) :
    readLines n ls = .ok (rs.flatMap fun row => bytesOf row.word) := by
  induction h generalizing n with
  | nil => rfl
  | cons hline _ ih =>
    rw [readLines, hline.readTokens, ih]
    rfl

theorem read_of_transcribes (h : Transcribes source rs) :
    read source = .ok (rs.flatMap fun row => bytesOf row.word) := by
  obtain ⟨ls, hlined, hrows⟩ := h
  rw [read, ← Text.lined_iff.1 hlined, readLines_of_isLine hrows]

theorem Row.isLine_line (row : Row) : row.IsLine row.line.toList :=
  ⟨_, writes_hex row.word, by rw [line, String.toList_append, String.toList_append]⟩

/-- A written row is one line. -/
theorem Row.inner_line (h : Decoder.standard.disassemble row.word.toNat = .ok row.text) :
    row.line.toList ≠ [] ∧ ∀ c ∈ row.line.toList, Text.isLineEnd c = false := by
  rw [line, String.toList_append, String.toList_append]
  refine ⟨by simp, fun c hc => ?_⟩
  rcases List.mem_append.1 hc with hc | hc
  · rcases List.mem_append.1 hc with hc | hc
    · exact Text.isLineEnd_of_numeric (Text.eq_minus_or_digit hc)
    · have hsign : Text.isInner " ; ".toList = true := by decide
      exact Text.isLineEnd_of_isInner hsign hc
  · exact Decoder.isLineEnd_of_disassemble h hc

theorem transcribes_transcript (h : ∀ row ∈ rs, Decoder.standard.disassemble row.word.toNat = .ok row.text) :
    Transcribes (transcript rs).toList rs := by
  refine ⟨rs.map fun row => row.line.toList, ?_, ?_⟩
  · rw [transcript, String.toList_intercalate, List.map_map]
    exact Text.lined_intercalate (List.forall_mem_map.2 fun row hrow => Row.inner_line (h row hrow))
  · rw [List.forall₂_map_right_iff, List.forall₂_same]
    exact fun row _ => row.isLine_line

/-! ## Listings -/

/-- The rows of a listing are those of the words, with the texts that the decoder has for them. -/
theorem word_text_of_rows {d : Decoder} {address : Int} {ws : List UInt16} (h : rows d address ws = .ok rs) :
    rs.map Row.word = ws ∧ ∀ row ∈ rs, d.disassemble row.word.toNat = .ok row.text := by
  induction ws generalizing address rs with
  | nil =>
    cases h
    exact ⟨rfl, List.forall_mem_nil _⟩
  | cons word rest ih =>
    obtain ⟨text, htext, h⟩ := exists_ok_of_bind h
    obtain ⟨more, hmore, h⟩ := exists_ok_of_bind h
    cases h
    obtain ⟨hwords, htexts⟩ := ih hmore
    exact ⟨congrArg (word :: ·) hwords, List.forall_mem_cons.2 ⟨htext, htexts⟩⟩

/-- **A listing that is written down reads back as its program.** Every program has a listing from any address on, with
a row for each of its words and two bytes from one row to the next. A text whose lines are the rows, written with four
digits of either case and any line ends, is read as the program, with a zero byte behind it where its length is odd. -/
theorem ofText_transcript (rom : List UInt8) (start : Int) :
    ∃ rs, listing Decoder.standard rom start = .ok rs ∧ rs.length = (rom.length + 1) / 2 ∧
      (∀ (k : Nat) row, rs[k]? = some row → row.address = start + 2 * k) ∧
      ofText (transcript rs) = .ok (rom ++ if rom.length % 2 = 1 then [0] else []) ∧
      ∀ source : String, Transcribes source.toList rs →
        ofText source = .ok (rom ++ if rom.length % 2 = 1 then [0] else []) := by
  obtain ⟨rs, hlisting, hlength, hshows⟩ := listing_standard rom start
  obtain ⟨hwords, htexts⟩ := word_text_of_rows hlisting
  have hbytes : (rs.flatMap fun row => bytesOf row.word) = rom ++ if rom.length % 2 = 1 then [0] else [] := by
    rw [← flatMap_words, ← hwords, List.flatMap_map]
  have hread (source : String) (h : Transcribes source.toList rs) :
      ofText source = .ok (rom ++ if rom.length % 2 = 1 then [0] else []) := by
    rw [ofText, read_of_transcribes h, hbytes]
  refine ⟨rs, hlisting, hlength, fun k row hrow => ?_, hread _ (transcribes_transcript htexts), hread⟩
  have hk : k < rs.length := (List.getElem?_eq_some_iff.1 hrow).1
  obtain ⟨row', hrow', hshown⟩ := hshows k (by omega)
  obtain rfl : row' = row := Option.some.inj (hrow'.symm.trans hrow)
  exact hshown.address

/-- The second word is no instruction. -/
example : (listing Decoder.standard [0x00, 0xE0, 0xFF] 0x200).map transcript =
    .ok "00E0 ; CLS\nFF00 ; DW 0xFF00" := by decide +kernel

end Program

end Chip8
