import Chip8.Proofs.Text.Lines
import Chip8.Proofs.Text.Words
import Mathlib.Data.List.Forall2

/-!
# The grammar of program texts

A program text is bytes and words in hexadecimal, with separators and comments around them. That is said here twice
without reading: row by row, by the lines of the text and the tokens in front of their comments (`Tokenized`), and as a
text that is put together piece by piece for given bytes (`Written`). Main statement: `ofText_accepts`, by which the
texts that are read are those of the grammar, with the bytes they spell, and every other text is refused for its first
token that is no byte and no word.
-/

namespace Chip8.Program

/-! ## Digits and tokens -/

/-- The hexadecimal digits, in either case. -/
def digitChars : List Char := "0123456789abcdefABCDEF".toList

/-- The character is a digit of this value, in either case. -/
def IsDigitOf (v : Nat) (c : Char) : Prop := v < 16 ∧ (c = Text.hexDigit v ∨ c = (Text.hexDigit v).toLower)

/-- Two digits write the byte. -/
def WritesByte (b : UInt8) (high low : Char) : Prop := IsDigitOf (b.toNat / 16) high ∧ IsDigitOf (b.toNat % 16) low

/-- The mark in front of a token, if there is one. -/
def IsMark (mark : List Char) : Prop := mark = [] ∨ mark = ['0', 'x']

/-- Two digits write one byte, and four write two, most significant first. -/
inductive Writes : List Char → List UInt8 → Prop
  | byte {b : UInt8} {h l : Char} (hb : WritesByte b h l) : Writes [h, l] [b]
  | word {b₁ b₂ : UInt8} {h₁ l₁ h₂ l₂ : Char} (hb₁ : WritesByte b₁ h₁ l₁) (hb₂ : WritesByte b₂ h₂ l₂) :
    Writes [h₁, l₁, h₂, l₂] [b₁, b₂]

/-- A token and the bytes its digits write. -/
def Spells (token : List Char) (bytes : List UInt8) : Prop :=
  ∃ mark digits, IsMark mark ∧ Writes digits bytes ∧ token = mark ++ digits

/-- A byte or a word: two or four digits behind an optional mark. -/
def IsToken (token : List Char) : Prop :=
  ∃ mark digits, IsMark mark ∧ (digits.length = 2 ∨ digits.length = 4) ∧
    (∀ c ∈ digits, c ∈ digitChars) ∧ token = mark ++ digits

variable {c h l : Char} {b : UInt8} {v : Nat} {token mark digits : List Char} {bytes : List UInt8}

theorem digitValue?_of_isDigitOf (h : IsDigitOf v c) : digitValue? c = some v := by
  have hdigits : ∀ v < 16, digitValue? (Text.hexDigit v) = some v ∧ digitValue? (Text.hexDigit v).toLower = some v := by
    decide
  obtain ⟨hv, rfl | rfl⟩ := h
  · exact (hdigits v hv).1
  · exact (hdigits v hv).2

theorem isDigitOf_of_digitValue? (h : digitValue? c = some v) : IsDigitOf v c := by
  have hletters : ∀ v < 16, (v < 10 → Char.ofNat (v + 48) = Text.hexDigit v) ∧
      (10 ≤ v → Char.ofNat (v + 55) = Text.hexDigit v ∧ Char.ofNat (v + 87) = (Text.hexDigit v).toLower) := by decide
  have hchar {n : Nat} (hn : c.toNat = n) : c = Char.ofNat n := by rw [← hn, Char.ofNat_toNat]
  have hcode : v < 10 ∧ c.toNat = v + 48 ∨ (10 ≤ v ∧ v < 16) ∧ (c.toNat = v + 55 ∨ c.toNat = v + 87) := by
    simp only [digitValue?] at h
    split at h
    · have := Option.some.inj h
      omega
    · split at h
      · have := Option.some.inj h
        omega
      · split at h
        · have := Option.some.inj h
          omega
        · cases h
  obtain ⟨hv, hdigit⟩ | ⟨⟨hle, hlt⟩, hupper | hlower⟩ := hcode
  · exact ⟨by omega, .inl ((hchar hdigit).trans ((hletters v (by omega)).1 hv))⟩
  · exact ⟨hlt, .inl ((hchar hupper).trans ((hletters v hlt).2 hle).1)⟩
  · exact ⟨hlt, .inr ((hchar hlower).trans ((hletters v hlt).2 hle).2)⟩

/-- The digits are the characters with a value. -/
theorem exists_isDigitOf_iff : (∃ v, IsDigitOf v c) ↔ c ∈ digitChars := by
  have hvalues : digitChars.all (fun c => (digitValue? c).isSome) = true := by decide
  have hdigits : ∀ v < 16, Text.hexDigit v ∈ digitChars ∧
      (Text.hexDigit v).toLower ∈ digitChars := by decide
  constructor
  · rintro ⟨v, hv, rfl | rfl⟩
    · exact (hdigits v hv).1
    · exact (hdigits v hv).2
  · intro hc
    obtain ⟨v, hv⟩ := Option.isSome_iff_exists.1 (List.all_eq_true.1 hvalues c hc)
    exact ⟨v, isDigitOf_of_digitValue? hv⟩

theorem byteOf?_eq_some_iff : byteOf? h l = some b ↔ WritesByte b h l := by
  constructor
  · intro hb
    obtain ⟨x, hx, y, hy, heq⟩ : ∃ x, digitValue? h = some x ∧ ∃ y, digitValue? l = some y ∧
        UInt8.ofNat (16 * x + y) = b := by
      simpa [byteOf?, Option.bind_eq_some_iff] using hb
    have hx' := isDigitOf_of_digitValue? hx
    have hy' := isDigitOf_of_digitValue? hy
    have hvalue : b.toNat = 16 * x + y := by
      rw [← heq, UInt8.toNat_ofNat']
      have := hx'.1
      have := hy'.1
      omega
    have hhigh : b.toNat / 16 = x := by have := hy'.1; omega
    have hlow : b.toNat % 16 = y := by have := hy'.1; omega
    exact ⟨hhigh ▸ hx', hlow ▸ hy'⟩
  · rintro ⟨hhigh, hlow⟩
    have hvalue : UInt8.ofNat (16 * (b.toNat / 16) + b.toNat % 16) = b := by
      rw [Nat.div_add_mod, UInt8.ofNat_toNat]
    simp only [byteOf?, digitValue?_of_isDigitOf hhigh, digitValue?_of_isDigitOf hlow]
    exact congrArg some hvalue

theorem bytesOf?_eq_some_iff : bytesOf? digits = some bytes ↔ Writes digits bytes := by
  constructor
  · intro h
    rw [bytesOf?.eq_def] at h
    split at h
    · obtain ⟨b, hb, rfl⟩ : ∃ b, byteOf? _ _ = some b ∧ [b] = bytes := by simpa [Option.bind_eq_some_iff] using h
      exact .byte (byteOf?_eq_some_iff.1 hb)
    · obtain ⟨b₁, hb₁, b₂, hb₂, rfl⟩ :
          ∃ b₁, byteOf? _ _ = some b₁ ∧ ∃ b₂, byteOf? _ _ = some b₂ ∧ [b₁, b₂] = bytes := by
        simpa [Option.bind_eq_some_iff] using h
      exact .word (byteOf?_eq_some_iff.1 hb₁) (byteOf?_eq_some_iff.1 hb₂)
    · cases h
  · rintro (hb | ⟨hb₁, hb₂⟩)
    · simp [bytesOf?, byteOf?_eq_some_iff.2 hb]
    · simp [bytesOf?, byteOf?_eq_some_iff.2 hb₁, byteOf?_eq_some_iff.2 hb₂]

theorem WritesByte.exists_iff : (∃ b, WritesByte b h l) ↔
    h ∈ digitChars ∧ l ∈ digitChars := by
  simp only [← exists_isDigitOf_iff]
  constructor
  · rintro ⟨b, hhigh, hlow⟩
    exact ⟨⟨_, hhigh⟩, ⟨_, hlow⟩⟩
  · rintro ⟨⟨x, hx⟩, ⟨y, hy⟩⟩
    refine ⟨UInt8.ofNat (16 * x + y), ?_⟩
    rw [← byteOf?_eq_some_iff, byteOf?, digitValue?_of_isDigitOf hx, digitValue?_of_isDigitOf hy]
    rfl

/-- Two or four digits write something. -/
theorem exists_writes_iff : (∃ bytes, Writes digits bytes) ↔
    (digits.length = 2 ∨ digits.length = 4) ∧ ∀ c ∈ digits, c ∈ digitChars := by
  constructor
  · rintro ⟨bytes, hb | ⟨hb₁, hb₂⟩⟩
    · obtain ⟨hh, hl⟩ := WritesByte.exists_iff.1 ⟨_, hb⟩
      exact ⟨.inl rfl, by simp only [List.forall_mem_cons]; exact ⟨hh, hl, by simp⟩⟩
    · obtain ⟨hh₁, hl₁⟩ := WritesByte.exists_iff.1 ⟨_, hb₁⟩
      obtain ⟨hh₂, hl₂⟩ := WritesByte.exists_iff.1 ⟨_, hb₂⟩
      exact ⟨.inr rfl, by simp only [List.forall_mem_cons]; exact ⟨hh₁, hl₁, hh₂, hl₂, by simp⟩⟩
  · rintro ⟨hlength, hdigits⟩
    match digits with
    | [h, l] =>
      simp only [List.forall_mem_cons] at hdigits
      obtain ⟨b, hb⟩ := WritesByte.exists_iff.2 ⟨hdigits.1, hdigits.2.1⟩
      exact ⟨[b], .byte hb⟩
    | [h₁, l₁, h₂, l₂] =>
      simp only [List.forall_mem_cons] at hdigits
      obtain ⟨b₁, hb₁⟩ := WritesByte.exists_iff.2 ⟨hdigits.1, hdigits.2.1⟩
      obtain ⟨b₂, hb₂⟩ := WritesByte.exists_iff.2 ⟨hdigits.2.2.1, hdigits.2.2.2.1⟩
      exact ⟨[b₁, b₂], .word hb₁ hb₂⟩
    | [] | [_] | [_, _, _] => simp at hlength
    | _ :: _ :: _ :: _ :: _ :: _ => simp at hlength

/-- What writes something does not begin with the mark, for `x` is no digit. -/
theorem Writes.unmarked {more : List Char} (h : Writes digits bytes) : digits ≠ '0' :: 'x' :: more := by
  have hx : ¬ ∃ v, IsDigitOf v 'x' := fun hx => absurd (exists_isDigitOf_iff.1 hx) (by decide)
  rintro rfl
  cases h with
  | byte hb => exact hx ⟨_, hb.2⟩
  | word hb _ => exact hx ⟨_, hb.2⟩

theorem tokenBytes?_eq_some_iff : tokenBytes? token = some bytes ↔ Spells token bytes := by
  constructor
  · intro h
    rw [tokenBytes?.eq_def] at h
    split at h
    · next digits => exact ⟨['0', 'x'], digits, .inr rfl, bytesOf?_eq_some_iff.1 h, rfl⟩
    · exact ⟨[], token, .inl rfl, bytesOf?_eq_some_iff.1 h, rfl⟩
  · rintro ⟨mark, digits, rfl | rfl, hwrites, rfl⟩
    · exact (tokenBytes?.eq_2 _ fun more => hwrites.unmarked).trans (bytesOf?_eq_some_iff.2 hwrites)
    · exact bytesOf?_eq_some_iff.2 hwrites

/-- The tokens that spell something are the bytes and the words. -/
theorem exists_spells_iff : (∃ bytes, Spells token bytes) ↔ IsToken token := by
  constructor
  · rintro ⟨bytes, mark, digits, hmark, hwrites, heq⟩
    obtain ⟨hlength, hdigits⟩ := exists_writes_iff.1 ⟨bytes, hwrites⟩
    exact ⟨mark, digits, hmark, hlength, hdigits, heq⟩
  · rintro ⟨mark, digits, hmark, hlength, hdigits, heq⟩
    obtain ⟨bytes, hwrites⟩ := exists_writes_iff.2 ⟨hlength, hdigits⟩
    exact ⟨bytes, mark, digits, hmark, hwrites, heq⟩

theorem tokenBytes?_eq_none_iff : tokenBytes? token = none ↔ ¬ IsToken token := by
  rw [← exists_spells_iff, Option.eq_none_iff_forall_ne_some]
  simp only [ne_eq, tokenBytes?_eq_some_iff, not_exists]

/-! ## Rows of tokens -/

/-- Does a comment start here? -/
def opens (c : Char) : Bool := c == ';' || c == '#'

/-- What stands in a line in front of its comment. -/
def IsCode (line front : List Char) : Prop :=
  (∀ c ∈ front, opens c = false) ∧ ∃ comment, line = front ++ comment ∧ ∀ c ∈ comment.head?, opens c = true

/-- A text and the tokens of its lines. -/
def Tokenized (source : List Char) (rows : List (List (List Char))) : Prop :=
  ∃ ls, Text.Lined source ls ∧
    List.Forall₂ (fun line row => ∃ front, IsCode line front ∧ Text.Spaced separates front row) ls rows

variable {line front rest comment source : List Char} {rows : List (List (List Char))}

theorem code_append (hfront : ∀ c ∈ front, opens c = false) (rest : List Char) :
    code (front ++ rest) = front ++ code rest :=
  List.takeWhile_append_of_pos fun c hc => by simpa [opens] using hfront c hc

theorem code_of_opens (hstop : ∀ c ∈ comment.head?, opens c = true) : code comment = [] := by
  cases comment with
  | nil => rfl
  | cons c comment =>
    refine List.takeWhile_cons_of_neg ?_
    have := hstop c rfl
    simp only [opens, Bool.or_eq_true, beq_iff_eq] at this
    rcases this with rfl | rfl <;> decide

/-- A text has a part in front of the first character of a class, and a rest. -/
theorem exists_span (p : Char → Bool) (cs : List Char) :
    ∃ front rest, cs = front ++ rest ∧ (∀ c ∈ front, p c = false) ∧ ∀ c ∈ rest.head?, p c = true := by
  induction cs with
  | nil => exact ⟨[], [], rfl, by simp, by simp⟩
  | cons c cs ih =>
    cases hc : p c with
    | true => exact ⟨[], c :: cs, rfl, by simp, by simpa using hc⟩
    | false =>
      obtain ⟨front, rest, rfl, hfront, hrest⟩ := ih
      exact ⟨c :: front, rest, rfl, List.forall_mem_cons.2 ⟨hc, hfront⟩, hrest⟩

theorem isCode_iff : IsCode line front ↔ front = code line := by
  have hcode : ∀ {front}, IsCode line front → front = code line := by
    rintro front ⟨hfront, comment, rfl, hstop⟩
    rw [code_append hfront, code_of_opens hstop, List.append_nil]
  constructor
  · exact hcode
  · rintro rfl
    obtain ⟨front, comment, heq, hfront, hstop⟩ := exists_span opens line
    have h : IsCode line front := ⟨hfront, comment, heq, hstop⟩
    exact hcode h ▸ h

theorem tokenized_iff : Tokenized source rows ↔ rows = (Text.lines source).map tokens := by
  simp only [Tokenized, isCode_iff, Text.lined_iff, Text.spaced_iff, exists_eq_left]
  constructor
  · intro h
    rw [← List.forall₂_eq_eq_eq, List.forall₂_map_right_iff]
    exact h.flip
  · rintro rfl
    rw [List.forall₂_map_right_iff, List.forall₂_same]
    exact fun line _ => rfl

/-! ## Reading in one pass -/

/-- The tokens of rows with the numbers of their lines, the first of which is `n`. -/
def placed (n : Nat) : List (List (List Char)) → List (Nat × List Char)
  | [] => []
  | row :: rest => row.map (n, ·) ++ placed (n + 1) rest

/-- The bytes of tokens, up to the first that is no byte and no word. -/
def readPlaced : List (Nat × List Char) → Except TokenError (List UInt8)
  | [] => .ok []
  | (n, token) :: rest => match tokenBytes? token with
    | none => .error ⟨n, token⟩
    | some bytes => (readPlaced rest).map (bytes ++ ·)

theorem readPlaced_append (a b : List (Nat × List Char)) :
    readPlaced (a ++ b) = (readPlaced a).bind fun bytes => (readPlaced b).map (bytes ++ ·) := by
  induction a with
  | nil => cases h : readPlaced b <;> simp [readPlaced, Except.bind, Except.map, h]
  | cons p a ih =>
    obtain ⟨n, token⟩ := p
    rw [List.cons_append, readPlaced, readPlaced, ih]
    cases tokenBytes? token with
    | none => rfl
    | some bytes => cases readPlaced a <;> cases readPlaced b <;> simp [Except.bind, Except.map]

theorem readTokens_eq (n : Nat) (row : List (List Char)) : readTokens n row = readPlaced (row.map (n, ·)) := by
  induction row with
  | nil => rfl
  | cons token row ih =>
    rw [readTokens, ih]
    rfl

theorem readLines_eq (n : Nat) (ls : List (List Char)) : readLines n ls = readPlaced (placed n (ls.map tokens)) := by
  induction ls generalizing n with
  | nil => rfl
  | cons line ls ih =>
    rw [readLines, ih, readTokens_eq, List.map_cons, placed, readPlaced_append]
    rfl

theorem map_snd_placed (n : Nat) (rows : List (List (List Char))) : (placed n rows).map Prod.snd = rows.flatten := by
  induction rows generalizing n with
  | nil => rfl
  | cons row rows ih => simp [placed, ih, Function.comp_def]

/-- Tokens and the bytes they spell together. -/
def SpellAll (tokens : List (List Char)) (bytes : List UInt8) : Prop :=
  ∃ parts, List.Forall₂ Spells tokens parts ∧ parts.flatten = bytes

variable {more : List (List Char)} {ps : List (Nat × List Char)} {e : TokenError}

theorem spellAll_nil_iff : SpellAll [] bytes ↔ bytes = [] := by
  simp [SpellAll, eq_comm]

theorem spellAll_cons_iff : SpellAll (token :: more) bytes ↔
    ∃ part rest, Spells token part ∧ SpellAll more rest ∧ bytes = part ++ rest := by
  constructor
  · rintro ⟨_, h, rfl⟩
    obtain ⟨part, parts, hpart, hparts, rfl⟩ := List.forall₂_cons_left_iff.1 h
    exact ⟨part, parts.flatten, hpart, ⟨parts, hparts, rfl⟩, rfl⟩
  · rintro ⟨part, _, hpart, ⟨parts, hparts, rfl⟩, rfl⟩
    exact ⟨part :: parts, .cons hpart hparts, rfl⟩

theorem readPlaced_eq_ok_iff : readPlaced ps = .ok bytes ↔ SpellAll (ps.map Prod.snd) bytes := by
  induction ps generalizing bytes with
  | nil => simp [readPlaced, spellAll_nil_iff, eq_comm]
  | cons p ps ih =>
    obtain ⟨n, token⟩ := p
    rw [readPlaced, List.map_cons, spellAll_cons_iff]
    simp only [← tokenBytes?_eq_some_iff, ← ih]
    cases tokenBytes? token with
    | none => simp
    | some part => cases readPlaced ps <;> simp [Except.map, eq_comm]

/-- By induction on the tokens: an error is that of the first token, or that of the others behind a byte or a word. -/
theorem readPlaced_eq_error_iff : readPlaced ps = .error e ↔
    ∃ fore aft, ps = fore ++ (e.line, e.token) :: aft ∧ (∀ p ∈ fore, IsToken p.2) ∧ ¬ IsToken e.token := by
  induction ps with
  | nil => simp [readPlaced]
  | cons p ps ih =>
    obtain ⟨n, token⟩ := p
    rw [readPlaced]
    by_cases htoken : IsToken token
    · obtain ⟨part, hpart⟩ := exists_spells_iff.2 htoken
      have hrest : (readPlaced ps).map (part ++ ·) = .error e ↔ readPlaced ps = .error e := by
        cases readPlaced ps <;> simp [Except.map]
      simp only [tokenBytes?_eq_some_iff.2 hpart, hrest, ih]
      constructor
      · rintro ⟨fore, aft, rfl, hfore, hnot⟩
        exact ⟨(n, token) :: fore, aft, rfl, List.forall_mem_cons.2 ⟨htoken, hfore⟩, hnot⟩
      · rintro ⟨fore, aft, heq, hfore, hnot⟩
        cases fore with
        | nil => exact absurd ((Prod.mk.inj (List.cons.inj heq).1).2 ▸ htoken) hnot
        | cons q fore => exact ⟨fore, aft, (List.cons.inj heq).2, (List.forall_mem_cons.1 hfore).2, hnot⟩
    · simp only [tokenBytes?_eq_none_iff.2 htoken]
      constructor
      · rintro ⟨⟩
        exact ⟨[], ps, rfl, List.forall_mem_nil _, htoken⟩
      · rintro ⟨fore, aft, heq, hfore, hnot⟩
        cases fore with
        | nil =>
          obtain ⟨hline, hword⟩ := Prod.mk.inj (List.cons.inj heq).1
          rw [hline, hword]
        | cons q fore =>
          obtain rfl := (List.cons.inj heq).1
          exact absurd (List.forall_mem_cons.1 hfore).1 htoken

/-! ## Texts piece by piece -/

/-- Does a token end in front of this character? -/
def stops (c : Char) : Bool := separates c || opens c

/-- A text that writes bytes: tokens, separators and comments in turn. A token ends with the text or in front of a
separator or a comment, and a comment with its line. -/
inductive Written : List UInt8 → List Char → Prop
  | done : Written [] []
  | separator {c : Char} {rest : List Char} {bytes : List UInt8} (hs : separates c = true)
    (hrest : Written bytes rest) : Written bytes (c :: rest)
  | comment {c ending : Char} {comment rest : List Char} {bytes : List UInt8} (hc : opens c = true)
    (hcomment : ∀ d ∈ comment, Text.isLineEnd d = false) (hend : Text.isLineEnd ending = true)
    (hrest : Written bytes rest) : Written bytes (c :: comment ++ ending :: rest)
  | lastComment {c : Char} {comment : List Char} (hc : opens c = true)
    (hcomment : ∀ d ∈ comment, Text.isLineEnd d = false) : Written [] (c :: comment)
  | token {token rest : List Char} {part bytes : List UInt8} (hspells : Spells token part)
    (hstop : ∀ c ∈ rest.head?, stops c = true) (hrest : Written bytes rest) : Written (part ++ bytes) (token ++ rest)

/-- The tokens of a text in reading order. -/
def allTokens (source : List Char) : List (List Char) := (Text.lines source).flatMap tokens

theorem separates_of_isLineEnd (h : Text.isLineEnd c = true) : separates c = true := by
  rw [separates, Text.isBlank_of_isLineEnd h, Bool.true_or]

/-- What does not separate ends no line. -/
theorem isLineEnd_eq_false (h : separates c = false) : Text.isLineEnd c = false := by
  rw [← Bool.not_eq_true]
  intro hend
  rw [separates_of_isLineEnd hend] at h
  cases h

theorem separates_of_opens (h : opens c = true) : separates c = false := by
  simp only [opens, Bool.or_eq_true, beq_iff_eq] at h
  rcases h with rfl | rfl <;> decide

theorem opens_of_separates (h : separates c = true) : opens c = false := by
  rw [← Bool.not_eq_true]
  intro hopens
  rw [separates_of_opens hopens] at h
  cases h

theorem tokens_of_opens (hc : opens c = true) (comment : List Char) : tokens (c :: comment) = [] := by
  rw [tokens, code_of_opens (by simpa using hc)]
  rfl

theorem tokens_separator_cons (hs : separates c = true) (line : List Char) : tokens (c :: line) = tokens line := by
  have hcode := code_append (List.forall_mem_singleton.2 (opens_of_separates hs)) line
  rw [List.singleton_append, List.singleton_append] at hcode
  rw [tokens, hcode, Text.runs_cons hs, tokens]

/-- The code of a line begins as the line does, unless with a comment. -/
theorem head?_code (h : (code line).head? = some c) : line.head? = some c ∧ opens c = false := by
  rw [code, List.head?_takeWhile, Option.filter_eq_some_iff] at h
  exact ⟨h.1, by simpa [opens] using h.2⟩

theorem tokens_token_append (hne : token ≠ []) (htoken : ∀ c ∈ token, stops c = false)
    (hstop : ∀ c ∈ line.head?, stops c = true) : tokens (token ++ line) = token :: tokens line := by
  have hinner : ∀ c ∈ token, separates c = false ∧ opens c = false := by simpa [stops] using htoken
  rw [tokens, code_append fun c hc => (hinner c hc).2, tokens]
  refine Text.runs_word_append_of_stop hne (fun c hc => (hinner c hc).1) fun c hc => ?_
  obtain ⟨hhead, hopens⟩ := head?_code hc
  simpa [stops, hopens] using hstop c hhead

theorem tokens_nil : tokens [] = [] := rfl

/-- The tokens of a text with characters in front, by what these add to the first line. -/
theorem allTokens_append (added : List (List Char)) (hne : front ≠ [])
    (hfront : ∀ c ∈ front, Text.isLineEnd c = false)
    (hfirst : tokens (front ++ (Text.lines rest).headD []) = added ++ tokens ((Text.lines rest).headD [])) :
    allTokens (front ++ rest) = added ++ allTokens rest := by
  rw [allTokens, Text.lines_append hne hfront, allTokens]
  cases hlines : Text.lines rest with
  | nil =>
    rw [hlines, List.headD_nil, List.append_nil, tokens_nil] at hfirst
    simpa [Text.prepend] using hfirst
  | cons line lines =>
    rw [hlines, List.headD_cons] at hfirst
    rw [Text.prepend, List.flatMap_cons, List.flatMap_cons, hfirst, List.append_assoc]

theorem allTokens_separator_cons (hs : separates c = true) (rest : List Char) :
    allTokens (c :: rest) = allTokens rest := by
  cases hend : Text.isLineEnd c with
  | false =>
    exact allTokens_append [] (List.cons_ne_nil c []) (List.forall_mem_singleton.2 hend) (tokens_separator_cons hs _)
  | true =>
    -- An empty line has no tokens, so it does not count whether there is one more of them.
    obtain ⟨ls, hlines, hrest | hrest⟩ := Text.lines_cons_of_isLineEnd hend rest <;>
      rw [allTokens, allTokens, hlines, hrest, List.flatMap_cons, tokens_nil, List.nil_append]

/-- A comment up to the end of its line, or of the text, does not count. -/
theorem allTokens_comment (hc : opens c = true) (hcomment : ∀ d ∈ comment, Text.isLineEnd d = false)
    (hend : ∀ d ∈ rest.head?, Text.isLineEnd d = true) : allTokens (c :: comment ++ rest) = allTokens rest := by
  have hinner := isLineEnd_eq_false (separates_of_opens hc)
  have hfirst : (Text.lines rest).headD [] = [] := by
    cases rest with
    | nil => rfl
    | cons d rest =>
      obtain ⟨more, hlines, -⟩ := Text.lines_cons_of_isLineEnd (hend d rfl) rest
      rw [hlines, List.headD_cons]
  refine allTokens_append [] (List.cons_ne_nil c comment) (List.forall_mem_cons.2 ⟨hinner, hcomment⟩) ?_
  rw [hfirst, List.append_nil, tokens_of_opens hc, tokens_nil, List.append_nil]

theorem allTokens_token_append (hne : token ≠ []) (htoken : ∀ c ∈ token, stops c = false)
    (hstop : ∀ c ∈ rest.head?, stops c = true) : allTokens (token ++ rest) = token :: allTokens rest := by
  have hinner : ∀ c ∈ token, separates c = false := fun c hc => (Bool.or_eq_false_iff.1 (htoken c hc)).1
  have hfirst := tokens_token_append hne htoken fun c hc => hstop c (Text.head?_headD_lines hc)
  exact allTokens_append [token] hne (fun c hc => isLineEnd_eq_false (hinner c hc)) hfirst

/-- A byte or a word has characters, and does not end before the last of them. -/
theorem IsToken.inner (h : IsToken token) : token ≠ [] ∧ ∀ c ∈ token, stops c = false := by
  have hstops : digitChars.all (fun c => !stops c) = true := by decide
  obtain ⟨mark, digits, hmark, hlength, hdigits, rfl⟩ := h
  have hmarkstops : mark.all (fun c => !stops c) = true := by rcases hmark with rfl | rfl <;> decide
  constructor
  · intro heq
    rw [(List.append_eq_nil_iff.1 heq).2] at hlength
    simp at hlength
  · intro c hc
    rw [← Bool.not_eq_true']
    rcases List.mem_append.1 hc with hc | hc
    · exact List.all_eq_true.1 hmarkstops c hc
    · exact List.all_eq_true.1 hstops c (hdigits c hc)

theorem SpellAll.of_written (h : Written bytes source) : SpellAll (allTokens source) bytes := by
  induction h with
  | done => exact spellAll_nil_iff.2 rfl
  | separator hs hrest ih => rwa [allTokens_separator_cons hs]
  | comment hc hcomment hend hrest ih =>
    rwa [allTokens_comment hc hcomment (by simpa using hend), allTokens_separator_cons (separates_of_isLineEnd hend)]
  | lastComment hc hcomment =>
    rw [← List.append_nil (_ :: _), allTokens_comment hc hcomment (by simp)]
    exact spellAll_nil_iff.2 rfl
  | token hspells hstop hrest ih =>
    obtain ⟨hne, htoken⟩ := (exists_spells_iff.1 ⟨_, hspells⟩).inner
    rw [allTokens_token_append hne htoken hstop]
    exact spellAll_cons_iff.2 ⟨_, _, hspells, ih, rfl⟩

/-- By induction on the length of the text, which begins with a separator, a comment or a token. -/
theorem written_of_spellAll (h : SpellAll (allTokens source) bytes) : Written bytes source := by
  induction hlength : source.length using Nat.strongRecOn generalizing source bytes with
  | ind length ih =>
    cases source with
    | nil =>
      obtain rfl := spellAll_nil_iff.1 h
      exact .done
    | cons c rest =>
      rw [List.length_cons] at hlength
      by_cases hs : separates c = true
      · rw [allTokens_separator_cons hs] at h
        exact .separator hs (ih rest.length (by omega) h rfl)
      by_cases hc : opens c = true
      · obtain ⟨comment, after, rfl, hcomment, hend⟩ := exists_span Text.isLineEnd rest
        rw [← List.cons_append, allTokens_comment hc hcomment hend] at h
        cases after with
        | nil =>
          obtain rfl := spellAll_nil_iff.1 h
          rw [List.append_nil]
          exact .lastComment hc hcomment
        | cons ending after =>
          have hending : Text.isLineEnd ending = true := hend ending rfl
          rw [allTokens_separator_cons (separates_of_isLineEnd hending)] at h
          rw [List.length_append, List.length_cons] at hlength
          exact .comment hc hcomment hending (ih after.length (by omega) h rfl)
      · obtain ⟨more, after, rfl, hmore, hstop⟩ := exists_span stops rest
        have htoken : ∀ d ∈ c :: more, stops d = false :=
          List.forall_mem_cons.2 ⟨by simp [stops, hs, hc], hmore⟩
        rw [← List.cons_append, allTokens_token_append (List.cons_ne_nil c more) htoken hstop] at h
        obtain ⟨part, bytes, hpart, hbytes, rfl⟩ := spellAll_cons_iff.1 h
        rw [List.length_append] at hlength
        exact .token hpart hstop (ih after.length (by omega) hbytes rfl)

/-- **The texts that write bytes are those whose tokens spell them.** -/
theorem written_iff : Written bytes source ↔ SpellAll (allTokens source) bytes :=
  ⟨SpellAll.of_written, written_of_spellAll⟩

/-! ## Reading -/

theorem read_eq_readPlaced (source : List Char) :
    read source = readPlaced (placed 1 ((Text.lines source).map tokens)) := readLines_eq 1 _

theorem read_eq_ok_iff : read source = .ok bytes ↔ SpellAll (allTokens source) bytes := by
  rw [read_eq_readPlaced, readPlaced_eq_ok_iff, map_snd_placed, allTokens, List.flatMap_def]

theorem read_eq_error_iff : read source = .error e ↔
    ∃ fore aft, placed 1 ((Text.lines source).map tokens) = fore ++ (e.line, e.token) :: aft ∧
      (∀ p ∈ fore, IsToken p.2) ∧ ¬ IsToken e.token := by
  rw [read_eq_readPlaced, readPlaced_eq_error_iff]

/-- Tokens spell something together if each of them does. -/
theorem exists_spellAll_iff (words : List (List Char)) :
    (∃ bytes, SpellAll words bytes) ↔ ∀ token ∈ words, IsToken token := by
  induction words with
  | nil => simp [spellAll_nil_iff]
  | cons token words ih =>
    rw [List.forall_mem_cons, ← exists_spells_iff, ← ih]
    constructor
    · rintro ⟨bytes, h⟩
      obtain ⟨part, rest, hpart, hrest, -⟩ := spellAll_cons_iff.1 h
      exact ⟨⟨part, hpart⟩, ⟨rest, hrest⟩⟩
    · rintro ⟨⟨part, hpart⟩, ⟨rest, hrest⟩⟩
      exact ⟨part ++ rest, spellAll_cons_iff.2 ⟨part, rest, hpart, hrest, rfl⟩⟩

/-- **Program texts are read by their grammar.** A text has one way to be cut into rows of tokens. If every token is a
byte or a word, the bytes of the text are those that the tokens spell in reading order, and these are the bytes it was
written for. If not, the text is refused for the first token that is neither, by its line and as it stands there. -/
theorem ofText_accepts (source : String) :
    ∃ rows, (∀ rows', Tokenized source.toList rows' ↔ rows' = rows) ∧
      ((∃ bytes, ofText source = .ok bytes) ↔ ∀ row ∈ rows, ∀ token ∈ row, IsToken token) ∧
      (∀ bytes, ofText source = .ok bytes ↔ SpellAll rows.flatten bytes) ∧
      (∀ bytes, ofText source = .ok bytes ↔ Written bytes source.toList) ∧
      (∀ e, ofText source = .error e ↔
        ∃ fore aft, placed 1 rows = fore ++ (e.line, e.token) :: aft ∧ (∀ p ∈ fore, IsToken p.2) ∧
          ¬ IsToken e.token) ∧
      ∀ e, ofText source = .error e →
        e.message = "line " ++ Text.decimal e.line ++ ": invalid hex token " ++
          Text.quoted (String.ofList e.token) := by
  have hbytes : ∀ bytes, ofText source = .ok bytes ↔ SpellAll (allTokens source.toList) bytes :=
    fun bytes => read_eq_ok_iff
  refine ⟨(Text.lines source.toList).map tokens, fun rows' => tokenized_iff, ?_, hbytes, ?_, fun e => read_eq_error_iff,
    fun e _ => rfl⟩
  · simp only [hbytes, exists_spellAll_iff, allTokens, List.mem_flatMap, List.forall_mem_map]
    exact ⟨fun h line hline token htoken => h token ⟨line, hline, htoken⟩,
      fun h token ⟨line, hline, htoken⟩ => h line hline token htoken⟩
  · exact fun bytes => (hbytes bytes).trans written_iff.symm

example : ofText "0x60, 05 # LD V0, 5\r\n1200; JP 0x200" = .ok [0x60, 0x05, 0x12, 0x00] := by decide

example : ofText "6005\n60G5" = .error ⟨2, "60G5".toList⟩ := by decide

end Chip8.Program
