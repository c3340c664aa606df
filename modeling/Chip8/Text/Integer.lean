import Chip8.Failure
import Chip8.Text.Blank

/-!
# Whole numbers read from text

Space around the number is ignored. After an optional sign come decimal digits of any script, each pair of neighbours
joined directly or by one underscore. The text is read from the left: a numeral that is well formed but has more than
`digitLimit` digits is refused as too long whatever comes after it. Main statement: `length_digitsOf?`, by which the
digits of a numeral are all its characters but the underscores.
-/

namespace Chip8.Text

/-- First code of each run of ten decimal digits, zero to nine. -/
def zeroCodes : List Nat :=
  [0x30, 0x660, 0x6f0, 0x7c0, 0x966, 0x9e6, 0xa66, 0xae6, 0xb66, 0xbe6, 0xc66, 0xce6, 0xd66, 0xde6, 0xe50, 0xed0,
   0xf20, 0x1040, 0x1090, 0x17e0, 0x1810, 0x1946, 0x19d0, 0x1a80, 0x1a90, 0x1b50, 0x1bb0, 0x1c40, 0x1c50, 0xa620,
   0xa8d0, 0xa900, 0xa9d0, 0xa9f0, 0xaa50, 0xabf0, 0xff10, 0x104a0, 0x10d30, 0x11066, 0x110f0, 0x11136, 0x111d0,
   0x112f0, 0x11450, 0x114d0, 0x11650, 0x116c0, 0x11730, 0x118e0, 0x11950, 0x11c50, 0x11d50, 0x11da0, 0x16a60,
   0x16ac0, 0x16b50, 0x1d7ce, 0x1d7d8, 0x1d7e2, 0x1d7ec, 0x1d7f6, 0x1e140, 0x1e2f0, 0x1e950, 0x1fbf0]

/-- The value of a decimal digit. -/
def digitValue? (c : Char) : Option Nat :=
  (zeroCodes.find? fun code => decide (code ≤ c.toNat) && decide (c.toNat < code + 10)).map (c.toNat - ·)

/-- The most digits a number may have. -/
def digitLimit : Nat := 4300

/-- Is this a character of a numeral, a digit or an underscore? -/
def isNumeralChar (c : Char) : Bool := c == '_' || (digitValue? c).isSome

/-- The digits of a numeral, joined directly or by single underscores. `joined` tells whether the character before was
a digit, which is where an underscore or the end may follow. -/
def digitsOf? (joined : Bool) : List Char → Option (List Nat)
  | [] => if joined then some [] else none
  | c :: rest =>
    if c = '_' then if joined then digitsOf? false rest else none
    else match digitValue? c with
      | some d => (digitsOf? true rest).map (d :: ·)
      | none => none

theorem length_digitsOf? {joined : Bool} {cs : List Char} {digits : List Nat} (h : digitsOf? joined cs = some digits) :
    digits.length + cs.count '_' = cs.length := by
  induction cs generalizing joined digits with
  | nil =>
    cases joined <;> simp [digitsOf?] at h
    simp [h]
  | cons c rest ih =>
    rw [digitsOf?] at h
    by_cases hc : c = '_'
    · cases joined <;> simp [hc] at h
      have := ih h
      simp [hc]
      omega
    · simp only [hc, if_false] at h
      split at h
      · obtain ⟨more, hmore, rfl⟩ := Option.map_eq_some_iff.1 h
        have := ih hmore
        simp [hc]
        omega
      · simp at h

/-- The number that digits write, most significant first. -/
def valueOf (digits : List Nat) : Nat := digits.foldl (fun value d => value * 10 + d) 0

/-- Space around a number: the blanks but for the information separators. -/
def isSpace (c : Char) : Bool := isBlank c && !(0x1c ≤ c.toNat && c.toNat ≤ 0x1f)

/-- Is there a minus sign in front, and what comes after the sign? -/
def splitSign : List Char → Bool × List Char
  | '-' :: rest => (true, rest)
  | '+' :: rest => (false, rest)
  | rest => (false, rest)

/-- The whole number that the text writes. -/
def readInteger (text : String) : Except Mishap Int :=
  let (negative, rest) := splitSign (text.toList.dropWhile isSpace)
  match digitsOf? false (rest.takeWhile isNumeralChar) with
  | none => .error (.notAWholeNumber text)
  | some digits =>
    if digitLimit < digits.length then .error (.tooManyDigits digits.length)
    else if (rest.dropWhile isNumeralChar).all isSpace then
      .ok (if negative then -(valueOf digits : Int) else valueOf digits)
    else .error (.notAWholeNumber text)

end Chip8.Text
