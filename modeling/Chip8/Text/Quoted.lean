import Chip8.Text.Number
import Chip8.Text.Unassigned

/-!
# Quoted text

Error messages show a piece of input between quotes. The quotes are single unless the text holds a single quote and
no double one. Inside, the backslash and the quote in use are escaped, the three common controls have letters, and
every other character without a printed form is written by its code in two, four or eight lower-case digits.
-/

namespace Chip8.Text

/-- Code ranges of the characters without a printed form: controls, format characters, private use, and every
separator but the space itself. -/
def unprintedRanges : List (Nat × Nat) :=
  [(0x0, 0x1f), (0x7f, 0xa0), (0xad, 0xad), (0x600, 0x605), (0x61c, 0x61c), (0x6dd, 0x6dd), (0x70f, 0x70f),
   (0x890, 0x891), (0x8e2, 0x8e2), (0x1680, 0x1680), (0x180e, 0x180e), (0x2000, 0x200f), (0x2028, 0x202f),
   (0x205f, 0x2064), (0x2066, 0x206f), (0x3000, 0x3000), (0xd800, 0xf8ff), (0xfeff, 0xfeff), (0xfff9, 0xfffb),
   (0x110bd, 0x110bd), (0x110cd, 0x110cd), (0x13430, 0x13438), (0x1bca0, 0x1bca3), (0x1d173, 0x1d17a),
   (0xe0001, 0xe0001), (0xe0020, 0xe007f), (0xf0000, 0xffffd), (0x100000, 0x10fffd)]

/-- Does the character appear as itself between quotes? -/
def isPrinted (c : Char) : Bool :=
  !(unprintedRanges ++ unassignedRanges).any fun r => decide (r.1 ≤ c.toNat) && decide (c.toNat ≤ r.2)

/-- The digits of a code, lower-case, in exactly the given number of places. -/
def codeDigits (places code : Nat) : List Char :=
  zeroFilled places [] false ((hexDigits code).map Char.toLower)

/-- One character between quotes of the given kind. -/
def escaped (mark c : Char) : List Char :=
  if c = mark ∨ c = '\\' then ['\\', c]
  else if c = '\n' then ['\\', 'n']
  else if c = '\r' then ['\\', 'r']
  else if c = '\t' then ['\\', 't']
  else if isPrinted c then [c]
  else if c.toNat < 0x100 then '\\' :: 'x' :: codeDigits 2 c.toNat
  else if c.toNat < 0x10000 then '\\' :: 'u' :: codeDigits 4 c.toNat
  else '\\' :: 'U' :: codeDigits 8 c.toNat

/-- A code without a character is written by its digits, and the character in front of it is not. -/
example : (escaped '\x27' '\u0377', escaped '\x27' '\u0378') = (['\u0377'], "\\u0378".toList) := by decide +kernel

/-- The quote in use: double when that spares an escape, else single. -/
def quoteMark (cs : List Char) : Char := if '\x27' ∈ cs ∧ '\x22' ∉ cs then '\x22' else '\x27'

/-- The text between quotes. -/
def quoted (text : String) : String :=
  let cs := text.toList
  let mark := quoteMark cs
  String.ofList (mark :: cs.flatMap (escaped mark) ++ [mark])

/-- The text between quotes, cut off after so many characters. -/
def quotedStart (limit : Nat) (text : String) : String := String.ofList ((quoted text).toList.take limit)

/-- Quoted texts between brackets. -/
def quotedList (texts : List String) : String := "[" ++ ", ".intercalate (texts.map quoted) ++ "]"

end Chip8.Text
