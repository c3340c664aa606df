/-!
# Numbers as text

Every report of the machine writes addresses, words and bytes in upper-case hexadecimal. A width counts the whole
text, sign included, and zeros fill the gap between the sign and the digits: minus one in three places is `-01`, and
a number that needs more places than the width simply takes them. Operand errors alone use the marked lower-case
form, `0x0f00` and `-0x1`, whose width counts the mark as well.
-/

namespace Chip8.Text

/-! ## Digits -/

/-- The upper-case digit of a value below sixteen. -/
def hexDigit (n : Nat) : Char := if n < 10 then Char.ofNat (48 + n) else Char.ofNat (55 + n)

/-- The upper-case hexadecimal digits of a number, most significant first; zero is one digit. -/
def hexDigits (n : Nat) : List Char :=
  if n < 16 then [hexDigit n] else hexDigits (n / 16) ++ [hexDigit (n % 16)]
termination_by n

theorem hexDigits_of_lt {n : Nat} (h : n < 16) : hexDigits n = [hexDigit n] := by
  rw [hexDigits, if_pos h]

theorem hexDigits_of_le {n : Nat} (h : 16 ≤ n) : hexDigits n = hexDigits (n / 16) ++ [hexDigit (n % 16)] := by
  rw [hexDigits, if_neg (by omega)]

/-! ## Layouts -/

/-- Sign, mark, zeros up to the width, digits. -/
def zeroFilled (width : Nat) (mark : List Char) (negative : Bool) (digits : List Char) : List Char :=
  let head := (if negative then ['-'] else []) ++ mark
  head ++ List.replicate (width - (head.length + digits.length)) '0' ++ digits

theorem length_zeroFilled (width : Nat) (mark : List Char) (negative : Bool) (digits : List Char) :
    (zeroFilled width mark negative digits).length =
      max width ((if negative then 1 else 0) + mark.length + digits.length) := by
  cases negative <;> simp [zeroFilled] <;> omega

/-- Upper-case hexadecimal, zero-filled to `width` places in all. -/
def hex (width : Nat) (n : Int) : String :=
  String.ofList (zeroFilled width [] (decide (n < 0)) (hexDigits n.natAbs))

/-- Lower-case hexadecimal behind the mark `0x`, zero-filled to `width` places in all. -/
def markedHex (width : Nat) (n : Int) : String :=
  String.ofList (zeroFilled width ['0', 'x'] (decide (n < 0)) ((hexDigits n.natAbs).map Char.toLower))

/-- Decimal digits behind a minus sign for the negative numbers. -/
def decimal (n : Int) : String := if n < 0 then "-" ++ Nat.repr n.natAbs else Nat.repr n.natAbs

/-- The text moved to the right edge of a column of `width` places. -/
def rightAligned (width : Nat) (text : String) : String :=
  String.ofList (List.replicate (width - text.length) ' ') ++ text

end Chip8.Text
