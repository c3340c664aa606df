import Chip8.Text.Blank
import Chip8.Text.Quoted

/-!
# Programs written in hexadecimal

A program text is a sequence of tokens, each one byte in two digits or one word in four, most significant byte first.
A token may carry the mark `0x`. Blanks and commas separate tokens, and a semicolon or a hash starts a comment that
ends with the line. The first token that is neither a byte nor a word, in reading order, is the error of the text.
-/

namespace Chip8.Program

/-! ## Tokens -/

/-- The value of a hexadecimal digit of either case. -/
def digitValue? (c : Char) : Option Nat :=
  let n := c.toNat
  if 48 ≤ n ∧ n ≤ 57 then some (n - 48)
  else if 65 ≤ n ∧ n ≤ 70 then some (n - 55)
  else if 97 ≤ n ∧ n ≤ 102 then some (n - 87)
  else none

/-- The byte of two digits. -/
def byteOf? (high low : Char) : Option UInt8 := do
  let h ← digitValue? high
  let l ← digitValue? low
  return UInt8.ofNat (16 * h + l)

/-- The bytes of two or four digits. -/
def bytesOf? : List Char → Option (List UInt8)
  | [a, b] => do return [← byteOf? a b]
  | [a, b, c, d] => do return [← byteOf? a b, ← byteOf? c d]
  | _ => none

/-- The bytes of a token. -/
def tokenBytes? : List Char → Option (List UInt8)
  | '0' :: 'x' :: digits => bytesOf? digits
  | digits => bytesOf? digits

/-! ## Lines -/

/-- A line up to its comment. -/
def code (line : List Char) : List Char := line.takeWhile fun c => c ≠ ';' ∧ c ≠ '#'

/-- Does the character separate tokens? -/
def separates (c : Char) : Bool := Text.isBlank c || c == ','

/-- The tokens of a line. -/
def tokens (line : List Char) : List (List Char) := Text.runs separates (code line)

/-- A token that is no byte and no word, and the number of its line, counted from one. -/
structure TokenError where
  line : Nat
  token : List Char
  deriving DecidableEq, Repr

/-- The wording of a token error. -/
def TokenError.message (e : TokenError) : String :=
  "line " ++ Text.decimal e.line ++ ": invalid hex token " ++ Text.quoted (String.ofList e.token)

/-- The bytes of the tokens of line `n`. -/
def readTokens (n : Nat) : List (List Char) → Except TokenError (List UInt8)
  | [] => .ok []
  | token :: rest => match tokenBytes? token with
    | none => .error ⟨n, token⟩
    | some bytes => (readTokens n rest).map (bytes ++ ·)

/-- The bytes of lines, the first of which has number `n`. -/
def readLines (n : Nat) : List (List Char) → Except TokenError (List UInt8)
  | [] => .ok []
  | line :: rest => do
    let bytes ← readTokens n (tokens line)
    let more ← readLines (n + 1) rest
    return bytes ++ more

/-- The bytes of a program text. -/
def read (source : List Char) : Except TokenError (List UInt8) := readLines 1 (Text.lines source)

/-- The bytes of a program text. -/
def ofText (source : String) : Except TokenError (List UInt8) := read source.toList

end Chip8.Program
