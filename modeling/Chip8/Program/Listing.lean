import Chip8.Decoder

/-!
# Listings

A listing goes through a program word by word, whether or not a word is meant as an instruction, and gives each its
address, its value and its assembly text. The last word of a program of odd length has a zero byte added.
-/

namespace Chip8.Program

/-- A row of a listing. -/
structure Row where
  address : Int
  word : UInt16
  text : String
  deriving DecidableEq, Repr

/-- The word of two bytes, most significant first. -/
def wordOfBytes (high low : UInt8) : UInt16 := UInt16.ofNat (high.toNat * 256 + low.toNat)

/-- The words of a program. -/
def words : List UInt8 → List UInt16
  | [] => []
  | [high] => [wordOfBytes high 0]
  | high :: low :: rest => wordOfBytes high low :: words rest

theorem length_words (rom : List UInt8) : (words rom).length = (rom.length + 1) / 2 := by
  fun_induction words rom with
  | case1 => rfl
  | case2 => simp
  | case3 high low rest ih => simp only [List.length_cons, ih]; omega

/-- The rows of words, the first of which has the given address. -/
def rows (d : Decoder) (address : Int) : List UInt16 → Except Failure (List Row)
  | [] => .ok []
  | word :: rest => do
    let text ← d.disassemble word.toNat
    let more ← rows d (address + 2) rest
    return ⟨address, word, text⟩ :: more

/-- The listing of a program that starts at an address. -/
def listing (d : Decoder) (rom : List UInt8) (start : Int) : Except Failure (List Row) := rows d start (words rom)

end Chip8.Program
