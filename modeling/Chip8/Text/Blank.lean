/-!
# Blanks, lines and pieces

The cutting rules for program text. A line ends at any of the line ends below, a carriage return and a line feed
together count as one, and the end of the last line adds no empty line after it. Blanks are the white space of
Unicode together with the four information separators.
-/

namespace Chip8.Text

/-! ## Character classes -/

/-- White space: every separator character, the controls that move the cursor, and the information separators. -/
def isBlank (c : Char) : Bool :=
  let n := c.toNat
  (0x9 ≤ n && n ≤ 0xd) || (0x1c ≤ n && n ≤ 0x20) || n == 0x85 || n == 0xa0 || n == 0x1680 ||
    (0x2000 ≤ n && n ≤ 0x200a) || n == 0x2028 || n == 0x2029 || n == 0x202f || n == 0x205f || n == 0x3000

/-- Line feed, vertical tab, form feed, carriage return, the file, group and record separators, next line, and the
line and paragraph separators. -/
def isLineEnd (c : Char) : Bool :=
  let n := c.toNat
  (0xa ≤ n && n ≤ 0xd) || (0x1c ≤ n && n ≤ 0x1e) || n == 0x85 || n == 0x2028 || n == 0x2029

/-- A line end is blank, so cutting a line into tokens never sees one. -/
theorem isBlank_of_isLineEnd {c : Char} (h : isLineEnd c = true) : isBlank c = true := by
  simp only [isLineEnd, isBlank, Bool.or_eq_true, Bool.and_eq_true, decide_eq_true_eq, beq_iff_eq] at h ⊢
  omega

/-! ## Cutting -/

/-- The lines of a text, without their ends. -/
def lines : List Char → List (List Char)
  | [] => []
  | '\r' :: '\n' :: rest => [] :: lines rest
  | c :: rest =>
    if isLineEnd c then [] :: lines rest
    else match lines rest with
      | [] => [[c]]
      | line :: more => (c :: line) :: more

/-- The pieces between separators; two separators in a row have an empty piece between them. -/
def pieces (separates : Char → Bool) : List Char → List (List Char)
  | [] => [[]]
  | c :: rest =>
    if separates c then [] :: pieces separates rest
    else match pieces separates rest with
      | [] => [[c]]
      | piece :: more => (c :: piece) :: more

/-- The maximal runs of characters that do not separate. -/
def runs (separates : Char → Bool) (cs : List Char) : List (List Char) :=
  (pieces separates cs).filter (fun piece => !piece.isEmpty)

/-- Is there nothing but blanks? -/
def isAllBlank (cs : List Char) : Bool := cs.all isBlank

end Chip8.Text
