import Chip8.Proofs.Program.Grammar

/-!
# Program texts one after the other

Two program texts with a line feed between them are read as one text piece by piece: the bytes of the first, then those
of the second, or else the error of the first that has one. What the first text leaves open ends with its line: a
comment does not reach into the second text, and no token goes on there. An error of the second text is found as many
lines further down as the first has with its line feed. Main statement: `ofText_append_newline`.
-/

namespace Chip8.Program

/-- The same error so many lines further down. -/
def TokenError.lower (e : TokenError) (k : Nat) : TokenError := ⟨e.line + k, e.token⟩

/-! ## Rows further down -/

theorem placed_append (n : Nat) (rows rows' : List (List (List Char))) :
    placed n (rows ++ rows') = placed n rows ++ placed (n + rows.length) rows' := by
  induction rows generalizing n with
  | nil => rfl
  | cons row rows ih =>
    rw [List.cons_append, placed, placed, ih, List.append_assoc, List.length_cons,
      show n + 1 + rows.length = n + (rows.length + 1) by omega]

theorem placed_add (n k : Nat) (rows : List (List (List Char))) :
    placed (n + k) rows = (placed n rows).map fun p => (p.1 + k, p.2) := by
  induction rows generalizing n with
  | nil => rfl
  | cons row rows ih =>
    rw [placed, placed, show n + k + 1 = n + 1 + k by omega, ih, List.map_append, List.map_map]
    rfl

/-- The numbers of the lines are read by nobody but who reports an error. -/
theorem readPlaced_lower (k : Nat) (ps : List (Nat × List Char)) :
    readPlaced (ps.map fun p => (p.1 + k, p.2)) = (readPlaced ps).mapError (·.lower k) := by
  induction ps with
  | nil => rfl
  | cons p ps ih =>
    obtain ⟨n, token⟩ := p
    rw [List.map_cons, readPlaced, readPlaced, ih]
    cases tokenBytes? token with
    | none => rfl
    | some bytes => cases readPlaced ps <;> rfl

/-! ## Lines one after the other -/

theorem readLines_append (n : Nat) (ls ls' : List (List Char)) :
    readLines n (ls ++ ls') =
      (readLines n ls).bind fun front => (readLines (n + ls.length) ls').map (front ++ ·) := by
  rw [readLines_eq, readLines_eq, readLines_eq, List.map_append, placed_append, readPlaced_append, List.length_map]

theorem readLines_add (n k : Nat) (ls : List (List Char)) :
    readLines (n + k) ls = (readLines n ls).mapError (·.lower k) := by
  rw [readLines_eq, readLines_eq, placed_add, readPlaced_lower]

/-- A line feed at the end of a text writes nothing and refuses nothing. -/
theorem read_newline (a : List Char) : read (a ++ ['\n']) = read a := by
  rw [read, read]
  rcases Text.lines_newline a with hlines | hlines
  · rw [hlines]
  · have hempty (n : Nat) : readLines n [[]] = .ok [] := rfl
    rw [hlines, readLines_append, hempty]
    cases readLines 1 (Text.lines a) with
    | error e => rfl
    | ok bytes => exact congrArg Except.ok (List.append_nil bytes)

/-- The two texts are read on their own, the second one further down. -/
theorem read_append_newline (a b : List Char) :
    read (a ++ '\n' :: b) =
      (read a).bind fun front =>
        ((read b).mapError (·.lower (Text.lines (a ++ ['\n'])).length)).map (front ++ ·) := by
  have hfirst : readLines 1 (Text.lines (a ++ ['\n'])) = read a := read_newline a
  rw [read, Text.lines_append_newline, readLines_append, hfirst, readLines_add]
  rfl

/-- **Program texts are read one after the other.** The bytes of two texts with a line feed between them are those of
the first and then those of the second. If the first text is refused, the whole is, for the same token on the same line;
and if only the second one is, it is for its token, as many lines further down as the first text has with the line
feed. -/
theorem ofText_append_newline (a b : String) :
    ofText (a ++ "\n" ++ b) =
      match ofText a with
      | .error e => .error e
      | .ok front => match ofText b with
        | .ok rest => .ok (front ++ rest)
        | .error e => .error { line := e.line + (Text.lines (a ++ "\n").toList).length, token := e.token } := by
  have hjoined : (a ++ "\n" ++ b).toList = a.toList ++ '\n' :: b.toList := by simp
  have hended : (a ++ "\n").toList = a.toList ++ ['\n'] := by simp
  rw [ofText, hjoined, read_append_newline, hended, ofText, ofText]
  cases read a.toList with
  | error e => rfl
  | ok front => cases read b.toList <;> rfl

/-- A carriage return at the end of the first text and the line feed are one line end. -/
example : ofText ("6005 ; LD\r" ++ "\n" ++ "7O03") = .error ⟨2, "7O03".toList⟩ := by decide

end Chip8.Program
