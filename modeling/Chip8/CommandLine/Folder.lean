import Chip8.Failure

/-!
# Folders

A flat folder of files, and what is found at a path that starts from it. A path is a row of names between slashes;
empty names and single dots do not count, and a double dot leads out of the folder, of whose surroundings only the
existence is known. Main statements: `find_here` and `find_above`, the paths that lead to a directory.
-/

namespace Chip8

/-- What is found at a path. -/
inductive Found where
  | file (bytes : List UInt8)
  | directory
  | nothing
  /-- The path goes on behind a file. -/
  | behindFile
  /-- The path, or a name in it, is longer than the file system allows. -/
  | nameTooLong
  /-- The text is no path, for it has a null character. -/
  | noPath
  deriving DecidableEq, Repr

/-- The bytes of the file that is wanted at a path. -/
def Found.read (path : String) : Found → Except Mishap (List UInt8)
  | file bytes => .ok bytes
  | directory => .error (.notAFile path)
  | nothing => .error (.noSuchFile path)
  | behindFile => .error (.notADirectory path)
  | nameTooLong => .error (.nameTooLong path)
  | noPath => .error .nullInPath

/-- Files by name. -/
abbrev Folder : Type := List (String × List UInt8)

/-! ## Paths -/

/-- The names in a path that count. -/
def pathNames (path : String) : List String := (path.splitOn "/").filter fun name => name ≠ "" ∧ name ≠ "."

/-- The slashes that a path keeps at its start: two if there are exactly two, else one if there are any. -/
def rootText (path : String) : String :=
  match path.toList with
  | '/' :: '/' :: '/' :: _ => "/"
  | '/' :: '/' :: _ => "//"
  | '/' :: _ => "/"
  | _ => ""

/-- The path without the names that do not count. -/
def plainPath (path : String) : String :=
  let plain := rootText path ++ "/".intercalate (pathNames path)
  if plain.isEmpty then "." else plain

/-- The most bytes that a name in a path may have. -/
def nameLimit : Nat := 255

/-- The most bytes that a path may have. -/
def pathLimit : Nat := 4095

/-! ## Finding -/

/-- What is found outside the folder: the double dot, and nothing else that is known of. -/
def findOutside : List String → Found
  | [] => .directory
  | name :: rest =>
    if name = ".." then findOutside rest
    else if nameLimit < name.utf8ByteSize then .nameTooLong
    else .nothing

namespace Folder

/-- What is found inside the folder. -/
def findInside (folder : Folder) : List String → Found
  | [] => .directory
  | name :: rest =>
    if name = ".." then findOutside rest
    else if nameLimit < name.utf8ByteSize then .nameTooLong
    else match folder.lookup name, rest with
      | some bytes, [] => .file bytes
      | some _, _ => .behindFile
      | none, _ => .nothing

/-- What is found at a path from the folder. -/
def find (folder : Folder) (path : String) : Found :=
  if path.contains (Char.ofNat 0) then .noPath
  else if pathLimit < (plainPath path).utf8ByteSize then .nameTooLong
  else if (rootText path).isEmpty then folder.findInside (pathNames path)
  else findOutside (pathNames path)

/-- No names at all lead to the folder itself. -/
theorem find_here (folder : Folder) : folder.findInside [] = .directory := rfl

/-- Double dots lead to a directory, however many there are. -/
theorem find_above (folder : Folder) (n : Nat) : folder.findInside (List.replicate n "..") = .directory := by
  have outside : ∀ k, findOutside (List.replicate k "..") = .directory := by
    intro k
    induction k with
    | zero => rfl
    | succ k ih => rw [List.replicate_succ, findOutside, if_pos rfl, ih]
  cases n with
  | zero => rfl
  | succ n => simp [List.replicate_succ, findInside, outside]

end Folder

end Chip8
