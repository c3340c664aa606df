import Chip8.Failure

/-!
# Cells addressed by integers

Memory, registers and the stack are rows of cells. An integer address names a cell in one of two ways: from zero
upwards it counts from the first cell, and below zero it counts from the end, so that minus one is the last cell.
Any other address names none, and one beyond sixty-four bits is refused as such. A stretch between two addresses is
clipped to the row instead. Main statements: `slot_lt`, `get?_set?_self`, `read_of_nonneg` and `write_of_nonneg`.
-/

namespace Chip8.Cells

/-- The position that an address names in a row of `size` cells. -/
def slot (size : Nat) (address : Int) : Option Nat :=
  if 0 ≤ address then
    if address < size then some address.toNat else none
  else if -(size : Int) ≤ address then some (address + size).toNat else none

theorem slot_of_nonneg {size : Nat} {address : Int} (h : 0 ≤ address) (hlt : address < size) :
    slot size address = some address.toNat := by
  rw [slot, if_pos h, if_pos hlt]

theorem slot_natCast {size n : Nat} (h : n < size) : slot size n = some n :=
  slot_of_nonneg (by omega) (by omega)

/-- A named position is one of the row. -/
theorem slot_lt {size : Nat} {address : Int} {n : Nat} (h : slot size address = some n) : n < size := by
  unfold slot at h
  split at h <;> split at h <;> simp at h <;> omega

variable {α : Type}

/-- The cell at an address. -/
def get? (cells : Array α) (address : Int) : Option α := (slot cells.size address).bind (cells[·]?)

/-- The row with the cell at an address replaced. -/
def set? (cells : Array α) (address : Int) (value : α) : Option (Array α) :=
  (slot cells.size address).map fun n => cells.setIfInBounds n value

theorem get?_of_nonneg {cells : Array α} {address : Int} (h : 0 ≤ address) (hlt : address < cells.size) :
    get? cells address = cells[address.toNat]? := by
  rw [get?, slot_of_nonneg h hlt, Option.bind_some]

theorem set?_of_nonneg {cells : Array α} {address : Int} (h : 0 ≤ address) (hlt : address < cells.size) (value : α) :
    set? cells address value = some (cells.setIfInBounds address.toNat value) := by
  rw [set?, slot_of_nonneg h hlt, Option.map_some]

/-- Replacing a cell keeps the length of the row. -/
theorem size_set? {cells cells' : Array α} {address : Int} {value : α} (h : set? cells address value = some cells') :
    cells'.size = cells.size := by
  obtain ⟨n, _, rfl⟩ := Option.map_eq_some_iff.1 h
  simp

/-- What was stored at an address is read back there. -/
theorem get?_set?_self {cells cells' : Array α} {address : Int} {value : α}
    (h : set? cells address value = some cells') : get? cells' address = some value := by
  obtain ⟨n, hn, rfl⟩ := Option.map_eq_some_iff.1 h
  have := slot_lt hn
  simp [get?, hn, this]

/-! ## Cells that must be there -/

/-- Does the address fit a signed word of sixty-four bits? -/
def fitsWord (address : Int) : Bool := -0x8000000000000000 ≤ address && address < 0x8000000000000000

/-- The cell at an address, or a mishap of the given sort. -/
def read (missing : Mishap) (cells : Array α) (address : Int) : Except Mishap α :=
  if fitsWord address then
    match get? cells address with
    | some value => .ok value
    | none => .error missing
  else .error .addressTooWide

/-- The row with a cell replaced, or a mishap of the given sort. -/
def write (missing : Mishap) (cells : Array α) (address : Int) (value : α) : Except Mishap (Array α) :=
  if fitsWord address then
    match set? cells address value with
    | some cells' => .ok cells'
    | none => .error missing
  else .error .addressTooWide

/-- Rows are short, so an address inside one fits a word. -/
theorem fitsWord_of_lt {address : Int} (h : 0 ≤ address) (hlt : address < 0x8000000000000000) :
    fitsWord address = true := by
  simp only [fitsWord, Bool.and_eq_true, decide_eq_true_eq]
  omega

theorem read_of_nonneg {missing : Mishap} {cells : Array α} {address : Int} (h : 0 ≤ address)
    (hlt : address < cells.size) (hsize : (cells.size : Int) < 0x8000000000000000) :
    ∃ value, cells[address.toNat]? = some value ∧ read missing cells address = .ok value := by
  have hn : address.toNat < cells.size := by omega
  exact ⟨cells[address.toNat], by simp [hn], by
    rw [read, if_pos (fitsWord_of_lt h (by omega)), get?_of_nonneg h hlt, Array.getElem?_eq_getElem hn]⟩

theorem write_of_nonneg {missing : Mishap} {cells : Array α} {address : Int} (h : 0 ≤ address)
    (hlt : address < cells.size) (hsize : (cells.size : Int) < 0x8000000000000000) (value : α) :
    write missing cells address value = .ok (cells.setIfInBounds address.toNat value) := by
  rw [write, if_pos (fitsWord_of_lt h (by omega)), set?_of_nonneg h hlt]

/-! ## Rows of equal cells -/

/-- A number of bytes that nothing kept in memory takes up. -/
def reach : Nat := 0x1000000000

/-- A row of equal cells of so many bytes each, if the size can be written in a word and there is room for the row.
A size below zero stands for the empty row. -/
def row (size : Int) (bytes : Nat) (value : α) : Except Mishap (Array α) :=
  if !fitsWord size then .error .sizeTooWide
  else if reach ≤ size.toNat * bytes then .error .noRoom
  else .ok (Array.replicate size.toNat value)

/-- A row of the given size, no more and no less, with the value in every cell. -/
theorem eq_replicate_of_row {size : Int} {bytes : Nat} {value : α} {cells : Array α}
    (h : row size bytes value = .ok cells) : cells = Array.replicate size.toNat value := by
  unfold row at h
  split at h
  · simp at h
  · split at h
    · simp at h
    · exact (Except.ok.inj h).symm

/-! ## Stretches -/

/-- Where an end of a stretch falls in a row of `size` cells. -/
def clip (size : Nat) (address : Int) : Nat :=
  if 0 ≤ address then min address.toNat size else (address + size).toNat

/-- The cells from `first` up to but not including `last`. -/
def stretch (cells : Array α) (first last : Int) : Array α :=
  cells.extract (clip cells.size first) (clip cells.size last)

/-- The row with the cells from `first` up to but not including `last` taken out and `new` put in their place. -/
def splice (cells : Array α) (first last : Int) (new : List α) : Array α :=
  let front := clip cells.size first
  (cells.toList.take front ++ new ++ cells.toList.drop (max front (clip cells.size last))).toArray

end Chip8.Cells
