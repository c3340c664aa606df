import Chip8.Machine.Start
import Chip8.Proofs.Machine.Rows

/-!
# Fresh machines

A fresh machine is known to the last byte (`Fresh`), and there is one for every program that is not too large. The font
and the program are copied to memory that is all zeros one after the other: neither copy fails, neither changes the size
of the memory, and neither touches what the other one copied (`loadImage_eq`). Main statement: `start_eq_ok_iff_fresh`.
-/

namespace Chip8

/-! ## Stretches -/

namespace Cells

variable {α : Type} {cells : Array α} {first : Nat} {new : List α}

/-- A stretch inside a row is taken out and replaced. -/
theorem splice_eq (h : first + new.length ≤ cells.size) :
    splice cells first (first + new.length) new =
      (cells.toList.take first ++ new ++ cells.toList.drop (first + new.length)).toArray := by
  have hfront : clip cells.size first = first := by
    rw [clip, if_pos (by omega), Int.toNat_natCast]
    omega
  have hback : max first (clip cells.size (first + new.length)) = first + new.length := by
    rw [clip, if_pos (by omega)]
    omega
  simp only [splice, hfront, hback]

/-- The row is as long as before. -/
theorem size_splice (h : first + new.length ≤ cells.size) :
    (splice cells first (first + new.length) new).size = cells.size := by
  simp only [splice_eq h, List.size_toArray, List.length_append, List.length_take, List.length_drop,
    Array.length_toList]
  omega

/-- The other cells are as before. -/
theorem getElem?_splice (h : first + new.length ≤ cells.size) (i : Nat) :
    (splice cells first (first + new.length) new)[i]? =
      if first ≤ i ∧ i < first + new.length then new[i - first]? else cells[i]? := by
  have hfront : (cells.toList.take first).length = first := by
    rw [List.length_take, Array.length_toList]
    omega
  rw [splice_eq h, List.getElem?_toArray]
  rcases Nat.lt_or_ge i first with hbefore | hin
  · rw [List.append_assoc, List.getElem?_append_left (by omega), if_neg (by omega), List.getElem?_take_of_lt hbefore,
      Array.getElem?_toList]
  · rcases Nat.lt_or_ge i (first + new.length) with hinside | hafter
    · rw [List.getElem?_append_left (by rw [List.length_append]; omega), List.getElem?_append_right (by omega), hfront,
        if_pos ⟨hin, hinside⟩]
    · rw [List.getElem?_append_right (by rw [List.length_append]; omega), List.length_append, hfront, if_neg (by omega),
        List.getElem?_drop, Nat.add_sub_cancel' hafter, Array.getElem?_toList]

end Cells

namespace Machine

/-! ## Memories -/

variable {rom : List UInt8} {m : Machine}

/-- The memory of a fresh machine: font, zeros up to the program, program, zeros. -/
def startMemory (rom : List UInt8) : Array UInt8 :=
  (font ++ List.replicate (512 - font.length) 0 ++ rom ++ List.replicate (maxProgramSize - rom.length) 0).toArray

theorem size_startMemory (h : rom.length ≤ maxProgramSize) : (startMemory rom).size = 4096 := by
  simp only [startMemory, List.size_toArray, List.length_append, List.length_replicate, length_font, glyphSize,
    maxProgramSize] at h ⊢
  omega

theorem getElem?_startMemory (h : rom.length ≤ maxProgramSize) (i : Nat) :
    (startMemory rom)[i]? =
      if i < 80 then font[i]?
      else if i < 0x200 then some 0
      else if i < 0x200 + rom.length then rom[i - 0x200]?
      else if i < 4096 then some 0
      else none := by
  have hfont : font.length = 80 := length_font
  have hmax : maxProgramSize = 3584 := rfl
  have hfront : (font ++ List.replicate (512 - font.length) (0 : UInt8)).length = 0x200 := by
    rw [List.length_append, List.length_replicate, hfont]
  rw [startMemory, List.getElem?_toArray]
  rcases Nat.lt_or_ge i (0x200 + rom.length) with hlow | hhigh
  · rw [List.getElem?_append_left (by rw [List.length_append, hfront]; exact hlow)]
    rcases Nat.lt_or_ge i 0x200 with hbefore | hprogram
    · rw [List.getElem?_append_left (by omega), if_pos hbefore]
      rcases Nat.lt_or_ge i 80 with hglyph | hgap
      · rw [List.getElem?_append_left (by omega), if_pos hglyph]
      · rw [List.getElem?_append_right (by omega), if_neg (by omega), List.getElem?_replicate, if_pos (by omega)]
    · rw [List.getElem?_append_right (by omega), hfront, if_neg (by omega), if_neg (by omega), if_pos hlow]
  · rw [List.getElem?_append_right (by rw [List.length_append, hfront]; exact hhigh), if_neg (by omega),
      if_neg (by omega), if_neg (by omega), List.length_append, hfront, List.getElem?_replicate]
    split
    · rw [if_pos (by omega)]
    · rw [if_neg (by omega)]

/-- A memory with the font, a program, and zeros everywhere else. -/
structure HoldsProgram (rom : List UInt8) (memory : Array UInt8) : Prop where
  size : memory.size = 4096
  font_bytes : ∀ i < 80, memory[i]? = font[i]?
  gap : ∀ i, 80 ≤ i → i < 0x200 → memory[i]? = some 0
  program : ∀ i < rom.length, memory[0x200 + i]? = rom[i]?
  rest : ∀ i, 0x200 + rom.length ≤ i → i < 4096 → memory[i]? = some 0

theorem holdsProgram_startMemory (h : rom.length ≤ maxProgramSize) : HoldsProgram rom (startMemory rom) where
  size := size_startMemory h
  font_bytes i hi := (getElem?_startMemory h i).trans (if_pos hi)
  gap i hle hlt := by rw [getElem?_startMemory h, if_neg (by omega), if_pos hlt]
  program i hi := by
    rw [getElem?_startMemory h, if_neg (by omega), if_neg (by omega), if_pos (by omega), Nat.add_sub_cancel_left]
  rest i hle hlt := by
    rw [getElem?_startMemory h, if_neg (by omega), if_neg (by omega), if_neg (by omega), if_pos hlt]

namespace HoldsProgram

variable {memory : Array UInt8}

/-- All of the program is in memory, so it is not too large. -/
theorem length_le (hm : HoldsProgram rom memory) : rom.length ≤ maxProgramSize := by
  refine Nat.le_of_not_lt fun hlarge => ?_
  have hbeyond := hm.program maxProgramSize hlarge
  rw [Array.getElem?_eq_none (by rw [hm.size]; decide), List.getElem?_eq_getElem hlarge] at hbeyond
  cases hbeyond

/-- Every byte is known, so there is but one such memory. -/
theorem eq_startMemory (hm : HoldsProgram rom memory) : memory = startMemory rom := by
  refine Array.ext_getElem? fun i => ?_
  rw [getElem?_startMemory hm.length_le]
  split
  · next hfont => exact hm.font_bytes i hfont
  · split
    · next hgap => exact hm.gap i (by omega) hgap
    · split
      · next hprogram =>
        have hbyte := hm.program (i - 0x200) (by omega)
        rwa [show 0x200 + (i - 0x200) = i by omega] at hbyte
      · split
        · next hrest => exact hm.rest i (by omega) hrest
        · next hbeyond => exact Array.getElem?_eq_none (by rw [hm.size]; omega)

end HoldsProgram

/-! ## Copying -/

/-- Bytes that fit are copied to their places. -/
theorem loadBytes_eq {address : Nat} {data : List UInt8} (h : address + data.length ≤ 4096) (m : Machine) :
    loadBytes address data m =
      .ok () { m with memory := Cells.splice m.memory address (address + data.length) data } := by
  have hrange : inRange address data.length = true := inRange_iff.2 ⟨by omega, by omega⟩
  cases data with
  | nil => rfl
  | cons b data =>
    have hbytes : ¬ (b :: data).isEmpty = true := by simp
    rw [loadBytes, if_neg hbytes, Act.bind_run, checkRange_ok hrange, onward_ok]
    rfl

/-- The font and then the program, copied over a row of zeros. -/
def copiedMemory (rom : List UInt8) : Array UInt8 :=
  Cells.splice (Cells.splice (Array.replicate 4096 0) (0 : Nat) ((0 : Nat) + font.length) font) (0x200 : Nat)
    ((0x200 : Nat) + rom.length) rom

theorem holdsProgram_copiedMemory (h : rom.length ≤ maxProgramSize) : HoldsProgram rom (copiedMemory rom) := by
  have hmax : maxProgramSize = 3584 := rfl
  have hfont : font.length = 80 := length_font
  have hzeros : (Array.replicate 4096 (0 : UInt8)).size = 4096 := Array.size_replicate
  have hsize : (Cells.splice (Array.replicate 4096 0) (0 : Nat) ((0 : Nat) + font.length) font).size = _ :=
    Cells.size_splice (by omega)
  have hfits : 0x200 + rom.length ≤
      (Cells.splice (Array.replicate 4096 0) (0 : Nat) ((0 : Nat) + font.length) font).size := by omega
  -- What the second copy leaves as it is.
  have hothers (i : Nat) (hi : ¬ (0x200 ≤ i ∧ i < 0x200 + rom.length)) :
      (copiedMemory rom)[i]? = if i < 80 then font[i]? else if i < 4096 then some 0 else none := by
    rw [copiedMemory, Cells.getElem?_splice hfits, if_neg hi, Cells.getElem?_splice (by omega),
      Array.getElem?_replicate]
    simp [hfont]
  exact {
    size := by rw [copiedMemory, Cells.size_splice hfits, hsize, hzeros]
    font_bytes := fun i hi => by rw [hothers i (by omega), if_pos hi]
    gap := fun i hle hlt => by rw [hothers i (by omega), if_neg (by omega), if_pos (by omega)]
    program := fun i hi => by
      rw [copiedMemory, Cells.getElem?_splice hfits, if_pos (by omega), Nat.add_sub_cancel_left]
    rest := fun i hle hlt => by rw [hothers i (by omega), if_neg (by omega), if_pos (by omega)] }

/-- **Copying makes a fresh memory.** Neither the font nor a program that is not too large is refused. -/
theorem loadImage_eq (h : rom.length ≤ maxProgramSize) : loadImage rom {} = .ok () { memory := startMemory rom } := by
  have hmax : maxProgramSize = 3584 := rfl
  have hglyphs : loadBytes 0 font {} = .ok () _ := loadBytes_eq (show 0 + font.length ≤ 4096 by decide) {}
  have hprogram (m : Machine) : loadBytes 0x200 rom m = .ok () _ :=
    loadBytes_eq (show 0x200 + rom.length ≤ 4096 by omega) m
  rw [loadImage, Act.bind_run, hglyphs, onward_ok, hprogram, ← (holdsProgram_copiedMemory h).eq_startMemory]
  rfl

theorem image_eq (h : rom.length ≤ maxProgramSize) : image rom = { memory := startMemory rom } := by
  rw [image, loadImage_eq h]

/-! ## Machines -/

/-- A machine with a program that has not begun. -/
structure Fresh (rom : List UInt8) (m : Machine) : Prop where
  memory : HoldsProgram rom m.memory
  registers : m.registers = Array.replicate 16 0
  stack : m.stack = Array.replicate 16 0
  index : m.index = 0
  pc : m.pc = 0x200
  sp : m.sp = -1
  delayTimer : m.delayTimer = 0
  soundTimer : m.soundTimer = 0
  halted : m.halted = false
  cycles : m.cycles = 0

theorem start_eq_ok_iff : start rom = .ok m ↔ rom.length ≤ maxProgramSize ∧ m = { memory := startMemory rom } := by
  rw [start]
  split
  · next hsize => simp [hsize, image_eq hsize, eq_comm]
  · next hsize => simp [hsize]

theorem halted_of_start (h : start rom = .ok m) : m.halted = false := by
  rw [(start_eq_ok_iff.1 h).2]

/-- **A program starts in a fresh machine**, and there is one for every program that is not too large. -/
theorem start_eq_ok_iff_fresh : start rom = .ok m ↔ m.Fresh rom := by
  rw [start_eq_ok_iff]
  constructor
  · rintro ⟨h, rfl⟩
    exact ⟨holdsProgram_startMemory h, rfl, rfl, rfl, rfl, rfl, rfl, rfl, rfl, rfl⟩
  · intro hm
    obtain ⟨memory, registers, index, pc, stack, sp, delayTimer, soundTimer, halted, cycles⟩ := m
    obtain ⟨hmemory, rfl, rfl, rfl, rfl, rfl, rfl, rfl, rfl, rfl⟩ := hm
    exact ⟨hmemory.length_le, congrArg (fun memory => ({ memory } : Machine)) hmemory.eq_startMemory⟩

end Machine

end Chip8
