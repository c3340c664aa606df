import Chip8.Program.Listing
import Chip8.Proofs.Instruction.Family
import Chip8.Proofs.Machine.Start

/-!
# Listings and loaded programs

A listing cuts a program into words before anything is run, and a fresh machine holds it byte by byte. Both views are
given here by position: word `k` of a program is made of its bytes `2 * k` and `2 * k + 1`, the byte beyond an odd end
being zero (`getElem?_words`), and the machine has byte `i` at address `0x200 + i`, with zeros up to the end of memory
(`byteAt_start`). Main statement: `listing_standard`, by which a listing by the instruction set always succeeds, with a
row for every word.
-/

namespace Chip8

namespace Program

/-! ## Words by position -/

theorem toNat_wordOfBytes (high low : UInt8) : (wordOfBytes high low).toNat = high.toNat * 256 + low.toNat := by
  have hhigh := high.toNat_lt
  have hlow := low.toNat_lt
  exact UInt16.toNat_ofNat_of_lt' (show _ < 2 ^ 16 by omega)

/-- The byte at a position of a program, zero beyond its end. -/
def byteOf (rom : List UInt8) (i : Nat) : UInt8 := rom.getD i 0

theorem getElem?_words (rom : List UInt8) {k : Nat} (hk : 2 * k < rom.length) :
    (words rom)[k]? = some (wordOfBytes (byteOf rom (2 * k)) (byteOf rom (2 * k + 1))) := by
  fun_induction words rom generalizing k with
  | case1 => simp at hk
  | case2 high =>
    obtain rfl : k = 0 := by simp at hk; omega
    rfl
  | case3 high low rest ih =>
    cases k with
    | zero => rfl
    | succ k =>
      simp only [List.length_cons] at hk
      rw [List.getElem?_cons_succ, ih (by omega)]
      rfl

/-! ## Rows by position -/

/-- Every word has a text. -/
theorem disassemble_standard (w : UInt16) : ∃ text, Decoder.standard.disassemble w.toNat = .ok text := by
  cases hop : Op.ofWord? w with
  | none => exact ⟨_, Decoder.disassemble_of_unknown hop⟩
  | some op =>
    obtain ⟨inst, -, hdecode⟩ := Decoder.decode_standard hop
    exact ⟨_, Decoder.disassemble_of_decode hdecode⟩

/-- The row has the address, the word and the text of the word. -/
structure Row.Shows (row : Row) (a : Int) (w : UInt16) : Prop where
  address : row.address = a
  word : row.word = w
  text : Decoder.standard.disassemble w.toNat = .ok row.text

/-- By induction on the words: the first row is for the first word, and the others are two bytes further on. -/
theorem rows_standard (address : Int) (ws : List UInt16) :
    ∃ rs, rows Decoder.standard address ws = .ok rs ∧ rs.length = ws.length ∧
      ∀ (k : Nat) w, ws[k]? = some w → ∃ row, rs[k]? = some row ∧ row.Shows (address + 2 * k) w := by
  induction ws generalizing address with
  | nil => exact ⟨[], rfl, rfl, fun k w hw => by simp at hw⟩
  | cons word rest ih =>
    obtain ⟨text, htext⟩ := disassemble_standard word
    obtain ⟨rs, hrows, hlength, hrest⟩ := ih (address + 2)
    refine ⟨⟨address, word, text⟩ :: rs, ?_, ?_, ?_⟩
    · simp only [rows, htext, hrows]
      rfl
    · rw [List.length_cons, hlength, List.length_cons]
    · intro k w hw
      cases k with
      | zero =>
        obtain rfl : word = w := by simpa using hw
        exact ⟨_, rfl, by simp, rfl, htext⟩
      | succ k =>
        rw [List.getElem?_cons_succ] at hw
        obtain ⟨row, hrow, hshows⟩ := hrest k w hw
        refine ⟨row, hrow, hshows.address.trans ?_, hshows.word, hshows.text⟩
        push_cast
        omega

/-- **A listing has a row for every word**, two bytes apart from the start on. -/
theorem listing_standard (rom : List UInt8) (start : Int) :
    ∃ rs, listing Decoder.standard rom start = .ok rs ∧ rs.length = (rom.length + 1) / 2 ∧
      ∀ k : Nat, 2 * k < rom.length → ∃ row, rs[k]? = some row ∧
        row.Shows (start + 2 * k) (wordOfBytes (byteOf rom (2 * k)) (byteOf rom (2 * k + 1))) := by
  obtain ⟨rs, hrows, hlength, hrest⟩ := rows_standard start (words rom)
  exact ⟨rs, hrows, hlength.trans (length_words rom), fun k hk => hrest k _ (getElem?_words rom hk)⟩

end Program

/-! ## The program in memory -/

/-- A fresh machine has its program from 0x200 on, and zeros after it. -/
theorem Machine.byteAt_start {rom : List UInt8} {m : Machine} (h : Machine.start rom = .ok m) (i : Nat) :
    m.byteAt (0x200 + i) = Program.byteOf rom i := by
  obtain ⟨hsize, rfl⟩ := Machine.start_eq_ok_iff.1 h
  rw [byteAt, Array.getD_eq_getD_getElem?, getElem?_startMemory hsize, if_neg (by omega), if_neg (by omega),
    Nat.add_sub_cancel_left, Program.byteOf, List.getD_eq_getElem?_getD]
  rcases Nat.lt_or_ge i rom.length with hlt | hge
  · rw [if_pos (by omega)]
  · rw [if_neg (by omega), List.getElem?_eq_none hge]
    split <;> rfl

end Chip8
