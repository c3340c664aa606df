import Chip8.Proofs.Machine.Start

/-!
# Access to memory

An access to memory lies inside it, or it is refused and changes nothing. Copying puts bytes in the place of the stretch
they cover, and a stretch that leaves the memory would be clipped to it, so that the row would grow. Only the check in
front of the copy keeps the row at 4096 bytes. No bytes at all are not checked, and change nothing at any address.
Main statement: `memory_access`.
-/

namespace Chip8

/-- Between an address and itself nothing is taken out, wherever that is. -/
theorem Cells.splice_nil {α : Type} (cells : Array α) (address : Int) : splice cells address address [] = cells := by
  simp [splice]

namespace Machine

variable {m m' : Machine} {address a : Int} {data : List UInt8} {b : UInt8}

/-! ## Outcomes of an access -/

/-- The access was refused: the fault says that it is out of bounds, and the machine is as it was. -/
def OutOfBounds {α : Type} (m : Machine) (result : EStateM.Result Failure Machine α) : Prop :=
  ∃ f : Fault, f.kind = .outOfBounds ∧ result = .error (.fault f) m

/-- The bytes lie in memory from an address on, and all else is as it was. -/
structure Overwritten (m : Machine) (address : Int) (data : List UInt8) (m' : Machine) : Prop where
  size : m'.memory.size = 4096
  inside : ∀ k < data.length, ∃ i : Nat, (i : Int) = address + k ∧ m'.memory[i]? = data[k]?
  outside : ∀ i : Nat, i < address ∨ address + data.length ≤ i → m'.memory[i]? = m.memory[i]?
  rest : m' = { m with memory := m'.memory }

theorem OutOfBounds.ne_ok {α : Type} {result : EStateM.Result Failure Machine α} (h : m.OutOfBounds result) (value : α)
    (m' : Machine) : result ≠ .ok value m' := by
  obtain ⟨f, -, rfl⟩ := h
  simp

/-! ## The check -/

/-- What the check refuses goes no further. -/
theorem outOfBounds_of_check {α : Type} {start length : Int} (h : ¬ (0 ≤ start ∧ start + length ≤ 4096))
    (m : Machine) (next : Unit → Act Machine α) : m.OutOfBounds ((checkRange start length >>= next) m) := by
  have hrange : inRange start length = false := by rwa [← Bool.not_eq_true, inRange_iff]
  rw [Act.bind_run, checkRange_error hrange, onward_error]
  exact ⟨_, rfl, rfl⟩

/-! ## Copying -/

theorem overwritten_nil (hm : m.memory.size = 4096) (address : Int) : m.Overwritten address [] m where
  size := hm
  inside k hk := by simp at hk
  outside _ _ := rfl
  rest := rfl

theorem overwritten_splice (hm : m.memory.size = 4096) {first : Nat} (h : first + data.length ≤ 4096) :
    m.Overwritten first data { m with memory := Cells.splice m.memory first (first + data.length) data } where
  size := by rw [Cells.size_splice (by omega), hm]
  inside k hk := by
    refine ⟨first + k, by omega, ?_⟩
    rw [Cells.getElem?_splice (by omega), if_pos (by omega), Nat.add_sub_cancel_left]
  outside i hi := by rw [Cells.getElem?_splice (by omega), if_neg (by omega)]
  rest := rfl

/-- No bytes go nowhere, from whatever address on. -/
theorem loadBytes_nil (address : Int) (m : Machine) : loadBytes address [] m = .ok () m := by
  have hsame : loadBytes address [] m =
      .ok () { m with memory := Cells.splice m.memory address (address + 0) [] } := rfl
  rw [hsame, Int.add_zero, Cells.splice_nil]

/-- Bytes that do not fit are refused. -/
theorem loadBytes_outOfBounds (hdata : data ≠ []) (h : address < 0 ∨ 4096 < address + data.length) (m : Machine) :
    m.OutOfBounds (loadBytes address data m) := by
  have hbytes : ¬ data.isEmpty = true := by simpa using hdata
  rw [loadBytes, if_neg hbytes]
  exact outOfBounds_of_check (by omega) m _

/-- Bytes that fit are copied, and so are no bytes. -/
theorem loadBytes_overwritten (hm : m.memory.size = 4096)
    (h : ¬ (data ≠ [] ∧ (address < 0 ∨ 4096 < address + data.length))) :
    ∃ m', loadBytes address data m = .ok () m' ∧ m.Overwritten address data m' := by
  by_cases hdata : data = []
  · subst hdata
    exact ⟨m, loadBytes_nil address m, overwritten_nil hm address⟩
  · have hrange : ¬ (address < 0 ∨ 4096 < address + data.length) := fun hbad => h ⟨hdata, hbad⟩
    obtain ⟨first, rfl⟩ := Int.eq_ofNat_of_zero_le (show 0 ≤ address by omega)
    have hfits : first + data.length ≤ 4096 := by omega
    exact ⟨_, loadBytes_eq hfits m, overwritten_splice hm hfits⟩

theorem outOfBounds_loadBytes_iff (hm : m.memory.size = 4096) :
    m.OutOfBounds (loadBytes address data m) ↔ data ≠ [] ∧ (address < 0 ∨ 4096 < address + data.length) := by
  by_cases h : data ≠ [] ∧ (address < 0 ∨ 4096 < address + data.length)
  · exact iff_of_true (loadBytes_outOfBounds h.1 h.2 m) h
  · obtain ⟨m', hload, -⟩ := loadBytes_overwritten hm h
    exact iff_of_false (fun hout => hout.ne_ok () m' hload) h

/-! ## Single bytes -/

/-- A byte is read in its place, if there is one, and reading changes nothing. -/
theorem readByte_cases (hm : m.memory.size = 4096) (a : Int) :
    (∃ (i : Nat) (b : UInt8), a = i ∧ m.memory[i]? = some b ∧ readByte a m = .ok b m) ∨
      (¬ (0 ≤ a ∧ a ≤ 0xFFF) ∧ m.OutOfBounds (readByte a m)) := by
  by_cases h : 0 ≤ a ∧ a ≤ 0xFFF
  · obtain ⟨i, rfl⟩ := Int.eq_ofNat_of_zero_le h.1
    have hi : i < m.memory.size := by omega
    refine .inl ⟨i, m.memory[i], rfl, Array.getElem?_eq_getElem hi, ?_⟩
    rw [readByte, Act.bind_run, checkRange_ok (inRange_iff.2 ⟨h.1, by omega⟩), onward_ok,
      memoryCell_eq hm h.1 (by omega)]
    simp [byteAt, hi]
  · exact .inr ⟨h, outOfBounds_of_check (by omega) m _⟩

theorem lt_of_byte (hm : m.memory.size = 4096) {i : Nat} (h : m.memory[i]? = some b) : i < 4096 := by
  obtain ⟨hi, -⟩ := Array.getElem?_eq_some_iff.1 h
  omega

theorem readByte_eq_ok_iff (hm : m.memory.size = 4096) :
    readByte a m = .ok b m' ↔ m' = m ∧ ∃ i : Nat, a = i ∧ m.memory[i]? = some b := by
  rcases readByte_cases hm a with ⟨i, c, rfl, hbyte, hread⟩ | ⟨hnot, hout⟩
  · rw [hread]
    constructor
    · intro hok
      cases hok
      exact ⟨rfl, i, rfl, hbyte⟩
    · rintro ⟨rfl, j, hj, hbyte'⟩
      obtain rfl : i = j := Int.ofNat_inj.1 hj
      rw [hbyte] at hbyte'
      rw [Option.some.inj hbyte']
  · constructor
    · intro hok
      exact absurd hok (hout.ne_ok b m')
    · rintro ⟨-, i, rfl, hbyte⟩
      have hi := lt_of_byte hm hbyte
      omega

/-- Whoever reads outside the memory is refused, and nobody else is. -/
theorem exists_readByte_iff (hm : m.memory.size = 4096) :
    ((∃ b m', readByte a m = .ok b m') ↔ 0 ≤ a ∧ a ≤ 0xFFF) ∧
      (¬ (0 ≤ a ∧ a ≤ 0xFFF) → m.OutOfBounds (readByte a m)) := by
  rcases readByte_cases hm a with ⟨i, b, rfl, hbyte, hread⟩ | ⟨hnot, hout⟩
  · have hi := lt_of_byte hm hbyte
    have hin : 0 ≤ (i : Int) ∧ (i : Int) ≤ 0xFFF := by omega
    exact ⟨iff_of_true ⟨b, m, hread⟩ hin, fun hnot => absurd hin hnot⟩
  · exact ⟨iff_of_false (fun ⟨b, m', hread⟩ => hout.ne_ok b m' hread) hnot, fun _ => hout⟩

theorem overwritten_withByte (hm : m.memory.size = 4096) {i : Nat} (hi : i < 4096) (b : UInt8) :
    m.Overwritten i [b] (m.withByte i b) where
  size := by rw [size_memory_withByte, hm]
  inside k hk := by
    obtain rfl : k = 0 := by simpa using hk
    exact ⟨i, by simp, by simp [withByte, hm, hi]⟩
  outside j hj := by
    have hne : i ≠ j := by
      rintro rfl
      simp only [List.length_singleton] at hj
      omega
    simp [withByte, hne]
  rest := rfl

/-- A byte that is stored goes to its place, modulo 256, if there is one. -/
theorem writeByte_cases (hm : m.memory.size = 4096) (a value : Int) :
    ((0 ≤ a ∧ a ≤ 0xFFF) ∧ ∃ m', writeByte a value m = .ok () m' ∧ m.Overwritten a [UInt8.ofInt value] m') ∨
      (¬ (0 ≤ a ∧ a ≤ 0xFFF) ∧ m.OutOfBounds (writeByte a value m)) := by
  by_cases h : 0 ≤ a ∧ a ≤ 0xFFF
  · obtain ⟨i, rfl⟩ := Int.eq_ofNat_of_zero_le h.1
    exact .inl ⟨h, _, writeByte_eq hm h.1 (by omega) value, overwritten_withByte hm (by omega) _⟩
  · exact .inr ⟨h, outOfBounds_of_check (by omega) m _⟩

/-- Whoever stores outside the memory is refused, and nobody else is. -/
theorem exists_writeByte_iff (hm : m.memory.size = 4096) (value : Int) :
    ((∃ m', writeByte a value m = .ok () m') ↔ 0 ≤ a ∧ a ≤ 0xFFF) ∧
      (¬ (0 ≤ a ∧ a ≤ 0xFFF) → m.OutOfBounds (writeByte a value m)) := by
  rcases writeByte_cases hm a value with ⟨hin, m', hwrite, -⟩ | ⟨hnot, hout⟩
  · exact ⟨iff_of_true ⟨m', hwrite⟩ hin, fun hnot => absurd hin hnot⟩
  · exact ⟨iff_of_false (fun ⟨m', hwrite⟩ => hout.ne_ok () m' hwrite) hnot, fun _ => hout⟩

theorem overwritten_of_writeByte (hm : m.memory.size = 4096) {value : Int} (h : writeByte a value m = .ok () m') :
    m.Overwritten a [UInt8.ofInt value] m' := by
  rcases writeByte_cases hm a value with ⟨-, m'', hwrite, hbyte⟩ | ⟨-, hout⟩
  · rw [hwrite] at h
    cases h
    exact hbyte
  · exact absurd h (hout.ne_ok () m')

/-- The byte that was put somewhere is read there. -/
theorem Overwritten.readByte_self (h : m.Overwritten a [b] m') : readByte a m' = .ok b m' := by
  obtain ⟨i, hi, hbyte⟩ := h.inside 0 (by simp)
  exact (readByte_eq_ok_iff h.size).2 ⟨rfl, i, by simpa using hi.symm, hbyte⟩

/-- Everywhere else the old byte is read. -/
theorem Overwritten.readByte_other (hm : m.memory.size = 4096) (h : m.Overwritten a [b] m') {a' : Int} (ha : a' ≠ a)
    (c : UInt8) : readByte a' m' = .ok c m' ↔ readByte a' m = .ok c m := by
  have hsame (i : Nat) (hi : a' = i) : m'.memory[i]? = m.memory[i]? := h.outside i (by simp; omega)
  rw [readByte_eq_ok_iff h.size, readByte_eq_ok_iff hm]
  constructor
  · rintro ⟨-, i, hi, hbyte⟩
    exact ⟨rfl, i, hi, by rwa [← hsame i hi]⟩
  · rintro ⟨-, i, hi, hbyte⟩
    exact ⟨rfl, i, hi, by rwa [hsame i hi]⟩

/-! ## Every access -/

/-- **An access lies inside the memory or changes nothing.** Copying is refused if and only if there are bytes to copy
and one of them would lie outside; else the memory has its 4096 bytes, those copied are in their places, and all other
bytes and the rest of the machine are as before. A byte can be read or stored at the addresses from 0 to 0xFFF, and
elsewhere it is refused. What was stored is read back modulo 256, and at every other address the old byte is. -/
theorem memory_access (hm : m.memory.size = 4096) :
    (∀ (address : Int) (data : List UInt8),
      (m.OutOfBounds (loadBytes address data m) ↔ data ≠ [] ∧ (address < 0 ∨ 4096 < address + data.length)) ∧
      (¬ (data ≠ [] ∧ (address < 0 ∨ 4096 < address + data.length)) →
        ∃ m', loadBytes address data m = .ok () m' ∧ m.Overwritten address data m')) ∧
    (∀ a : Int,
      ((∃ b m', readByte a m = .ok b m') ↔ 0 ≤ a ∧ a ≤ 0xFFF) ∧
      (¬ (0 ≤ a ∧ a ≤ 0xFFF) → m.OutOfBounds (readByte a m))) ∧
    ∀ a value : Int,
      ((∃ m', writeByte a value m = .ok () m') ↔ 0 ≤ a ∧ a ≤ 0xFFF) ∧
      (¬ (0 ≤ a ∧ a ≤ 0xFFF) → m.OutOfBounds (writeByte a value m)) ∧
      ∀ m', writeByte a value m = .ok () m' →
        (∃ b : UInt8, readByte a m' = .ok b m' ∧ (b.toNat : Int) = value % 256) ∧
        ∀ a' ≠ a, ∀ c, readByte a' m' = .ok c m' ↔ readByte a' m = .ok c m := by
  refine ⟨fun address data => ⟨outOfBounds_loadBytes_iff hm, loadBytes_overwritten hm⟩, fun a => exists_readByte_iff hm,
    fun a value => ?_⟩
  obtain ⟨hiff, hrefused⟩ := exists_writeByte_iff hm value
  refine ⟨hiff, hrefused, fun m' hwrite => ?_⟩
  have hbyte := overwritten_of_writeByte hm hwrite
  exact ⟨⟨_, hbyte.readByte_self, toNat_ofInt value⟩, fun a' ha c => hbyte.readByte_other hm ha c⟩

/-- In an empty machine no bytes can be copied to an address far below zero, while two bytes at the last address are too
many. A value of more than eight bits is stored there, and the byte in front of it stays zero. -/
theorem memory_access_last :
    ({} : Machine).memory.size = 4096 ∧ (∃ m', loadBytes (-10000) [] {} = .ok () m' ∧ m'.memory.size = 4096) ∧
    OutOfBounds {} (loadBytes 0xFFF [1, 2] {}) ∧
    ∃ m', writeByte 0xFFF 0x1AB {} = .ok () m' ∧ (∃ b : UInt8, readByte 0xFFF m' = .ok b m' ∧ b.toNat = 0xAB) ∧
      readByte 0xFFE m' = .ok 0 m' := by
  have hm : ({} : Machine).memory.size = 4096 := Array.size_replicate
  obtain ⟨hload, -, hstore⟩ := memory_access hm
  obtain ⟨m', hnone, hcopied⟩ := (hload (-10000) []).2 (by simp)
  obtain ⟨hiff, -, hback⟩ := hstore 0xFFF 0x1AB
  obtain ⟨m'', hwrite⟩ := hiff.2 (by decide)
  obtain ⟨⟨b, hread, hb⟩, hothers⟩ := hback m'' hwrite
  refine ⟨hm, ⟨m', hnone, hcopied.size⟩, (hload 0xFFF [1, 2]).1.2 (by decide), m'', hwrite, ⟨b, hread, by omega⟩, ?_⟩
  refine (hothers 0xFFE (by decide) 0).2 ((readByte_eq_ok_iff hm).2 ⟨rfl, 0xFFE, rfl, ?_⟩)
  simp

end Machine

end Chip8
