import Chip8.Proofs.Machine.Effect
import Chip8.Proofs.Machine.Likeness

/-!
# The stack as a list

The return addresses in use are a list that calls append to and returns take the last element from; no other operation
touches it (`live_effect`). The entries above it are left over from former calls. They are never read again, and so
machines that differ in nothing else cannot be told apart: `Alike` is a likeness that calls and returns respect as well.
-/

namespace Chip8.Machine

open Act

variable {m n : Machine}

/-! ## Pushing and popping -/

/-- A stack of the proper size with its pointer in it. -/
structure Stacked (m : Machine) : Prop where
  size : m.stack.size = 16
  le_sp : -1 ≤ m.sp
  sp_lt : m.sp < 16

theorem Sound.stacked (hm : m.Sound) : m.Stacked := ⟨hm.stack, hm.le_sp, hm.sp_lt⟩

theorem Stacked.push_eq (hm : m.Stacked) (hsp : m.sp ≠ 15) (address : Int) :
    push address m = .ok () (m.pushed address) := by
  obtain ⟨hsize, hlow, hhigh⟩ := hm
  obtain ⟨i, hi⟩ := Int.eq_ofNat_of_zero_le (show 0 ≤ m.sp + 1 by omega)
  have hwrite := Cells.write_natCast .noEntryToWrite (address % 65536) (by omega : i < m.stack.size) (by omega)
  simp [push, hsp, hi, hwrite, pushed]

theorem push_full (hsp : m.sp = 15) (address : Int) :
    push address m = .error (.fault { cause := .stackFull, pc := some m.pc }) m := by
  simp [push, hsp, raise_eq]

theorem pop_empty (hsp : m.sp = -1) : pop m = .error (.fault { cause := .stackEmpty, pc := some m.pc }) m := by
  simp [pop, hsp, raise_eq]

theorem Stacked.pop_eq (hm : m.Stacked) (hsp : m.sp ≠ -1) :
    pop m = .ok (m.entry m.sp.toNat) { m with sp := m.sp - 1 } := by
  obtain ⟨hsize, hlow, hhigh⟩ := hm
  obtain ⟨i, hi⟩ := Int.eq_ofNat_of_zero_le (show 0 ≤ m.sp by omega)
  have hread := Cells.read_natCast .noEntryToRead 0 (by omega : i < m.stack.size) (by omega)
  simp [pop, hi, hread, entry]

theorem Stacked.pushed (hm : m.Stacked) (hsp : m.sp ≠ 15) (address : Int) : (m.pushed address).Stacked := by
  obtain ⟨hsize, hlow, hhigh⟩ := hm
  refine ⟨Array.size_setIfInBounds.trans hsize, ?_, ?_⟩
  · show -1 ≤ m.sp + 1
    omega
  · show m.sp + 1 < 16
    omega

theorem Stacked.popped (hm : m.Stacked) (hsp : m.sp ≠ -1) : ({ m with sp := m.sp - 1 } : Machine).Stacked := by
  obtain ⟨hsize, hlow, hhigh⟩ := hm
  refine ⟨hsize, ?_, ?_⟩
  · show -1 ≤ m.sp - 1
    omega
  · show m.sp - 1 < 16
    omega

theorem Stacked.entry_pushed (hm : m.Stacked) (hsp : m.sp ≠ 15) (address : Int) (i : Nat) :
    (m.pushed address).entry i = if (m.sp + 1).toNat = i then address % 65536 else m.entry i := by
  obtain ⟨hsize, hlow, hhigh⟩ := hm
  exact Cells.getD_setIfInBounds (by omega) _ 0 i

/-! ## The list -/

theorem Stacked.live_eq (hm : m.Stacked) : m.live = (List.range (m.sp + 1).toNat).map m.entry := by
  obtain ⟨hsize, hlow, hhigh⟩ := hm
  have hlast : Cells.clip m.stack.size (m.sp + 1) = (m.sp + 1).toNat := by
    rw [Cells.clip, if_pos (by omega)]
    omega
  have hfirst : Cells.clip m.stack.size 0 = 0 := by simp [Cells.clip]
  rw [live, Cells.stretch, hfirst, hlast]
  apply List.ext_getElem
  · simp
    omega
  · intro i hi _
    simp only [Array.length_toList, Array.size_extract] at hi
    have hlt : i < m.stack.size := by omega
    simp [entry, hlt]

theorem Stacked.length_live (hm : m.Stacked) : (m.live.length : Int) = m.sp + 1 := by
  have hlow := hm.le_sp
  rw [hm.live_eq, List.length_map, List.length_range]
  omega

theorem live_congr (hstack : n.stack = m.stack) (hsp : n.sp = m.sp) : n.live = m.live := by
  rw [live, live, hstack, hsp]

/-- A call appends its return address. -/
theorem Stacked.live_pushed (hm : m.Stacked) (hsp : m.sp ≠ 15) (address : Int) :
    (m.pushed address).live = m.live ++ [address % 65536] := by
  have hlow := hm.le_sp
  have hcount : ((m.pushed address).sp + 1).toNat = (m.sp + 1).toNat + 1 := by
    show (m.sp + 1 + 1).toNat = _
    omega
  rw [(hm.pushed hsp address).live_eq, hm.live_eq, hcount, List.range_succ, List.map_append, List.map_singleton]
  congr 1
  · apply List.map_congr_left
    intro i hi
    rw [hm.entry_pushed hsp, if_neg (by have := List.mem_range.1 hi; omega)]
  · rw [hm.entry_pushed hsp, if_pos rfl]

/-- A return takes the last address off. -/
theorem Stacked.live_popped (hm : m.Stacked) (hsp : m.sp ≠ -1) :
    m.live = ({ m with sp := m.sp - 1 } : Machine).live ++ [m.entry m.sp.toNat] := by
  have hlow := hm.le_sp
  have hcount : (m.sp + 1).toNat = (m.sp - 1 + 1).toNat + 1 := by omega
  have htop : (m.sp - 1 + 1).toNat = m.sp.toNat := by omega
  rw [hm.live_eq, (hm.popped hsp).live_eq, hcount, List.range_succ, List.map_append, List.map_singleton, htop]
  rfl

/-- No other operation touches the stack. -/
theorem stack_sp_effect (m : Machine) (w : UInt16) (r : Reply) {op : Op} (hcall : op ≠ .call) (hret : op ≠ .ret) :
    (m.effect w r op).stack = m.stack ∧ (m.effect w r op).sp = m.sp := by
  cases op with
  | call => exact absurd rfl hcall
  | ret => exact absurd rfl hret
  | store =>
    rw [effect, stored_eq]
    exact ⟨rfl, rfl⟩
  | load =>
    rw [effect, loaded_eq]
    exact ⟨rfl, rfl⟩
  | awaitKey =>
    simp only [effect]
    split <;> exact ⟨rfl, rfl⟩
  | _ => exact ⟨rfl, rfl⟩

theorem live_effect (m : Machine) (w : UInt16) (r : Reply) {op : Op} (hcall : op ≠ .call) (hret : op ≠ .ret) :
    (m.effect w r op).live = m.live := by
  obtain ⟨hstack, hsp⟩ := stack_sp_effect m w r hcall hret
  exact live_congr hstack hsp

theorem live_begun (m : Machine) (op : Op) : (m.begun op).live = m.live := by
  cases op <;> rfl

/-! ## Unused entries -/

/-- Machines with proper stacks that differ at most in the entries not in use. -/
def Alike (m n : Machine) : Prop :=
  ∃ stack : Array Int, n = { m with stack } ∧ m.Stacked ∧ stack.size = 16 ∧
    ∀ i : Nat, (i : Int) ≤ m.sp → stack.getD i 0 = m.entry i

namespace Alike

theorem refl (hm : m.Stacked) : Alike m m := ⟨m.stack, rfl, hm, hm.size, fun _ _ => rfl⟩

theorem stacked (h : Alike m n) : n.Stacked := by
  obtain ⟨stack, rfl, hm, hsize, -⟩ := h
  exact ⟨hsize, hm.le_sp, hm.sp_lt⟩

theorem stacked_left (h : Alike m n) : m.Stacked := by
  obtain ⟨stack, rfl, hm, -⟩ := h
  exact hm

/-- What does not depend on the stack is the same in both. -/
theorem agree {α : Type} {f : Machine → α} (hf : ∀ (m : Machine) stack, f { m with stack } = f m) (h : Alike m n) :
    f n = f m := by
  obtain ⟨stack, rfl, -⟩ := h
  exact hf m stack

theorem sp_eq (h : Alike m n) : n.sp = m.sp := h.agree (f := fun m => m.sp) fun _ _ => rfl

theorem entry_eq (h : Alike m n) {i : Nat} (hi : (i : Int) ≤ m.sp) : n.entry i = m.entry i := by
  obtain ⟨stack, rfl, -, -, hentry⟩ := h
  exact hentry i hi

/-- What is done to machines besides their stacks leaves them alike. -/
theorem map {f : Machine → Machine} (hf : ∀ (m : Machine) stack, f { m with stack } = { f m with stack })
    (hstack : ∀ m, (f m).stack = m.stack) (hsp : ∀ m, (f m).sp = m.sp) (h : Alike m n) : Alike (f m) (f n) := by
  obtain ⟨stack, rfl, hm, hsize, hentry⟩ := h
  refine ⟨stack, hf m stack, ⟨?_, ?_, ?_⟩, hsize, ?_⟩
  · rw [hstack]
    exact hm.size
  · rw [hsp]
    exact hm.le_sp
  · rw [hsp]
    exact hm.sp_lt
  · intro i hi
    rw [hsp] at hi
    rw [hentry i hi, entry, entry, hstack]

theorem live_eq (h : Alike m n) : n.live = m.live := by
  have hn := h.stacked
  obtain ⟨stack, rfl, hm, -, hentry⟩ := h
  rw [hm.live_eq, hn.live_eq]
  apply List.map_congr_left
  intro i hi
  replace hi : i < (m.sp + 1).toNat := List.mem_range.1 hi
  exact hentry i (by omega)

theorem pushed (h : Alike m n) (hsp : m.sp ≠ 15) (address : Int) : Alike (m.pushed address) (n.pushed address) := by
  have hn := h.stacked
  obtain ⟨stack, rfl, hm, hsize, hentry⟩ := h
  refine ⟨stack.setIfInBounds (m.sp + 1).toNat (address % 65536), rfl, hm.pushed hsp address, ?_, ?_⟩
  · rw [Array.size_setIfInBounds, hsize]
  · intro i hi
    replace hi : (i : Int) ≤ m.sp + 1 := hi
    have htop := hn.entry_pushed hsp address i
    rw [hm.entry_pushed hsp]
    refine htop.trans ?_
    split
    · rfl
    · next hbelow =>
      replace hbelow : ¬ (m.sp + 1).toNat = i := hbelow
      exact hentry i (by omega)

theorem popped (h : Alike m n) (hsp : m.sp ≠ -1) :
    Alike { m with sp := m.sp - 1 } { n with sp := n.sp - 1 } := by
  obtain ⟨stack, rfl, hm, hsize, hentry⟩ := h
  refine ⟨stack, rfl, hm.popped hsp, hsize, ?_⟩
  intro i hi
  replace hi : (i : Int) ≤ m.sp - 1 := hi
  exact hentry i (by omega)

end Alike

/-- Being alike is a likeness. -/
theorem likeness_alike : Likeness Alike where
  memory := Alike.agree (f := fun m => m.memory) fun _ _ => rfl
  registers := Alike.agree (f := fun m => m.registers) fun _ _ => rfl
  index := Alike.agree (f := fun m => m.index) fun _ _ => rfl
  pc := Alike.agree (f := fun m => m.pc) fun _ _ => rfl
  withMemory memory := Alike.map (f := fun m => { m with memory }) (fun _ _ => rfl) (fun _ => rfl) fun _ => rfl
  withRegisters registers := Alike.map (f := fun m => { m with registers }) (fun _ _ => rfl) (fun _ => rfl) fun _ => rfl
  withIndex index := Alike.map (f := fun m => { m with index }) (fun _ _ => rfl) (fun _ => rfl) fun _ => rfl
  withPc pc := Alike.map (f := fun m => { m with pc }) (fun _ _ => rfl) (fun _ => rfl) fun _ => rfl
  withDelay delayTimer := Alike.map (f := fun m => { m with delayTimer }) (fun _ _ => rfl) (fun _ => rfl) fun _ => rfl
  withSound soundTimer := Alike.map (f := fun m => { m with soundTimer }) (fun _ _ => rfl) (fun _ => rfl) fun _ => rfl
  counted := Alike.map (f := Machine.counted) (fun _ _ => rfl) (fun _ => rfl) fun _ => rfl

theorem respects_push (address : Int) : Respects Alike (push address) := by
  intro m n h
  have hn := h.stacked
  have hsp := h.sp_eq
  by_cases hfull : m.sp = 15
  · rw [push_full hfull, push_full (hsp.trans hfull), likeness_alike.pc h]
    exact .error _ h
  · rw [h.stacked_left.push_eq hfull, hn.push_eq (by rwa [hsp])]
    exact .ok () (h.pushed hfull address)

theorem respects_pop : Respects Alike pop := by
  intro m n h
  have hn := h.stacked
  have hsp := h.sp_eq
  by_cases hempty : m.sp = -1
  · rw [pop_empty hempty, pop_empty (hsp.trans hempty), likeness_alike.pc h]
    exact .error _ h
  · have hlow := h.stacked_left.le_sp
    rw [h.stacked_left.pop_eq hempty, hn.pop_eq (by rwa [hsp]), hsp, h.entry_eq (by omega)]
    have hpopped := h.popped hempty
    rw [hsp] at hpopped
    exact .ok _ hpopped

theorem respects_call (args : List Int) : Respects Alike (call args) := by
  refine respects_get_bind fun m n h => ?_
  rw [likeness_alike.pc h]
  refine (respects_push _).bind (fun _ => ?_) m n h
  exact (respects_ofExcept _).bind fun address => likeness_alike.setPc address

theorem respects_ret : Respects Alike ret := respects_pop.bind fun address => likeness_alike.setPc address

theorem respects_readDelay (args : List Int) : Respects Alike (readDelay args) := by
  refine likeness_alike.readDelay ?_ args
  rintro m n ⟨stack, rfl, -⟩
  rfl

end Chip8.Machine
