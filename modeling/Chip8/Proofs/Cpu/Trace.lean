import Chip8.Cpu.Trace
import Mathlib.Data.List.DropRight

/-!
# What a trace keeps

A trace that was given a row of entries one by one holds the newest of them, as many as its limit allows. Main
statements: `toList_push`, and `newest_newest_concat`, by which it does not matter that the older ones are gone already
when the next one comes.
-/

namespace Chip8.Trace

variable {limit : Option Nat} {es : List TraceEntry}

/-- The last entries of a row, all of them without a limit. -/
def newest : Option Nat → List TraceEntry → List TraceEntry
  | none, es => es
  | some limit, es => es.rtake limit

@[simp] theorem newest_nil (limit : Option Nat) : newest limit [] = [] := by
  cases limit <;> simp [newest]

theorem newest_suffix (limit : Option Nat) (es : List TraceEntry) : newest limit es <:+ es := by
  cases limit with
  | none => exact List.suffix_rfl
  | some limit => exact List.drop_suffix _ _

/-- Where any entry is kept, the last one is. -/
theorem newest_concat (hon : limit ≠ some 0) (es : List TraceEntry) (e : TraceEntry) :
    ∃ rest, rest <:+ es ∧ newest limit (es ++ [e]) = rest ++ [e] := by
  match limit with
  | none => exact ⟨es, List.suffix_rfl, rfl⟩
  | some 0 => exact absurd rfl hon
  | some (limit + 1) => exact ⟨es.rtake limit, List.drop_suffix _ _, List.rtake_concat_succ es limit e⟩

theorem newest_newest_concat (limit : Option Nat) (es : List TraceEntry) (e : TraceEntry) :
    newest limit (newest limit es ++ [e]) = newest limit (es ++ [e]) := by
  match limit with
  | none => rfl
  | some 0 => simp only [newest, List.rtake_zero]
  | some (limit + 1) =>
    have hagain : (es.rtake (limit + 1)).rtake limit = es.rtake limit := by
      simp [List.rtake_eq_reverse_take_reverse, List.take_take]
    simp only [newest, List.rtake_concat_succ, hagain]

theorem limit_push (t : Trace) (e : TraceEntry) : (t.push e).limit = t.limit := by
  unfold push
  split <;> rfl

/-- **The newest entries** are what a trace holds after one more. -/
theorem toList_push (t : Trace) (e : TraceEntry) :
    (t.push e).entries.toList = newest t.limit (t.entries.toList ++ [e]) := by
  unfold push
  cases hlimit : t.limit with
  | none => simp only [Array.toList_push, newest]
  | some limit =>
    simp only [lastEntries, newest, List.rtake]
    split
    · next hle =>
      rw [Array.size_push] at hle
      simp [Nat.sub_eq_zero_of_le hle]
    · simp [List.take_of_length_le]

/-- Of the entries of a trace that keeps any, the last one is the one just added. -/
theorem back?_push {t : Trace} (hon : t.limit ≠ some 0) (e : TraceEntry) : (t.push e).entries.back? = some e := by
  obtain ⟨rest, -, hnewest⟩ := newest_concat hon t.entries.toList e
  rw [← Array.getLast?_toList, toList_push, hnewest, List.getLast?_concat]

end Chip8.Trace
