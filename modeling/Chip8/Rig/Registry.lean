import Chip8.Rig.Execute

/-!
# The registry

Which operations have a primitive, and whether that can still change. A registry is filled with every operation and
frozen before anybody sees it. Main statement: `register_standard`, by which neither freezing nor thawing lets a
second primitive in.
-/

namespace Chip8

/-- The operations with a primitive, in the order of registration. -/
structure Registry where
  ops : List Op
  frozen : Bool
  deriving DecidableEq, Repr

namespace Registry

/-- All operations, frozen. -/
def standard : Registry := { ops := Op.all, frozen := true }

/-- Adds an operation. -/
def register (r : Registry) (op : Op) : Except Mishap Registry :=
  if r.frozen then .error .registryFrozen
  else if op ∈ r.ops then .error (.alreadyRegistered op.name)
  else .ok { r with ops := r.ops ++ [op] }

/-- Locks the registry. -/
def freeze (r : Registry) : Registry := { r with frozen := true }

/-- Unlocks the registry. -/
def thaw (r : Registry) : Registry := { r with frozen := false }

/-- The names of the operations, in alphabetical order. -/
def names (r : Registry) : List String := (r.ops.map Op.name).mergeSort fun a b => decide (a ≤ b)

theorem register_standard (frozen : Bool) (op : Op) :
    ∃ m, register { standard with frozen } op = .error m := by
  cases frozen
  · exact ⟨.alreadyRegistered op.name, by simp [register, standard, Op.mem_all]⟩
  · exact ⟨.registryFrozen, rfl⟩

variable {δ ρ : Type} [Device δ] [RandomSource ρ]

/-- Runs the primitive of a key and counts it. -/
def execute (r : Registry) (key : String) (args : List Int) : Act (Rig δ ρ) Unit :=
  match r.ops.find? fun op => op.name == key with
  | some op => Rig.execute op args
  | none => Act.mishap (.unknownOperation key)

end Registry

end Chip8
