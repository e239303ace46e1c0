import PrivacyEngine.Wire.Text

/-!
# Steps that can panic

Slicing out of range, an addition that overflows and a loop without end, told apart from a reader
that gives up.  A reader that is written with such steps and agrees with one written without them
never panics.
-/

namespace Wire

inductive Fault where
  | outOfRange
  | overflow
  | endless
  deriving DecidableEq

/-- Slices have at most `isize::MAX` bytes. -/
def sliceBound : Nat := 9223372036854775808

/-- The bytes that a slice can have. -/
abbrev Slice := { data : Bytes // data.length < sliceBound }

/-- An indexing that panics out of range. -/
def indexed {α : Type} : Option α → Except Fault α
  | some a => .ok a
  | none => .error .outOfRange

/-- An addition that panics when it overflows. -/
def plus (m n : Nat) : Except Fault Nat :=
  if m + n < usizeBound then .ok (m + n) else .error .overflow

@[simp] theorem ok_bind {ε α β : Type} (a : α) (f : α → Except ε β) :
    (Except.ok a >>= f) = f a := rfl

theorem plus_of_le {m n bound : Nat} (within : m + n ≤ bound + 4) (slice : bound < sliceBound) :
    plus m n = .ok (m + n) := by
  refine if_pos ?_
  simp only [usizeBound, UInt64.size, sliceBound] at *
  omega

theorem slice_eq_some {s : Bytes} {start stop : Nat} (ordered : start ≤ stop)
    (in_range : stop ≤ s.length) : slice s start stop = some ((s.take stop).drop start) :=
  if_pos ⟨ordered, in_range⟩

/-! ## Positions -/

/-- The bytes of `data` from a position on. -/
def Stands (data : Bytes) (pos : Nat) (rest : Bytes) : Prop :=
  ∃ front, data = front ++ rest ∧ front.length = pos

namespace Stands

variable {data part rest : Bytes} {pos : Nat}

theorem start (data : Bytes) : Stands data 0 data := ⟨[], rfl, rfl⟩

theorem shift (stands : Stands data pos (part ++ rest)) : Stands data (pos + part.length) rest := by
  obtain ⟨front, rfl, rfl⟩ := stands
  exact ⟨front ++ part, (List.append_assoc ..).symm, List.length_append⟩

theorem length_eq (stands : Stands data pos rest) : data.length = pos + rest.length := by
  obtain ⟨front, rfl, rfl⟩ := stands
  exact List.length_append

theorem sliceFrom (stands : Stands data pos rest) : Wire.sliceFrom data pos = some rest := by
  obtain ⟨front, rfl, rfl⟩ := stands
  rw [sliceFrom_eq_some (by simp), List.drop_left]

theorem slice (stands : Stands data pos (part ++ rest)) :
    Wire.slice data pos (pos + part.length) = some part := by
  obtain ⟨front, rfl, rfl⟩ := stands
  rw [slice_eq_some (Nat.le_add_right _ _) (by simp), ← List.append_assoc,
    ← List.length_append, List.take_left, List.drop_left]

end Stands

end Wire
