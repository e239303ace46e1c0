import PrivacyEngine.Wire.Text

/-!
# Readers that look at nothing behind what they consume

A reader takes a value off the front of a buffer.  One that is determined by the bytes it consumes
finds the same value in every buffer that starts with them, and none in a buffer that ends before
them.
-/

namespace Wire

/-- A value read from the front of a buffer, and the bytes behind it. -/
abbrev Reader (α : Type) := StateT Bytes Option α

/-- What is read depends on the bytes consumed and on nothing else. -/
def Determined {α : Type} (reader : Reader α) : Prop :=
  ∀ s value rest, reader s = some (value, rest) →
    ∃ used, s = used ++ rest ∧ ∀ more, reader (used ++ more) = some (value, more)

/-! ## Reading bytes -/

def readU8 : Reader UInt8
  | [] => none
  | b :: rest => some (b, rest)

/-- A number of two bytes, the high one first. -/
def readU16 : Reader Nat
  | high :: low :: rest => some (high.toNat * 256 + low.toNat, rest)
  | _ => none

def readSlice (n : Nat) : Reader Bytes := fun s =>
  if n ≤ s.length then some (s.take n, s.drop n) else none

def skip (n : Nat) : Reader Unit := fun s => if n ≤ s.length then some ((), s.drop n) else none

/-- Give up unless a condition holds. -/
def require (condition : Bool) : Reader Unit := fun s => if condition then some ((), s) else none

namespace Determined

variable {α β : Type}

theorem readU8 : Determined readU8 := by
  intro s value rest reads
  cases s with
  | nil => cases reads
  | cons b s =>
      cases reads
      exact ⟨[value], rfl, fun more => rfl⟩

theorem readU16 : Determined readU16 := by
  intro s value rest reads
  cases s with
  | nil => cases reads
  | cons high s =>
      cases s with
      | nil => cases reads
      | cons low s =>
          cases reads
          exact ⟨[high, low], rfl, fun more => rfl⟩

theorem readSlice (n : Nat) : Determined (readSlice n) := by
  intro s value rest reads
  rw [Wire.readSlice] at reads
  split at reads
  · rename_i fits
    cases reads
    refine ⟨s.take n, (List.take_append_drop n s).symm, fun more => ?_⟩
    have length_eq : (s.take n).length = n := List.length_take_of_le fits
    have long : n ≤ (s.take n ++ more).length := by
      rw [List.length_append, length_eq]
      exact Nat.le_add_right _ _
    rw [Wire.readSlice, if_pos long, List.take_left' length_eq, List.drop_left' length_eq]
  · cases reads

theorem require (condition : Bool) : Determined (require condition) := by
  intro s value rest reads
  rw [Wire.require] at reads
  split at reads
  · rename_i holds
    cases reads
    exact ⟨[], rfl, fun more => if_pos holds⟩
  · cases reads

/-- One reader behind another. -/
theorem bind {first : Reader α} {next : α → Reader β} (determined : Determined first)
    (later : ∀ value, Determined (next value)) : Determined (first >>= next) := by
  intro s value rest reads
  obtain ⟨⟨between, middle⟩, first_reads, next_reads⟩ := Option.bind_eq_some_iff.mp reads
  obtain ⟨used, rfl, again⟩ := determined s between middle first_reads
  obtain ⟨more_used, rfl, again'⟩ := later between middle value rest next_reads
  refine ⟨used ++ more_used, (List.append_assoc _ _ _).symm, fun more => ?_⟩
  refine Option.bind_eq_some_iff.mpr ⟨(between, more_used ++ more), ?_, again' more⟩
  rw [List.append_assoc]
  exact again (more_used ++ more)

theorem pure (value : α) : Determined (Pure.pure value : Reader α) := by
  intro s found rest reads
  cases reads
  exact ⟨[], rfl, fun more => rfl⟩

theorem skip (n : Nat) : Determined (skip n) := by
  have slices : Wire.skip n = Wire.readSlice n >>= fun _ => Pure.pure () := by
    funext s
    change _ = (Wire.readSlice n s).bind _
    rw [Wire.skip, Wire.readSlice]
    split <;> rfl
  rw [slices]
  exact (readSlice n).bind fun _ => .pure ()

/-- A reader that finds nothing in an empty buffer consumes something. -/
theorem shorter {reader : Reader α} (determined : Determined reader) (empty : reader [] = none)
    {s rest : Bytes} {value : α} (reads : reader s = some (value, rest)) :
    rest.length < s.length := by
  obtain ⟨used, rfl, again⟩ := determined s value rest reads
  have filled : used ≠ [] := by
    rintro rfl
    cases empty.symm.trans (again [])
  have := List.length_pos_iff.mpr filled
  rw [List.length_append]
  omega

/-! ## Buffers that are cut -/

variable {reader : Reader α} {s rest : Bytes} {value : α}

/-- A buffer that is cut behind the bytes consumed gives the same value, and one that is cut before
gives none. -/
theorem take (determined : Determined reader) (reads : reader s = some (value, rest)) (k : Nat) :
    reader (s.take k) =
      if s.length - rest.length ≤ k then some (value, (s.take k).drop (s.length - rest.length))
      else none := by
  obtain ⟨used, rfl, again⟩ := determined s value rest reads
  have used_length : (used ++ rest).length - rest.length = used.length := by
    rw [List.length_append, Nat.add_sub_cancel]
  rw [used_length]
  split
  · rename_i covers
    rw [List.take_append, List.take_of_length_le covers, List.drop_left]
    exact again _
  · rename_i short
    cases cut : reader ((used ++ rest).take k) with
    | none => rfl
    | some found =>
        -- what is read from the front is read from the whole buffer, which consumes more
        obtain ⟨other, left⟩ := found
        obtain ⟨before, whole, again'⟩ := determined _ other left cut
        have extended := again' (left ++ (used ++ rest).drop k)
        rw [← List.append_assoc, ← whole, List.take_append_drop, again rest] at extended
        have behind := congrArg List.length (Prod.mk.inj (Option.some.inj extended)).2
        have front := congrArg List.length whole
        simp only [List.length_append, List.length_drop, List.length_take] at behind front
        omega

/-- Nothing is read from the front of a buffer from which nothing is read. -/
theorem take_none (determined : Determined reader) (reads : reader s = none) (k : Nat) :
    reader (s.take k) = none := by
  cases cut : reader (s.take k) with
  | none => rfl
  | some found =>
      obtain ⟨value, left⟩ := found
      obtain ⟨before, whole, again⟩ := determined _ value left cut
      have extended := again (left ++ s.drop k)
      rw [← List.append_assoc, ← whole, List.take_append_drop, reads] at extended
      cases extended

end Determined

/-! ## Parts of the buffer -/

/-- What a reader finds holds a part of the buffer. -/
def Within {α : Type} (reader : Reader α) (part : α → Bytes) : Prop :=
  ∀ s value rest, reader s = some (value, rest) → part value <:+: s

namespace Within

variable {α β : Type}

theorem readSlice (n : Nat) : Within (readSlice n) id := by
  intro s value rest reads
  rw [Wire.readSlice] at reads
  split at reads
  · cases reads
    exact (List.take_prefix n s).isInfix
  · cases reads

/-- The part that a later reader finds is part of the whole buffer. -/
theorem bind {first : Reader α} {next : α → Reader β} {part : β → Bytes}
    (determined : Determined first) (later : ∀ value, Within (next value) part) :
    Within (first >>= next) part := by
  intro s value rest reads
  obtain ⟨⟨between, middle⟩, first_reads, next_reads⟩ := Option.bind_eq_some_iff.mp reads
  obtain ⟨used, rfl, -⟩ := determined s between middle first_reads
  exact (later between middle value rest next_reads).trans (List.suffix_append _ _).isInfix

/-- The part is kept when it is handed on with something else. -/
theorem map {first : Reader α} {part : α → Bytes} (within : Within first part) {f : α → β}
    {part' : β → Bytes} (same : ∀ value, part' (f value) = part value) :
    Within (first >>= fun value => pure (f value)) part' := by
  intro s value rest reads
  obtain ⟨⟨between, middle⟩, first_reads, next_reads⟩ := Option.bind_eq_some_iff.mp reads
  cases next_reads
  rw [same]
  exact within s between _ first_reads

end Within

end Wire
