import PrivacyEngine.Wire.Reader
import PrivacyEngine.Wire.Strict

/-!
# Readers that move a position

A cursor holds a whole buffer and the position up to which it has been read.  Its readers index the
buffer, so they can panic.  One that follows a reader of suffixes finds the same values, and never
panics.
-/

namespace Wire

structure Cursor where
  buffer : Bytes
  pos : Nat

/-- A reader that moves a position: it panics, gives up, or finds a value. -/
abbrev CursorReader (α : Type) := StateT Cursor (OptionT (Except Fault)) α

/-- Give up when a condition holds. -/
def giveUpIf (condition : Prop) [Decidable condition] : CursorReader Unit :=
  if condition then failure else pure ()

/-- End with an answer that another computation has given. -/
def endWith {α : Type} (found : Except Fault (Option α)) : CursorReader α :=
  StateT.lift (OptionT.mk found)

/-- What stands in front of a cursor in a slice. -/
structure Cursor.Before (cursor : Cursor) (rest : Bytes) : Prop where
  stands : Stands cursor.buffer cursor.pos rest
  slice : cursor.buffer.length < sliceBound

namespace Cursor.Before

variable {cursor : Cursor} {part rest : Bytes}

theorem start {data : Bytes} (slice : data.length < sliceBound) :
    Cursor.Before ⟨data, 0⟩ data :=
  ⟨.start data, slice⟩

theorem shift (before : cursor.Before (part ++ rest)) :
    Cursor.Before ⟨cursor.buffer, cursor.pos + part.length⟩ rest :=
  ⟨before.stands.shift, before.slice⟩

theorem length_eq (before : cursor.Before rest) :
    cursor.buffer.length = cursor.pos + rest.length :=
  before.stands.length_eq

theorem remaining (before : cursor.Before rest) :
    cursor.buffer.length - cursor.pos = rest.length := by
  rw [before.length_eq, Nat.add_sub_cancel_left]

theorem length_lt (before : cursor.Before rest) : rest.length < sliceBound := by
  have whole := before.length_eq
  have slice := before.slice
  omega

theorem getElem? (before : cursor.Before rest) (n : Nat) :
    cursor.buffer[cursor.pos + n]? = rest[n]? := by
  obtain ⟨front, data, length⟩ := before.stands
  rw [data, ← length, List.getElem?_append_right (Nat.le_add_right _ _), Nat.add_sub_cancel_left]

/-- A position moved inside the buffer does not overflow. -/
theorem plus (before : cursor.Before (part ++ rest)) :
    Wire.plus cursor.pos part.length = .ok (cursor.pos + part.length) := by
  refine plus_of_le ?_ before.slice
  have whole := before.length_eq
  rw [List.length_append] at whole
  omega

end Cursor.Before

/-- A cursor reader that finds what a reader of suffixes finds, and leaves the same bytes. -/
structure Follows {α : Type} (steps : CursorReader α) (reader : Reader α) : Prop where
  gives_up : ∀ {cursor rest}, cursor.Before rest → reader rest = none →
    (steps.run cursor).run = .ok none
  finds : ∀ {cursor rest value left}, cursor.Before rest → reader rest = some (value, left) →
    ∃ moved : Cursor, (steps.run cursor).run = .ok (some (value, moved)) ∧ moved.Before left

namespace CursorReader

variable {α β : Type} {first : CursorReader α} {next : α → CursorReader β} {cursor moved : Cursor}

theorem run_pure (value : α) : ((pure value : CursorReader α).run cursor).run =
    .ok (some (value, cursor)) := rfl

theorem run_failure : ((failure : CursorReader α).run cursor).run = .ok none := rfl

theorem run_set : ((set moved : CursorReader PUnit).run cursor).run = .ok (some ((), moved)) := rfl

theorem run_get_bind {next : Cursor → CursorReader β} :
    ((get >>= next).run cursor).run = ((next cursor).run cursor).run := rfl

theorem run_set_bind {next : PUnit → CursorReader β} :
    ((set moved >>= next).run cursor).run = ((next ()).run moved).run := rfl

/-- A step that does not panic. -/
theorem run_ok_bind {step : Except Fault α} {value : α} (ok : step = .ok value) :
    (((liftM step : CursorReader α) >>= next).run cursor).run = ((next value).run cursor).run := by
  subst ok
  rfl

theorem bind_of_gives_up (gives_up : (first.run cursor).run = .ok none) :
    ((first >>= next).run cursor).run = .ok none := by
  change (OptionT.bind (first cursor) _).run = _
  rw [OptionT.bind, OptionT.run_mk, show first cursor = Except.ok none from gives_up]
  rfl

theorem bind_of_finds {value : α} (finds : (first.run cursor).run = .ok (some (value, moved))) :
    ((first >>= next).run cursor).run = ((next value).run moved).run := by
  change (OptionT.bind (first cursor) _).run = _
  rw [OptionT.bind, OptionT.run_mk, show first cursor = Except.ok (some (value, moved)) from finds]
  rfl

/-- What a reader finds, whatever it leaves unread. -/
def answer (steps : CursorReader α) (cursor : Cursor) : Except Fault (Option α) :=
  (StateT.run' steps cursor).run

theorem answer_eq (steps : CursorReader α) (cursor : Cursor) :
    steps.answer cursor = (steps.run cursor).run.map fun found => found.map Prod.fst := by
  change (OptionT.bind (steps cursor) _).run = _
  rw [OptionT.bind, OptionT.run_mk]
  change (steps.run cursor).run >>= _ = _
  rcases (steps.run cursor).run with fault | found
  · rfl
  · cases found <;> rfl

theorem answer_of_run {steps : CursorReader α} {found : Option (α × Cursor)}
    (run : (steps.run cursor).run = .ok found) :
    steps.answer cursor = .ok (found.map Prod.fst) := by
  rw [answer_eq, run]
  rfl

theorem answer_bind_of_finds {value : α}
    (finds : (first.run cursor).run = .ok (some (value, moved))) :
    (first >>= next).answer cursor = (next value).answer moved := by
  rw [answer_eq, answer_eq, bind_of_finds finds]

theorem answer_bind_of_gives_up (gives_up : (first.run cursor).run = .ok none) :
    (first >>= next).answer cursor = .ok none :=
  answer_of_run (bind_of_gives_up gives_up)

theorem answer_endWith (found : Except Fault (Option α)) :
    (endWith found).answer cursor = found := by
  rcases found with fault | found
  · rfl
  · cases found <;> rfl

end CursorReader

namespace Follows

variable {α β : Type}

theorem pure (value : α) : Follows (Pure.pure value) (Pure.pure value) where
  gives_up := fun _ none => by cases none
  finds := fun before some => by
    cases some
    exact ⟨_, rfl, before⟩

theorem bind {first : CursorReader α} {reader : Reader α} {next : α → CursorReader β}
    {later : α → Reader β} (follows : Follows first reader)
    (behind : ∀ value, Follows (next value) (later value)) :
    Follows (first >>= next) (reader >>= later) where
  gives_up := by
    intro cursor rest before unread
    cases reads : reader rest with
    | none => exact CursorReader.bind_of_gives_up (follows.gives_up before reads)
    | some found =>
        obtain ⟨moved, run, there⟩ := follows.finds before reads
        have none_behind : later found.1 found.2 = none := by
          rw [← unread]
          change _ = (reader rest).bind _
          rw [reads]
          rfl
        rw [CursorReader.bind_of_finds run]
        exact (behind found.1).gives_up there none_behind
  finds := by
    intro cursor rest value left before reads
    obtain ⟨⟨between, middle⟩, first_reads, next_reads⟩ := Option.bind_eq_some_iff.mp reads
    obtain ⟨moved, run, there⟩ := follows.finds before first_reads
    rw [CursorReader.bind_of_finds run]
    exact (behind between).finds there next_reads

theorem giveUpIf {condition : Prop} [Decidable condition] {required : Bool}
    (opposite : required = !decide condition) :
    Follows (giveUpIf condition) (require required) where
  gives_up := by
    subst opposite
    intro cursor rest before unread
    by_cases fails : condition
    · rw [Wire.giveUpIf, if_pos fails]
      rfl
    · simp [Wire.require, fails] at unread
  finds := by
    subst opposite
    intro cursor rest value left before reads
    by_cases fails : condition
    · simp [Wire.require, fails] at reads
    · simp only [Wire.require, fails, decide_false, Bool.not_false, if_true, Option.some.injEq,
        Prod.mk.injEq] at reads
      obtain ⟨-, rfl⟩ := reads
      rw [Wire.giveUpIf, if_neg fails]
      exact ⟨cursor, rfl, before⟩

end Follows

end Wire
