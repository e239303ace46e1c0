import Mathlib.Data.List.Basic
import Mathlib.Logic.Function.Basic

/-!
# Settings read one after the other

A value for every key starts as a default and is replaced where a reader finds the key set.  Keys
are read in the order of a list, and the first one that cannot be read ends the reading.  With
distinct keys each setting is decided by its own key alone, whatever the others are.
-/

namespace Settings

variable {κ ε : Type} [DecidableEq κ] {Value : κ → Type}

/-- The values with one key replaced, if it is set. -/
def assign (values : ∀ key, Value key) (key : κ) : Option (Value key) → ∀ key, Value key
  | none => values
  | some value => Function.update values key value

/-- Read the keys of a list over the values that hold so far. -/
def readAll (read : ∀ key, Except ε (Option (Value key))) :
    List κ → (∀ key, Value key) → Except ε (∀ key, Value key)
  | [], values => .ok values
  | key :: keys, values =>
      match read key with
      | .error error => .error error
      | .ok found => readAll read keys (assign values key found)

section Assign

variable (values : ∀ key, Value key) {key other : κ} (found : Option (Value key))

theorem assign_self : assign values key found key = found.getD (values key) := by
  cases found with
  | none => rfl
  | some value => exact Function.update_self ..

theorem assign_of_ne (ne : other ≠ key) : assign values key found other = values other := by
  cases found with
  | none => rfl
  | some value => exact Function.update_of_ne ne ..

end Assign

variable {read : ∀ key, Except ε (Option (Value key))} {keys : List κ}
  {values result : ∀ key, Value key}

theorem readAll_cons_eq_ok_iff {key : κ} :
    readAll read (key :: keys) values = .ok result ↔
      ∃ found, read key = .ok found ∧ readAll read keys (assign values key found) = .ok result := by
  rw [readAll]
  cases read key with
  | error error => simp
  | ok found => simp

/-- The values of a successful reading: a key of the list has what it is set to, if it is set, and
all other keys keep their value. -/
theorem readAll_eq_ok_iff (distinct : keys.Nodup) :
    readAll read keys values = .ok result ↔
      (∀ key ∈ keys, ∃ found, read key = .ok found ∧ result key = found.getD (values key)) ∧
        ∀ key ∉ keys, result key = values key := by
  induction keys generalizing values with
  | nil =>
      constructor
      · rintro ⟨⟩
        exact ⟨List.forall_mem_nil _, fun _ _ => rfl⟩
      · rintro ⟨-, same⟩
        rw [readAll, funext fun key => same key List.not_mem_nil]
  | cons key keys ih =>
      obtain ⟨fresh, distinct⟩ := List.nodup_cons.mp distinct
      have others : ∀ {other}, other ∈ keys → other ≠ key := fun mem same => fresh (same ▸ mem)
      rw [readAll_cons_eq_ok_iff, List.forall_mem_cons]
      constructor
      · rintro ⟨found, here, rest⟩
        obtain ⟨each, kept⟩ := (ih distinct).mp rest
        refine ⟨⟨⟨found, here, (kept key fresh).trans (assign_self ..)⟩, fun other mem => ?_⟩, ?_⟩
        · obtain ⟨value, reads, same⟩ := each other mem
          rw [assign_of_ne values found (others mem)] at same
          exact ⟨value, reads, same⟩
        · intro other absent
          rw [List.mem_cons, not_or] at absent
          rw [kept other absent.2, assign_of_ne values found absent.1]
      · rintro ⟨⟨⟨found, here, same⟩, each⟩, kept⟩
        refine ⟨found, here, (ih distinct).mpr ⟨fun other mem => ?_, fun other absent => ?_⟩⟩
        · rw [assign_of_ne values found (others mem)]
          exact each other mem
        · by_cases first : other = key
          · subst first
            rw [same, assign_self]
          · rw [assign_of_ne values found first]
            exact kept other fun mem => (List.mem_cons.mp mem).elim first absent

/-- A reading that fails does so at the first key that cannot be read. -/
theorem readAll_eq_error_iff {error : ε} :
    readAll read keys values = .error error ↔
      ∃ front key back, keys = front ++ key :: back ∧
        (∀ other ∈ front, ∃ found, read other = .ok found) ∧ read key = .error error := by
  induction keys generalizing values with
  | nil => simp [readAll]
  | cons first keys ih =>
      rw [readAll]
      cases here : read first with
      | error wrong =>
          constructor
          · rintro ⟨⟩
            exact ⟨[], first, keys, rfl, List.forall_mem_nil _, here⟩
          · rintro ⟨front, key, back, split, readable, fails⟩
            rcases List.cons_eq_append_iff.mp split with ⟨rfl, same⟩ | ⟨front, rfl, -⟩
            · cases same
              cases here.symm.trans fails
              rfl
            · obtain ⟨found, reads⟩ := readable first List.mem_cons_self
              cases here.symm.trans reads
      | ok found =>
          dsimp only
          rw [ih]
          constructor
          · rintro ⟨front, key, back, rfl, readable, fails⟩
            exact ⟨first :: front, key, back, rfl,
              List.forall_mem_cons.mpr ⟨⟨found, here⟩, readable⟩, fails⟩
          · rintro ⟨front, key, back, split, readable, fails⟩
            rcases List.cons_eq_append_iff.mp split with ⟨rfl, same⟩ | ⟨front, rfl, rest⟩
            · cases same
              cases here.symm.trans fails
            · exact ⟨front, key, back, rest, (List.forall_mem_cons.mp readable).2, fails⟩

end Settings
