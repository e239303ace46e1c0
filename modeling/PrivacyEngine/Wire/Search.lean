import Mathlib.Data.List.Basic
import Mathlib.Data.List.Infix
import Mathlib.Data.Nat.Find

/-!
# First occurrence of a block

The first position at which a fixed block occurs in a list, over an arbitrary alphabet.  The
position is stable when the list is extended on the right and when it is cut behind the occurrence,
which is what a reader that receives the list piece by piece relies on.
-/

namespace Wire

variable {α : Type*} [DecidableEq α]

/-- Index of the first occurrence of `pat`. -/
def findSub (pat : List α) : List α → Option Nat
  | [] => if pat = [] then some 0 else none
  | x :: rest =>
      if pat.isPrefixOf (x :: rest) then some 0 else (findSub pat rest).map (· + 1)

/-- An occurrence index splits the list around the block, and no earlier index does. -/
theorem findSub_eq_some_iff {pat : List α} (pat_ne : pat ≠ []) {s : List α} {i : Nat} :
    findSub pat s = some i ↔ pat <+: s.drop i ∧ ∀ j < i, ¬ pat <+: s.drop j := by
  induction s generalizing i with
  | nil => simp [findSub, pat_ne]
  | cons x rest ih =>
      by_cases here : pat <+: x :: rest
      · rw [findSub, if_pos (List.isPrefixOf_iff_prefix.mpr here)]
        constructor
        · intro found
          obtain rfl := Option.some.inj found
          exact ⟨here, by simp⟩
        · rintro ⟨-, earlier⟩
          cases i with
          | zero => rfl
          | succ i => exact absurd here (earlier 0 (Nat.succ_pos i))
      · rw [findSub, if_neg (fun h => here (List.isPrefixOf_iff_prefix.mp h))]
        cases i with
        | zero => simp [here]
        | succ i =>
            simp only [Option.map_eq_some_iff, Nat.add_right_cancel_iff, exists_eq_right]
            rw [ih]
            constructor
            · rintro ⟨occurs, earlier⟩
              refine ⟨by simpa using occurs, fun j j_lt => ?_⟩
              cases j with
              | zero => simpa using here
              | succ j => simpa using earlier j (by omega)
            · rintro ⟨occurs, earlier⟩
              refine ⟨by simpa using occurs, fun j j_lt => ?_⟩
              simpa using earlier (j + 1) (by omega)

theorem findSub_bound {pat : List α} (pat_ne : pat ≠ []) {s : List α} {i : Nat}
    (found : findSub pat s = some i) : i + pat.length ≤ s.length := by
  have occurs := ((findSub_eq_some_iff pat_ne).mp found).1.length_le
  have pos := List.length_pos_iff.mpr pat_ne
  rw [List.length_drop] at occurs
  omega

/-- Cutting the list anywhere behind the first occurrence keeps it the first occurrence. -/
theorem findSub_take {pat : List α} (pat_ne : pat ≠ []) {s : List α} {i n : Nat}
    (found : findSub pat s = some i) (fits : i + pat.length ≤ n) :
    findSub pat (s.take n) = some i := by
  obtain ⟨occurs, earlier⟩ := (findSub_eq_some_iff pat_ne).mp found
  refine (findSub_eq_some_iff pat_ne).mpr ⟨?_, fun j j_lt occurs_j => ?_⟩
  · rw [List.drop_take]
    exact List.prefix_take_iff.mpr ⟨occurs, by omega⟩
  · rw [List.drop_take] at occurs_j
    exact earlier j j_lt (occurs_j.trans (List.take_prefix _ _))

/-- Extending the list keeps the first occurrence. -/
theorem findSub_append {pat : List α} (pat_ne : pat ≠ []) {s : List α} {i : Nat}
    (found : findSub pat s = some i) (t : List α) : findSub pat (s ++ t) = some i := by
  have bound := findSub_bound pat_ne found
  obtain ⟨occurs, earlier⟩ := (findSub_eq_some_iff pat_ne).mp found
  refine (findSub_eq_some_iff pat_ne).mpr ⟨?_, fun j j_lt occurs_j => ?_⟩
  · rw [List.drop_append_of_le_length (by omega)]
    exact occurs.trans (List.prefix_append _ _)
  · have pos := List.length_pos_iff.mpr pat_ne
    rw [List.drop_append_of_le_length (by omega)] at occurs_j
    refine earlier j j_lt (List.prefix_of_prefix_length_le occurs_j (List.prefix_append _ _) ?_)
    rw [List.length_drop]
    omega

/-- A search succeeds exactly when the pattern occurs. -/
theorem isSome_findSub_iff {pat : List α} (pat_ne : pat ≠ []) {s : List α} :
    (findSub pat s).isSome = true ↔ pat <:+: s := by
  rw [Option.isSome_iff_exists]
  constructor
  · rintro ⟨i, found⟩
    obtain ⟨occurs, -⟩ := (findSub_eq_some_iff pat_ne).mp found
    exact occurs.isInfix.trans (List.drop_suffix i s).isInfix
  · rintro ⟨front, back, rfl⟩
    have occurs : ∃ i, pat <+: (front ++ pat ++ back).drop i := by
      refine ⟨front.length, ?_⟩
      rw [List.append_assoc, List.drop_left]
      exact List.prefix_append _ _
    classical
    exact ⟨Nat.find occurs, (findSub_eq_some_iff pat_ne).mpr
      ⟨Nat.find_spec occurs, fun j early => Nat.find_min occurs early⟩⟩

omit [DecidableEq α] in
/-- An occurrence does not cross a symbol it lacks. -/
theorem infix_append_cons {pat x y : List α} {c : α} (lacks : c ∉ pat)
    (occurs : pat <:+: x ++ c :: y) : pat <:+: x ∨ pat <:+: y := by
  obtain ⟨front, back, eq⟩ := occurs
  rcases List.append_eq_append_iff.mp eq with ⟨gap, rfl, rest⟩ | ⟨gap, eq', rest⟩
  · exact .inl ⟨front, gap, rfl⟩
  · cases gap with
    | nil => exact .inl ⟨front, [], by simpa using eq'⟩
    | cons d gap =>
        obtain ⟨rfl, rfl⟩ := List.cons.inj rest
        rcases List.append_eq_append_iff.mp eq' with ⟨gap', rfl, rest'⟩ | ⟨gap', rfl, rest'⟩
        · exact absurd (by rw [rest']; simp) lacks
        · cases gap' with
          | nil =>
              rw [List.nil_append] at rest'
              exact absurd (by rw [← rest']; simp) lacks
          | cons d' gap' =>
              obtain ⟨rfl, rfl⟩ := List.cons.inj rest'
              exact .inr ⟨gap', back, rfl⟩

end Wire
