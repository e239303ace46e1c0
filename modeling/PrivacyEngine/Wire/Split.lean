import Mathlib.Data.List.Basic
import Mathlib.Data.List.Infix
import Mathlib.Algebra.Order.BigOperators.Group.List
import Mathlib.Algebra.Order.Ring.Nat

/-!
# Splitting on a two-symbol separator

`splitPair a b` cuts a list at the non-overlapping occurrences of the block `a b`, from the left;
`joinPair a b` puts the separator back.  The two are inverse on lists of pieces that do not contain
the separator, provided its two symbols differ.
-/

namespace Wire

variable {α : Type*}

/-- Concatenate pieces with the separator `a b` between neighbours. -/
def joinPair (a b : α) : List (List α) → List α
  | [] => []
  | [p] => p
  | p :: q :: rest => p ++ a :: b :: joinPair a b (q :: rest)

theorem joinPair_cons {a b : α} (p : List α) {ps : List (List α)} (ps_ne : ps ≠ []) :
    joinPair a b (p :: ps) = p ++ a :: b :: joinPair a b ps := by
  cases ps with
  | nil => exact absurd rfl ps_ne
  | cons q rest => rfl

theorem joinPair_append (a b : α) {ps qs : List (List α)} (ps_ne : ps ≠ []) (qs_ne : qs ≠ []) :
    joinPair a b (ps ++ qs) = joinPair a b ps ++ a :: b :: joinPair a b qs := by
  induction ps with
  | nil => exact absurd rfl ps_ne
  | cons p ps ih =>
      rw [List.cons_append, joinPair_cons p (by simp [qs_ne])]
      cases ps with
      | nil => rfl
      | cons q rest =>
          rw [ih (List.cons_ne_nil q rest), joinPair_cons p (List.cons_ne_nil q rest)]
          simp

theorem joinPair_prefix_append (a b : α) (ps qs : List (List α)) :
    joinPair a b ps <+: joinPair a b (ps ++ qs) := by
  by_cases ps_ne : ps = []
  · subst ps_ne
    exact List.nil_prefix
  · by_cases qs_ne : qs = []
    · simp [qs_ne]
    · rw [joinPair_append a b ps_ne qs_ne]
      exact List.prefix_append _ _

/-- Every piece occurs in the joined list. -/
theorem infix_joinPair {a b : α} {p : List α} {ps : List (List α)} (mem : p ∈ ps) :
    p <:+: joinPair a b ps := by
  induction ps with
  | nil => cases mem
  | cons q qs ih =>
      rcases List.mem_cons.mp mem with rfl | later
      · exact (joinPair_prefix_append a b [p] qs).isInfix
      · rw [joinPair_cons q (List.ne_nil_of_mem later)]
        exact (ih later).trans ⟨q ++ [a, b], [], by simp⟩

variable [DecidableEq α]

/-- Cut at every occurrence of the separator `a b`. -/
def splitPair (a b : α) : List α → List (List α)
  | [] => [[]]
  | [x] => [[x]]
  | x :: y :: rest =>
      if x = a ∧ y = b then [] :: splitPair a b rest
      else (splitPair a b (y :: rest)).modifyHead (x :: ·)

/-- A list in which `a` is never directly followed by `b`. -/
def PairFree (a b : α) : List α → Prop
  | [] => True
  | [_] => True
  | x :: y :: rest => ¬ (x = a ∧ y = b) ∧ PairFree a b (y :: rest)

instance PairFree.decidable (a b : α) : (s : List α) → Decidable (PairFree a b s)
  | [] => isTrue trivial
  | [_] => isTrue trivial
  | x :: y :: rest =>
      have := PairFree.decidable a b (y :: rest)
      inferInstanceAs (Decidable (¬ (x = a ∧ y = b) ∧ PairFree a b (y :: rest)))

theorem splitPair_ne_nil (a b : α) (s : List α) : splitPair a b s ≠ [] := by
  induction s using splitPair.induct a b with
  | case1 => simp [splitPair]
  | case2 x => simp [splitPair]
  | case3 x y rest hit ih => simp [splitPair, hit]
  | case4 x y rest miss ih =>
      rw [splitPair, if_neg miss]
      cases pieces : splitPair a b (y :: rest) with
      | nil => exact absurd pieces ih
      | cons p ps => simp

/-- Putting the separator back recovers the list. -/
theorem joinPair_splitPair (a b : α) (s : List α) : joinPair a b (splitPair a b s) = s := by
  induction s using splitPair.induct a b with
  | case1 => rfl
  | case2 x => rfl
  | case3 x y rest hit ih =>
      obtain ⟨rfl, rfl⟩ := hit
      rw [splitPair, if_pos ⟨rfl, rfl⟩, joinPair_cons _ (splitPair_ne_nil _ _ _), ih]
      rfl
  | case4 x y rest miss ih =>
      rw [splitPair, if_neg miss]
      cases pieces : splitPair a b (y :: rest) with
      | nil => exact absurd pieces (splitPair_ne_nil _ _ _)
      | cons p ps =>
          rw [pieces] at ih
          cases ps with
          | nil => simpa [joinPair] using ih
          | cons q qs => simpa [joinPair] using ih

/-- The first piece begins where the list begins: its head is the head of the list. -/
theorem splitPair_head_cons {a b y : α} {rest p : List α} {ps : List (List α)}
    (pieces : splitPair a b (y :: rest) = p :: ps) : p = [] ∨ ∃ tail, p = y :: tail := by
  cases rest with
  | nil =>
      simp only [splitPair, List.cons.injEq] at pieces
      exact Or.inr ⟨[], pieces.1.symm⟩
  | cons z rest =>
      rw [splitPair] at pieces
      split at pieces
      · simp only [List.cons.injEq] at pieces
        exact Or.inl pieces.1.symm
      · cases inner : splitPair a b (z :: rest) with
        | nil => exact absurd inner (splitPair_ne_nil _ _ _)
        | cons q qs =>
            rw [inner] at pieces
            simp only [List.modifyHead_cons, List.cons.injEq] at pieces
            exact Or.inr ⟨q, pieces.1.symm⟩

/-- No piece contains the separator. -/
theorem pairFree_of_mem_splitPair {a b : α} {s p : List α} (mem : p ∈ splitPair a b s) :
    PairFree a b p := by
  induction s using splitPair.induct a b generalizing p with
  | case1 =>
      simp only [splitPair, List.mem_singleton] at mem
      subst mem
      trivial
  | case2 x =>
      simp only [splitPair, List.mem_singleton] at mem
      subst mem
      trivial
  | case3 x y rest hit ih =>
      rw [splitPair, if_pos hit, List.mem_cons] at mem
      rcases mem with rfl | mem
      · trivial
      · exact ih mem
  | case4 x y rest miss ih =>
      rw [splitPair, if_neg miss] at mem
      cases pieces : splitPair a b (y :: rest) with
      | nil => exact absurd pieces (splitPair_ne_nil _ _ _)
      | cons q qs =>
          rw [pieces, List.modifyHead_cons, List.mem_cons] at mem
          rcases mem with rfl | mem
          · have free : PairFree a b q := ih (by rw [pieces]; exact List.mem_cons_self)
            rcases splitPair_head_cons pieces with rfl | ⟨tail, rfl⟩
            · trivial
            · exact ⟨miss, free⟩
          · exact ih (by rw [pieces]; exact List.mem_cons_of_mem _ mem)

/-- A separator-free piece is cut off exactly at the separator that follows it. -/
theorem splitPair_append {a b : α} (ne : a ≠ b) {p : List α} (free : PairFree a b p)
    (rest : List α) : splitPair a b (p ++ a :: b :: rest) = p :: splitPair a b rest := by
  induction p with
  | nil => simp [splitPair]
  | cons x p ih =>
      cases p with
      | nil =>
          have miss : ¬ (x = a ∧ a = b) := fun h => ne h.2
          simp [splitPair, ne]
      | cons y p =>
          obtain ⟨miss, free⟩ := free
          have tail := ih free
          simp only [List.cons_append] at tail ⊢
          rw [splitPair, if_neg miss, tail]
          rfl

theorem splitPair_of_pairFree {a b : α} {p : List α} (free : PairFree a b p) :
    splitPair a b p = [p] := by
  induction p with
  | nil => rfl
  | cons x p ih =>
      cases p with
      | nil => rfl
      | cons y p =>
          obtain ⟨miss, free⟩ := free
          rw [splitPair, if_neg miss, ih free]
          rfl

/-- Splitting what was joined recovers the pieces, and a list behind a final separator follows. -/
theorem splitPair_joinPair_append {a b : α} (ne : a ≠ b) {ps : List (List α)} (ps_ne : ps ≠ [])
    (free : ∀ p ∈ ps, PairFree a b p) (rest : List α) :
    splitPair a b (joinPair a b ps ++ a :: b :: rest) = ps ++ splitPair a b rest := by
  induction ps with
  | nil => exact absurd rfl ps_ne
  | cons p ps ih =>
      have free_p := free p List.mem_cons_self
      cases ps with
      | nil => simpa [joinPair] using splitPair_append ne free_p rest
      | cons q qs =>
          have tail := ih (by simp) fun r r_mem => free r (List.mem_cons_of_mem _ r_mem)
          rw [joinPair, List.append_assoc, List.cons_append, List.cons_append,
            splitPair_append ne free_p, tail]
          rfl

/-- Splitting what was joined recovers the pieces. -/
theorem splitPair_joinPair {a b : α} (ne : a ≠ b) {ps : List (List α)} (ps_ne : ps ≠ [])
    (free : ∀ p ∈ ps, PairFree a b p) : splitPair a b (joinPair a b ps) = ps := by
  induction ps with
  | nil => exact absurd rfl ps_ne
  | cons p ps ih =>
      have free_p := free p List.mem_cons_self
      cases ps with
      | nil => exact splitPair_of_pairFree free_p
      | cons q qs =>
          have tail := ih (by simp) fun r r_mem => free r (List.mem_cons_of_mem _ r_mem)
          rw [joinPair, splitPair_append ne free_p, tail]

/-- Every separator of a list is a cut. -/
theorem splitPair_cut {a b : α} (ne : a ≠ b) (left right : List α) :
    splitPair a b (left ++ a :: b :: right) = splitPair a b left ++ splitPair a b right := by
  have cut := splitPair_joinPair_append ne (splitPair_ne_nil a b left)
    (fun p mem => pairFree_of_mem_splitPair mem) right
  rwa [joinPair_splitPair] at cut

omit [DecidableEq α] in
theorem pairFree_iff {a b : α} {s : List α} :
    PairFree a b s ↔ ∀ left right, s ≠ left ++ a :: b :: right := by
  induction s with
  | nil => simp [PairFree]
  | cons x s ih =>
      cases s with
      | nil =>
          refine iff_of_true trivial fun left right eq => ?_
          have length_eq := congrArg List.length eq
          simp only [List.length_append, List.length_cons, List.length_nil] at length_eq
          omega
      | cons y s =>
          rw [PairFree, ih]
          constructor
          · rintro ⟨miss, free⟩ left right eq
            cases left with
            | nil =>
                simp only [List.nil_append, List.cons.injEq] at eq
                exact miss ⟨eq.1, eq.2.1⟩
            | cons z left => exact free left right (List.cons.inj eq).2
          · intro free
            refine ⟨?_, fun left right eq => free (x :: left) right (by rw [eq]; rfl)⟩
            rintro ⟨rfl, rfl⟩
            exact free [] s rfl

omit [DecidableEq α] in
theorem length_joinPair (a b : α) {ps : List (List α)} (ps_ne : ps ≠ []) :
    (joinPair a b ps).length + 2 = (ps.map (·.length + 2)).sum := by
  induction ps with
  | nil => exact absurd rfl ps_ne
  | cons p ps ih =>
      cases ps with
      | nil => simp [joinPair]
      | cons q rest =>
          have later := ih (List.cons_ne_nil q rest)
          rw [joinPair, List.map_cons, List.sum_cons, ← later]
          simp only [List.length_append, List.length_cons]
          omega

omit [DecidableEq α] in
theorem length_intercalate_singleton (sep : α) {ps : List (List α)} (ps_ne : ps ≠ []) :
    ([sep].intercalate ps).length + 1 = (ps.map (·.length + 1)).sum := by
  induction ps with
  | nil => exact absurd rfl ps_ne
  | cons p ps ih =>
      cases ps with
      | nil => simp
      | cons q rest =>
          have later := ih (List.cons_ne_nil q rest)
          rw [List.map_cons, List.sum_cons, ← later]
          simp only [List.intercalate_cons_cons, List.length_append, List.length_cons,
            List.length_nil]
          omega

omit [DecidableEq α] in
/-- A property that is decided independently on both sides of a separator holds of joined pieces
exactly when it holds of each. -/
theorem forall_intercalate {holds : List α → Prop} {sep : α}
    (cuts : ∀ x y, holds (x ++ sep :: y) ↔ holds x ∧ holds y) {ps : List (List α)}
    (ps_ne : ps ≠ []) :
    holds ([sep].intercalate ps) ↔ ∀ p ∈ ps, holds p := by
  induction ps with
  | nil => exact absurd rfl ps_ne
  | cons p ps ih =>
      cases ps with
      | nil => simp
      | cons q rest =>
          rw [List.intercalate_cons_cons, List.append_assoc, List.singleton_append, cuts,
            ih (List.cons_ne_nil q rest), List.forall_mem_cons (l := q :: rest)]

/-- Removing an element of positive weight makes a sum smaller. -/
theorem sum_map_filter_lt {β : Type*} {keep : β → Bool} {weight : β → Nat} {l : List β} {x : β}
    (mem : x ∈ l) (removed : keep x = false) (pos : 0 < weight x) :
    ((l.filter keep).map weight).sum < (l.map weight).sum := by
  induction l with
  | nil => cases mem
  | cons y l ih =>
      have tail_le : ((l.filter keep).map weight).sum ≤ (l.map weight).sum :=
        (List.filter_sublist.map weight).sum_le_sum fun _ _ => Nat.zero_le _
      rcases List.mem_cons.mp mem with rfl | mem
      · simp only [List.filter_cons, removed, Bool.false_eq_true, if_false, List.map_cons,
          List.sum_cons]
        omega
      · have smaller := ih mem
        rw [List.filter_cons]
        split <;> simp only [List.map_cons, List.sum_cons] <;> omega

omit [DecidableEq α] in
theorem infix_intercalate {sep p : List α} {ps : List (List α)} (mem : p ∈ ps) :
    p <:+: sep.intercalate ps := by
  induction ps with
  | nil => cases mem
  | cons q ps ih =>
      cases ps with
      | nil =>
          obtain rfl := List.mem_singleton.mp mem
          exact ⟨[], [], by simp⟩
      | cons next rest =>
          have cut : sep.intercalate (q :: next :: rest) =
              q ++ (sep ++ sep.intercalate (next :: rest)) := by
            simp [List.intercalate]
          rw [cut]
          rcases List.mem_cons.mp mem with rfl | later
          · exact (List.prefix_append _ _).isInfix
          · have behind := (List.suffix_append sep (sep.intercalate (next :: rest))).isInfix
            exact (ih later).trans (behind.trans (List.suffix_append _ _).isInfix)

/-- A piece between separators does not contain the separator. -/
theorem not_mem_of_mem_splitOn {sep : α} {s piece : List α} (mem : piece ∈ s.splitOn sep) :
    sep ∉ piece := by
  induction s generalizing piece with
  | nil =>
      obtain rfl : piece = [] := by simpa using mem
      simp
  | cons x s ih =>
      rw [List.splitOn_cons_eq_if_modifyHead] at mem
      split at mem
      · rcases List.mem_cons.mp mem with rfl | mem
        · simp
        · exact ih mem
      · rename_i other
        have ne : x ≠ sep := by simpa using other
        cases pieces : s.splitOn sep with
        | nil => simp [pieces] at mem
        | cons first rest =>
            rw [pieces] at ih mem
            rcases List.mem_cons.mp mem with rfl | mem
            · simp [ne.symm, ih List.mem_cons_self]
            · exact ih (List.mem_cons_of_mem _ mem)

end Wire
