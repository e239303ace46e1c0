import Mathlib.Algebra.Ring.Nat
import Mathlib.Data.List.Basic
import Mathlib.Data.List.Induction

/-!
# Tables with retention

A table counts how often each key is touched and when it was touched last, and from time to time
drops the entries that are stale by then.  What a table holds for a key is read off the sequence of
its operations.  A prune that comes late enough leaves exactly the keys whose last touch is fresh;
as long as no prune finds a key stale, the table has counted all of its touches.
-/

namespace Retention

/-- Operations on a table with keys `κ` and times `τ`. -/
inductive Op (κ τ : Type*) where
  | touch (key : κ) (time : τ)
  | prune (now : τ)
  deriving DecidableEq

/-- What a table holds for a key. -/
@[ext] structure Entry (τ : Type*) where
  count : Nat
  last : τ
  deriving DecidableEq

variable {κ τ : Type*} [DecidableEq κ]

/-- The effect of an operation on the entry of a key. -/
def apply (stale : τ → τ → Bool) (key : κ) (held : Option (Entry τ)) : Op κ τ → Option (Entry τ)
  | .touch other time => if other = key then some ⟨held.elim 0 Entry.count + 1, time⟩ else held
  | .prune now => held.filter fun entry => !stale now entry.last

/-- What the table holds for a key behind some operations. -/
def held (stale : τ → τ → Bool) (key : κ) (ops : List (Op κ τ)) : Option (Entry τ) :=
  ops.foldl (apply stale key) none

/-- The time an operation touches a key at. -/
def Op.touches (key : κ) : Op κ τ → Option τ
  | .touch other time => if other = key then some time else none
  | .prune _ => none

/-- The key an operation touches. -/
def Op.touched : Op κ τ → Option κ
  | .touch key _ => some key
  | .prune _ => none

/-- The time an operation prunes at. -/
def Op.prunes : Op κ τ → Option τ
  | .touch _ _ => none
  | .prune now => some now

/-- Times a key is touched at. -/
def touches (key : κ) (ops : List (Op κ τ)) : List τ := ops.filterMap (Op.touches key)

/-- Keys in the order they are touched. -/
def touched (ops : List (Op κ τ)) : List κ := ops.filterMap Op.touched

/-- Times the table is pruned at. -/
def prunes (ops : List (Op κ τ)) : List τ := ops.filterMap Op.prunes

variable {stale : τ → τ → Bool} {key : κ} {ops : List (Op κ τ)}

theorem held_snoc (ops : List (Op κ τ)) (op : Op κ τ) :
    held stale key (ops ++ [op]) = apply stale key (held stale key ops) op :=
  List.foldl_append ..

@[simp] theorem touches_append (ops more : List (Op κ τ)) :
    touches key (ops ++ more) = touches key ops ++ touches key more := List.filterMap_append

omit [DecidableEq κ] in
@[simp] theorem touched_append (ops more : List (Op κ τ)) :
    touched (ops ++ more) = touched ops ++ touched more := List.filterMap_append

omit [DecidableEq κ] in
@[simp] theorem prunes_append (ops more : List (Op κ τ)) :
    prunes (ops ++ more) = prunes ops ++ prunes more := List.filterMap_append

theorem length_touches [BEq κ] [LawfulBEq κ] (key : κ) (ops : List (Op κ τ)) :
    (touches key ops).length = (touched ops).count key := by
  induction ops with
  | nil => rfl
  | cons op ops ih =>
      cases op with
      | prune now => simpa [touches, touched, Op.touches, Op.touched, List.filterMap_cons] using ih
      | touch other time =>
          by_cases same : other = key
          · simpa [touches, touched, Op.touches, Op.touched, same] using ih
          · simpa [touches, touched, Op.touches, Op.touched, same] using ih

/-- An entry has counted some touches of its key, the last one among them. -/
theorem held_spec {entry : Entry τ} (holds : held stale key ops = some entry) :
    1 ≤ entry.count ∧ entry.count ≤ (touches key ops).length ∧
      (touches key ops).getLast? = some entry.last := by
  induction ops using List.reverseRecOn generalizing entry with
  | nil => cases holds
  | append_singleton ops op ih =>
      rw [held_snoc] at holds
      cases op with
      | touch other time =>
          rw [apply] at holds
          split at holds
          · rename_i same
            cases holds
            have last : touches key [.touch other time] = [time] := by
              simp [touches, Op.touches, same]
            refine ⟨Nat.le_add_left 1 _, ?_, by rw [touches_append, last, List.getLast?_concat]⟩
            rw [touches_append, last, List.length_append, List.length_singleton]
            cases before : held stale key ops with
            | none => simp
            | some entry => exact Nat.succ_le_succ (ih before).2.1
          · rename_i other_key
            have silent : touches key [.touch other time] = [] := by
              simp [touches, Op.touches, other_key]
            rw [touches_append, silent, List.append_nil]
            exact ih holds
      | prune now =>
          obtain ⟨before, -⟩ := Option.filter_eq_some_iff.mp holds
          have silent : touches key [Op.prune (κ := κ) now] = [] := rfl
          rw [touches_append, silent, List.append_nil]
          exact ih before

/-- A key without an entry has never been touched, or some prune has found its last touch stale. -/
theorem stale_of_not_held (missing : held stale key ops = none) {last : τ}
    (touch : (touches key ops).getLast? = some last) :
    ∃ earlier ∈ prunes ops, stale earlier last = true := by
  induction ops using List.reverseRecOn with
  | nil => cases touch
  | append_singleton ops op ih =>
      rw [held_snoc] at missing
      cases op with
      | touch other time =>
          rw [apply] at missing
          split at missing
          · cases missing
          · rename_i other_key
            have silent : touches key [.touch other time] = [] := by
              simp [touches, Op.touches, other_key]
            rw [touches_append, silent, List.append_nil] at touch
            obtain ⟨earlier, mem, found⟩ := ih missing touch
            exact ⟨earlier, by rw [prunes_append]; exact List.mem_append_left _ mem, found⟩
      | prune now =>
          have none : touches key [Op.prune now] = [] := rfl
          rw [touches_append, none, List.append_nil] at touch
          cases before : held stale key ops with
          | none =>
              obtain ⟨earlier, mem, found⟩ := ih before touch
              exact ⟨earlier, by rw [prunes_append]; exact List.mem_append_left _ mem, found⟩
          | some entry =>
              have same := (held_spec before).2.2
              rw [touch] at same
              obtain rfl := Option.some.inj same
              rw [before, apply, Option.filter_eq_none_iff] at missing
              exact ⟨now, by simp [prunes, Op.prunes], by simpa using missing _ rfl⟩

/-- A prune at which everything is stale that an earlier prune found stale leaves exactly the keys
whose last touch is fresh. -/
theorem isSome_held_prune {now : τ}
    (latest : ∀ earlier ∈ prunes ops, ∀ last, stale earlier last = true → stale now last = true) :
    (held stale key (ops ++ [.prune now])).isSome = true ↔
      ∃ last, (touches key ops).getLast? = some last ∧ stale now last = false := by
  rw [held_snoc, apply]
  cases holds : held stale key ops with
  | none =>
      refine iff_of_false (by simp) ?_
      rintro ⟨last, touch, fresh⟩
      obtain ⟨earlier, mem, found⟩ := stale_of_not_held holds touch
      exact absurd (fresh.symm.trans (latest earlier mem last found)) Bool.noConfusion
  | some entry =>
      have touch := (held_spec holds).2.2
      rw [touch]
      cases found : stale now entry.last <;> simp [Option.filter, found]

/-- A table that no prune finds stale counts every touch. -/
theorem held_of_fresh
    (fresh : ∀ now ∈ prunes ops, ∀ last ∈ touches key ops, stale now last = false) :
    held stale key ops =
      (touches key ops).getLast?.map fun last => ⟨(touches key ops).length, last⟩ := by
  induction ops using List.reverseRecOn with
  | nil => rfl
  | append_singleton ops op ih =>
      rw [prunes_append, touches_append] at fresh
      have before := ih fun now mem last touch =>
        fresh now (List.mem_append_left _ mem) last (List.mem_append_left _ touch)
      rw [held_snoc, before, touches_append]
      cases op with
      | touch other time =>
          rw [apply]
          split
          · rename_i same
            have last : touches key [.touch other time] = [time] := by
              simp [touches, Op.touches, same]
            rw [last, List.getLast?_concat, List.length_append, List.length_singleton]
            cases earlier : touches key ops using List.reverseRecOn <;> simp
          · rename_i other_key
            have silent : touches key [.touch other time] = [] := by
              simp [touches, Op.touches, other_key]
            rw [silent, List.append_nil]
      | prune now =>
          have silent : touches key [Op.prune now] = [] := rfl
          rw [silent, List.append_nil, apply]
          cases touch : (touches key ops).getLast? with
          | none => rfl
          | some last =>
              have kept := fresh now (by simp [prunes, Op.prunes]) last
                (List.mem_append_left _ (List.mem_of_getLast? touch))
              simp [Option.filter, kept]

/-- Counts of different keys add up to at most the number of touches. -/
theorem sum_counts_le {keys : List κ} (distinct : keys.Nodup) (ops : List (Op κ τ)) :
    (keys.map fun key => (touches key ops).length).sum ≤ (touched ops).length := by
  simp only [length_touches]
  generalize touched ops = log
  induction keys generalizing log with
  | nil => exact Nat.zero_le _
  | cons key keys ih =>
      obtain ⟨fresh, distinct⟩ := List.nodup_cons.mp distinct
      have others : (keys.map fun other => log.count other) =
          keys.map fun other => (log.filter (· ≠ key)).count other := by
        refine List.map_congr_left fun other mem => ?_
        have differs : other ≠ key := fun same => fresh (same ▸ mem)
        rw [List.count_filter (by simpa using differs)]
      have split : log.length = log.count key + (log.filter (· ≠ key)).length := by
        rw [List.length_eq_countP_add_countP (· == key), List.count, ← List.countP_eq_length_filter]
        congr 2
        funext other
        simp
      rw [List.map_cons, List.sum_cons, others, split]
      exact Nat.add_le_add_left (ih distinct _) _

end Retention
