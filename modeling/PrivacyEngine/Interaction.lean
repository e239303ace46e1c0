import Mathlib.Data.List.Basic
import Mathlib.Data.List.Induction

/-!
# Programs that act on their surroundings

A program performs operations one at a time and goes on with their answers, which are chosen by the
surroundings.  A monitor follows the operations of a program and may forbid some.  A program meets a
postcondition under a monitor when it is never stopped and ends as the condition says; the rules for
this are those of weakest preconditions.  Programs that run side by side are each followed by a
monitor of their own, whatever the order of their turns.  The monitor that remembers everything
allows an operation by what has been done before it.
-/

namespace Interaction

inductive Program (Op : Type) (Answer : Op → Type) (α : Type) where
  | done (value : α)
  | act (op : Op) (next : Answer op → Program Op Answer α)

/-- An operation and its answer. -/
abbrev Event (Op : Type) (Answer : Op → Type) : Type := Σ op, Answer op

variable {Op : Type} {Answer : Op → Type} {α β ε σ : Type}

namespace Program

def bind : Program Op Answer α → (α → Program Op Answer β) → Program Op Answer β
  | .done value, later => later value
  | .act op next, later => .act op fun answer => bind (next answer) later

instance monad : Monad (Program Op Answer) where
  pure := .done
  bind := bind

/-- The program of one operation. -/
def perform (op : Op) : Program Op Answer (Answer op) := .act op .done

/-- Perform one operation for each item of a list. -/
def performAll {ι : Type} (op : ι → Op) : List ι → Program Op Answer Unit
  | [] => .done ()
  | item :: items => .act (op item) fun _ => performAll op items

/-- The program is never stopped by the monitor and ends in a state that the condition allows. -/
def Meets (watch : σ → (op : Op) → Answer op → Option σ) (post : σ → α → Prop) :
    σ → Program Op Answer α → Prop
  | s, .done value => post s value
  | s, .act op next => ∀ answer, ∃ later ∈ watch s op answer, Meets watch post later (next answer)

variable {watch : σ → (op : Op) → Answer op → Option σ}

section Rules

variable {s : σ} {post weaker : σ → α → Prop}

/-- The rule of consequence. -/
theorem Meets.mono {program : Program Op Answer α} (meets : Meets watch post s program)
    (weakens : ∀ s value, post s value → weaker s value) : Meets watch weaker s program := by
  induction program generalizing s with
  | done value => exact weakens s value meets
  | act op next ih =>
      intro answer
      obtain ⟨later, allowed, rest⟩ := meets answer
      exact ⟨later, allowed, ih answer rest⟩

/-- The rule of sequence. -/
theorem meets_bind {program : Program Op Answer α} {later : α → Program Op Answer β}
    {post : σ → β → Prop} :
    Meets watch post s (program >>= later) ↔
      Meets watch (fun s value => Meets watch post s (later value)) s program := by
  induction program generalizing s with
  | done value => exact Iff.rfl
  | act op next ih =>
      refine forall_congr' fun answer => exists_congr fun after => and_congr_right fun _ => ?_
      exact ih answer

/-- The rule of iteration: every turn keeps the state. -/
theorem meets_performAll {ι : Type} {op : ι → Op} {items : List ι} {post : σ → Unit → Prop}
    (kept : ∀ item ∈ items, ∀ answer, watch s (op item) answer = some s) (holds : post s ()) :
    Meets watch post s (performAll op items) := by
  induction items with
  | nil => exact holds
  | cons item items ih =>
      intro answer
      refine ⟨s, kept item List.mem_cons_self answer, ih fun other mem => ?_⟩
      exact kept other (List.mem_cons_of_mem _ mem)

end Rules

/-! ## Programs that can fail -/

section Except

variable {s : σ} {post : σ → Except ε β → Prop}

/-- What follows a step that may have failed. -/
def orFail (post : σ → Except ε β → Prop) (later : σ → α → Prop) (s : σ) : Except ε α → Prop
  | .ok value => later s value
  | .error error => post s (.error error)

theorem meets_exceptBind {program : ExceptT ε (Program Op Answer) α}
    {later : α → ExceptT ε (Program Op Answer) β} :
    Meets watch post s (program >>= later : ExceptT ε (Program Op Answer) β) ↔
      Meets watch (orFail post fun s value => Meets watch post s (later value)) s program := by
  refine meets_bind.trans ?_
  have cases : ∀ s (result : Except ε α),
      Meets watch post s (ExceptT.bindCont later result) ↔
        orFail post (fun s value => Meets watch post s (later value)) s result := by
    intro s result
    cases result with
    | ok value => exact Iff.rfl
    | error error => exact Iff.rfl
  exact ⟨fun meets => meets.mono fun s result => (cases s result).mp,
    fun meets => meets.mono fun s result => (cases s result).mpr⟩

/-- A step that cannot fail. -/
theorem meets_lift {program : Program Op Answer β} :
    Meets watch post s (ExceptT.lift program : ExceptT ε (Program Op Answer) β) ↔
      Meets watch (fun s value => post s (.ok value)) s program :=
  meets_bind

end Except

/-! ## Operations of a kind -/

section Each

variable {kind : Op → Prop}

/-- Every operation of the program is of a kind. -/
def Each (kind : Op → Prop) : Program Op Answer α → Prop
  | .done _ => True
  | .act op next => kind op ∧ ∀ answer, Each kind (next answer)

theorem each_perform {op : Op} (here : kind op) :
    Each kind (perform op : Program Op Answer (Answer op)) :=
  ⟨here, fun _ => trivial⟩

theorem each_bind {program : Program Op Answer α} {later : α → Program Op Answer β}
    (first : Each kind program) (rest : ∀ value, Each kind (later value)) :
    Each kind (program >>= later) := by
  induction program with
  | done value => exact rest value
  | act op next ih =>
      obtain ⟨here, others⟩ := first
      exact ⟨here, fun answer => ih answer (others answer)⟩

theorem each_exceptBind {program : ExceptT ε (Program Op Answer) α}
    {later : α → ExceptT ε (Program Op Answer) β} (first : Each kind program)
    (rest : ∀ value, Each kind (later value)) :
    Each kind (program >>= later : ExceptT ε (Program Op Answer) β) := by
  refine each_bind first fun result => ?_
  cases result with
  | ok value => exact rest value
  | error error => trivial

theorem each_performAll {ι : Type} {op : ι → Op} {items : List ι}
    (each : ∀ item ∈ items, kind (op item)) :
    Each kind (performAll op items : Program Op Answer Unit) := by
  induction items with
  | nil => trivial
  | cons item items ih =>
      refine ⟨each item List.mem_cons_self, fun answer => ih fun other mem => ?_⟩
      exact each other (List.mem_cons_of_mem _ mem)

end Each

/-! ## The monitor that remembers -/

section Remember

variable {allows : List (Event Op Answer) → Event Op Answer → Prop} {past : List (Event Op Answer)}

open Classical in
/-- Allow what may come behind the past, and remember it. -/
noncomputable def remember (allows : List (Event Op Answer) → Event Op Answer → Prop)
    (past : List (Event Op Answer)) (op : Op) (answer : Answer op) :
    Option (List (Event Op Answer)) :=
  if allows past ⟨op, answer⟩ then some (past ++ [⟨op, answer⟩]) else none

theorem remember_eq_some_iff {op : Op} {answer : Answer op} {seen : List (Event Op Answer)} :
    remember allows past op answer = some seen ↔
      allows past ⟨op, answer⟩ ∧ seen = past ++ [⟨op, answer⟩] := by
  rw [remember]
  by_cases allowed : allows past ⟨op, answer⟩
  · rw [if_pos allowed, Option.some.injEq]
    exact ⟨fun same => ⟨allowed, same.symm⟩, fun same => same.2.symm⟩
  · rw [if_neg allowed]
    exact ⟨fun found => (by cases found), fun same => absurd same.1 allowed⟩

/-- An operation that is allowed whatever it answers. -/
theorem meets_act {op : Op} {next : Answer op → Program Op Answer α}
    {post : List (Event Op Answer) → α → Prop} (free : ∀ answer, allows past ⟨op, answer⟩)
    (rest : ∀ answer, Meets (remember allows) post (past ++ [⟨op, answer⟩]) (next answer)) :
    Meets (remember allows) post past (.act op next) :=
  fun answer => ⟨_, remember_eq_some_iff.mpr ⟨free answer, rfl⟩, rest answer⟩

/-- Operations of a kind that is always allowed only add to the past. -/
theorem Each.meets {kind : Op → Prop} {program : Program Op Answer α}
    {post : List (Event Op Answer) → α → Prop} (each : Each kind program)
    (free : ∀ op, kind op → ∀ past answer, allows past ⟨op, answer⟩)
    (holds : ∀ more value, (∀ event ∈ more, kind event.1) → post (past ++ more) value) :
    Meets (remember allows) post past program := by
  induction program generalizing past with
  | done value =>
      have here := holds [] value (List.forall_mem_nil _)
      rwa [List.append_nil] at here
  | act op next ih =>
      obtain ⟨here, others⟩ := each
      refine meets_act (free op here past) fun answer => ?_
      apply ih answer (others answer)
      intro more value kinds
      rw [List.append_assoc]
      exact holds _ value (List.forall_mem_cons.mpr ⟨here, kinds⟩)

end Remember

end Program

/-! ## Programs side by side -/

/-- A program on its way: what it has done and what is left of it. -/
structure Process (Op : Type) (Answer : Op → Type) (α : Type) where
  past : List (Event Op Answer)
  rest : Program Op Answer α

/-- The state of a monitor behind some events. -/
def observe (watch : σ → (op : Op) → Answer op → Option σ) (s : σ)
    (past : List (Event Op Answer)) : Option σ :=
  past.foldlM (fun s event => watch s event.1 event.2) s

namespace Process

def start (program : Program Op Answer α) : Process Op Answer α := ⟨[], program⟩

def ended (process : Process Op Answer α) : Bool :=
  match process.rest with
  | .done _ => true
  | .act _ _ => false

/-- The process of a list that an index takes its turn with, and the list behind the turn. -/
def turn (processes : List (Process Op Answer α)) (index : Nat) (answers : ∀ op, Answer op) :
    Option (Event Op Answer × List (Process Op Answer α)) :=
  match processes[index]? with
  | some ⟨past, .act op next⟩ =>
      some (⟨op, answers op⟩,
        processes.set index ⟨past ++ [⟨op, answers op⟩], next (answers op)⟩)
  | _ => none

/-- The process that takes its turn performs its next operation. -/
theorem turn_getElem? {processes later : List (Process Op Answer α)} {index : Nat}
    {answers : ∀ op, Answer op} {event : Event Op Answer}
    (turns : turn processes index answers = some (event, later)) :
    ∃ past op next, processes[index]? = some ⟨past, .act op next⟩ ∧ event = ⟨op, answers op⟩ ∧
      later = processes.set index ⟨past ++ [event], next (answers op)⟩ := by
  unfold turn at turns
  split at turns
  · rename_i past op next found
    cases turns
    exact ⟨past, op, next, found, rfl, rfl⟩
  · cases turns

/-- A turn performs one operation of one process and leaves the others alone. -/
theorem turn_cases {processes later : List (Process Op Answer α)} {index : Nat}
    {answers : ∀ op, Answer op} {event : Event Op Answer}
    (turns : turn processes index answers = some (event, later)) :
    ∃ front back past op next, processes = front ++ ⟨past, .act op next⟩ :: back ∧
      event = ⟨op, answers op⟩ ∧
      later = front ++ ⟨past ++ [event], next (answers op)⟩ :: back := by
  obtain ⟨past, op, next, found, performed, rfl⟩ := turn_getElem? turns
  obtain ⟨bound, held⟩ := List.getElem?_eq_some_iff.mp found
  refine ⟨processes.take index, processes.drop (index + 1), past, op, next, ?_, performed, ?_⟩
  · conv_lhs => rw [← List.take_append_drop index processes, List.drop_eq_getElem_cons bound, held]
  · rw [List.set_eq_take_append_cons_drop, if_pos bound]

/-- The process has been allowed all it did, and what is left of it meets the condition. -/
def Follows (watch : σ → (op : Op) → Answer op → Option σ) (post : σ → α → Prop) (initial s : σ)
    (process : Process Op Answer α) : Prop :=
  observe watch initial process.past = some s ∧ process.rest.Meets watch post s

section Follows

variable {watch : σ → (op : Op) → Answer op → Option σ} {post : σ → α → Prop} {initial s : σ}

theorem follows_start {program : Program Op Answer α} (meets : program.Meets watch post initial) :
    Follows watch post initial initial (start program) := ⟨rfl, meets⟩

theorem observe_concat (past : List (Event Op Answer)) (event : Event Op Answer) :
    observe watch initial (past ++ [event]) =
      (observe watch initial past).bind fun s => watch s event.1 event.2 := by
  simp [observe, List.foldlM_append]

/-- A turn that is taken is one that the monitor allows. -/
theorem Follows.turn {past : List (Event Op Answer)} {op : Op}
    {next : Answer op → Program Op Answer α}
    (follows : Follows watch post initial s ⟨past, .act op next⟩) (answer : Answer op) :
    ∃ later, watch s op answer = some later ∧
      Follows watch post initial later ⟨past ++ [⟨op, answer⟩], next answer⟩ := by
  obtain ⟨observed, meets⟩ := follows
  obtain ⟨later, allowed, rest⟩ := meets answer
  refine ⟨later, allowed, ?_, rest⟩
  rw [observe_concat, observed]
  exact allowed

/-- What the monitor remembers of a process is what the process has done, and each of its
operations was allowed behind those before it. -/
theorem observe_remember {allows : List (Event Op Answer) → Event Op Answer → Prop}
    {past seen : List (Event Op Answer)}
    (observed : observe (Program.remember allows) [] past = some seen) :
    seen = past ∧ ∀ front event back, past = front ++ event :: back → allows front event := by
  induction past using List.reverseRecOn generalizing seen with
  | nil =>
      refine ⟨(Option.some.inj observed).symm, fun front event back same => ?_⟩
      exact absurd same.symm (List.append_ne_nil_of_right_ne_nil _ (List.cons_ne_nil _ _))
  | append_singleton past last ih =>
      rw [observe_concat] at observed
      obtain ⟨before, found, allowed⟩ := Option.bind_eq_some_iff.mp observed
      obtain ⟨rfl, each⟩ := ih found
      obtain ⟨here, rfl⟩ := Program.remember_eq_some_iff.mp allowed
      refine ⟨rfl, fun front event back same => ?_⟩
      rcases List.eq_nil_or_concat back with rfl | ⟨back, other, rfl⟩
      · obtain ⟨rfl, single⟩ := List.append_inj' same rfl
        cases single
        exact here
      · rw [List.concat_eq_append, ← List.cons_append, ← List.append_assoc] at same
        exact each front event back (List.append_inj' same rfl).1

theorem Follows.ended {process : Process Op Answer α}
    (follows : Follows watch post initial s process) (stopped : process.ended = true) :
    ∃ value, post s value := by
  obtain ⟨past, rest⟩ := process
  cases rest with
  | done value => exact ⟨value, follows.2⟩
  | act op next => cases stopped

end Follows

end Process

end Interaction
