import PrivacyEngine.Interaction
import PrivacyEngine.Reactive

/-!
# Programs that share a state

Programs join one after another, each with a task of its own, and take their turns in any order on
one shared state.  What a turn does is up to the state and to an input that settles what the state
leaves open.  One rule carries every fact about such crews: what a new member starts with, what a
turn makes of its own member, and what it leaves true of the others.  A monitor that remembers turns
it into a rule of rely and guarantee: a member relies on answers that were sound when they were
given and still are, and guarantees to perform only what the monitor allows behind them.
-/

namespace Interaction

open Reactive

variable {Op : Type} {Answer : Op → Type} {α κ S I : Type}

/-- What operations answer and what they make of a shared state. -/
structure Shared (Op : Type) (Answer : Op → Type) (S I : Type) where
  answer : S → I → (op : Op) → Answer op
  after : S → I → Op → S

/-- A shared state and the members at work on it, in the order in which they have joined. -/
structure Crew (Op : Type) (Answer : Op → Type) (α κ S : Type) where
  shared : S
  members : List (κ × Process Op Answer α)

inductive CrewEvent (κ I : Type) where
  | join (task : κ)
  | turn (index : Nat) (input : I)

namespace Shared

variable (ops : Shared Op Answer S I) (program : κ → Program Op Answer α)

/-- A member behind its next operation, and the state behind it. -/
def perform (s : S) (input : I) (task : κ) :
    Process Op Answer α → Option (S × κ × Process Op Answer α)
  | ⟨_, .done _⟩ => none
  | ⟨past, .act op next⟩ =>
      some (ops.after s input op, task,
        ⟨past ++ [⟨op, ops.answer s input op⟩], next (ops.answer s input op)⟩)

def turn (crew : Crew Op Answer α κ S) (index : Nat) (input : I) :
    Option (Crew Op Answer α κ S) := do
  let (task, process) ← crew.members[index]?
  let (shared, member) ← ops.perform crew.shared input task process
  return ⟨shared, crew.members.set index member⟩

def crew : Machine (Crew Op Answer α κ S) (CrewEvent κ I) Empty Empty where
  polls
    | _, .join _ => true
    | crew, .turn index input => (ops.turn crew index input).isSome
  react crew
    | .join task =>
        ⟨[], .running
          { crew with members := crew.members ++ [(task, Process.start (program task))] }⟩
    | .turn index input => ⟨[], .running ((ops.turn crew index input).getD crew)⟩

variable {ops program} {crew next : Crew Op Answer α κ S} {event : CrewEvent κ I} {now : List Empty}

/-- What an event does. -/
theorem react_cases (polled : (ops.crew program).polls crew event = true)
    (reacts : (ops.crew program).react crew event = ⟨now, .running next⟩) :
    (∃ task, next =
      { crew with members := crew.members ++ [(task, Process.start (program task))] }) ∨
    ∃ index input task past op later, event = .turn index input ∧
      crew.members[index]? = some (task, ⟨past, .act op later⟩) ∧
      next = ⟨ops.after crew.shared input op, crew.members.set index (task,
        ⟨past ++ [⟨op, ops.answer crew.shared input op⟩],
          later (ops.answer crew.shared input op)⟩)⟩ := by
  cases event with
  | join task =>
      cases reacts
      exact .inl ⟨task, rfl⟩
  | turn index input =>
      obtain ⟨turned, turns⟩ := Option.isSome_iff_exists.mp polled
      have reacts : Reaction.mk [] (Status.running ((ops.turn crew index input).getD crew)) =
          Reaction.mk now (Status.running next) := reacts
      rw [turns] at reacts
      cases reacts
      rw [turn] at turns
      obtain ⟨⟨task, past, rest⟩, found, turns⟩ := Option.bind_eq_some_iff.mp turns
      obtain ⟨⟨shared, member⟩, performs, same⟩ := Option.bind_eq_some_iff.mp turns
      cases same
      cases rest with
      | done value => cases performs
      | act op later =>
          cases performs
          exact .inr ⟨index, input, task, past, op, later, rfl, found, rfl⟩

/-- What a member has done stays done. -/
theorem past_step (polled : (ops.crew program).polls crew event = true)
    (reacts : (ops.crew program).react crew event = ⟨now, .running next⟩) {index : Nat} {task : κ}
    {process : Process Op Answer α} (found : crew.members[index]? = some (task, process)) :
    ∃ later, next.members[index]? = some (task, later) ∧ process.past <+: later.past := by
  obtain ⟨bound, -⟩ := List.getElem?_eq_some_iff.mp found
  rcases react_cases polled reacts with ⟨other, rfl⟩ |
    ⟨place, input, other, past, op, later, -, here, rfl⟩
  · exact ⟨process, (List.getElem?_append_left bound).trans found, List.prefix_rfl⟩
  · by_cases same : place = index
    · subst same
      cases here.symm.trans found
      exact ⟨_, List.getElem?_set_self bound, List.prefix_append past _⟩
    · exact ⟨process, (List.getElem?_set_ne same).trans found, List.prefix_rfl⟩

/-! ## The rule -/

/-- An invariant of the state, and what each member keeps beside it: it starts with it, its turns
keep it, and so do the turns of others. -/
structure Keeps (ops : Shared Op Answer S I) (program : κ → Program Op Answer α) (inv : S → Prop)
    (kept : Nat → S → κ → Process Op Answer α → Prop) : Prop where
  starts : ∀ index s task, inv s → kept index s task (Process.start (program task))
  turns : ∀ index s input task past op next, inv s → kept index s task ⟨past, .act op next⟩ →
    inv (ops.after s input op) ∧ kept index (ops.after s input op) task
      ⟨past ++ [⟨op, ops.answer s input op⟩], next (ops.answer s input op)⟩
  others : ∀ index s input task past op next place other process, inv s →
    kept index s task ⟨past, .act op next⟩ → kept place s other process →
      kept place (ops.after s input op) other process

/-- The invariant holds, and every member keeps what it has to. -/
structure Holds (inv : S → Prop) (kept : Nat → S → κ → Process Op Answer α → Prop)
    (crew : Crew Op Answer α κ S) : Prop where
  shared : inv crew.shared
  members : ∀ index task process, crew.members[index]? = some (task, process) →
    kept index crew.shared task process

variable {inv : S → Prop} {kept : Nat → S → κ → Process Op Answer α → Prop}

theorem Keeps.step (keeps : ops.Keeps program inv kept) (holds : Holds inv kept crew)
    (polled : (ops.crew program).polls crew event = true)
    (reacts : (ops.crew program).react crew event = ⟨now, .running next⟩) :
    Holds inv kept next := by
  obtain ⟨shared, members⟩ := holds
  rcases react_cases polled reacts with ⟨task, rfl⟩ |
    ⟨index, input, task, past, op, later, -, found, rfl⟩
  · refine ⟨shared, fun place other process at_place => ?_⟩
    rcases Nat.lt_or_ge place crew.members.length with inside | outside
    · rw [List.getElem?_append_left inside] at at_place
      exact members place other process at_place
    · rw [List.getElem?_append_right outside] at at_place
      cases List.mem_singleton.mp (List.mem_of_getElem? at_place)
      exact keeps.starts place crew.shared task shared
  · have here := members index task _ found
    obtain ⟨shared', turned⟩ := keeps.turns index crew.shared input task past op later shared here
    refine ⟨shared', fun place other process at_place => ?_⟩
    by_cases same : index = place
    · subst same
      rw [List.getElem?_set_self (List.getElem?_eq_some_iff.mp found).1] at at_place
      cases at_place
      exact turned
    · rw [List.getElem?_set_ne same] at at_place
      exact keeps.others index crew.shared input task past op later place other process shared here
        (members place other process at_place)

/-- The rule for crews. -/
theorem Keeps.run (keeps : ops.Keeps program inv kept) {final : Crew Op Answer α κ S}
    {events : List (CrewEvent κ I)} {outputs : List Empty}
    (execution : (ops.crew program).Run crew events outputs (.running final))
    (initially : Holds inv kept crew) : Holds inv kept final :=
  execution.invariant (fun holds polled reacts => keeps.step holds polled reacts) initially

/-! ## Rely and guarantee -/

/-- Operations that are allowed behind a past of sound answers keep the invariant and are answered
soundly, and what is sound stays so. -/
structure Guarantees (ops : Shared Op Answer S I) (inv : S → Prop)
    (allows : List (Event Op Answer) → Event Op Answer → Prop)
    (sound : S → Event Op Answer → Prop) : Prop where
  kept : ∀ s input op past, inv s → (∀ event ∈ past, sound s event) →
    allows past ⟨op, ops.answer s input op⟩ →
      inv (ops.after s input op) ∧ sound (ops.after s input op) ⟨op, ops.answer s input op⟩
  stable : ∀ s input op event, sound s event → sound (ops.after s input op) event

/-- What a member has done is sound and was allowed, and what is left of it meets its condition. -/
structure Relies (allows : List (Event Op Answer) → Event Op Answer → Prop)
    (sound : S → Event Op Answer → Prop) (post : κ → List (Event Op Answer) → α → Prop) (s : S)
    (task : κ) (process : Process Op Answer α) : Prop where
  sound : ∀ event ∈ process.past, sound s event
  follows : ∃ seen, process.Follows (Program.remember allows) (post task) [] seen

variable {allows : List (Event Op Answer) → Event Op Answer → Prop}
  {sound : S → Event Op Answer → Prop} {post : κ → List (Event Op Answer) → α → Prop}

theorem Relies.allowed {s : S} {task : κ} {process : Process Op Answer α}
    (relies : Relies allows sound post s task process) {front back : List (Event Op Answer)}
    {event : Event Op Answer} (split : process.past = front ++ event :: back) :
    allows front event := by
  obtain ⟨-, seen, observed, -⟩ := relies
  exact (Process.observe_remember observed).2 front event back split

theorem Relies.ended {s : S} {task : κ} {process : Process Op Answer α}
    (relies : Relies allows sound post s task process) {value : α}
    (ended : process.rest = .done value) : post task process.past value := by
  obtain ⟨-, seen, observed, meets⟩ := relies
  rw [ended] at meets
  rwa [(Process.observe_remember observed).1] at meets

/-- Programs that rely on no more than sound answers and guarantee what is asked of them keep the
invariant together. -/
theorem Guarantees.keeps (guarantees : ops.Guarantees inv allows sound)
    (meets : ∀ task, (program task).Meets (Program.remember allows) (post task) []) :
    ops.Keeps program inv fun _ => Relies allows sound post where
  starts index s task holds :=
    ⟨List.forall_mem_nil _, [], Process.follows_start (meets task)⟩
  turns index s input task past op next holds relies := by
    obtain ⟨sound_past, seen, follows⟩ := relies
    obtain ⟨later, allowed, follows'⟩ := follows.turn (ops.answer s input op)
    obtain ⟨here, -⟩ := Program.remember_eq_some_iff.mp allowed
    rw [(Process.observe_remember follows.1).1] at here
    obtain ⟨kept, sound_here⟩ := guarantees.kept s input op past holds sound_past here
    refine ⟨kept, fun event mem => ?_, later, follows'⟩
    rcases List.mem_append.mp mem with before | last
    · exact guarantees.stable s input op event (sound_past event before)
    · cases List.mem_singleton.mp last
      exact sound_here
  others index s input task past op next place other process holds relies also :=
    ⟨fun event mem => guarantees.stable s input op event (also.sound event mem), also.follows⟩

/-- The rule of rely and guarantee for a crew that starts empty. -/
theorem Guarantees.run (guarantees : ops.Guarantees inv allows sound)
    (meets : ∀ task, (program task).Meets (Program.remember allows) (post task) []) {s : S}
    {final : Crew Op Answer α κ S} {events : List (CrewEvent κ I)} {outputs : List Empty}
    (execution : (ops.crew program).Run ⟨s, []⟩ events outputs (.running final))
    (initially : inv s) : Holds inv (fun _ => Relies allows sound post) final :=
  (guarantees.keeps meets).run execution ⟨initially, fun _ _ _ found => by cases found⟩

/-! ## A member alone -/

/-- A program that takes all its turns in a row, with one input. -/
def alone (ops : Shared Op Answer S I) (input : I) : Program Op Answer α → S → α × S
  | .done value, s => (value, s)
  | .act op next, s => alone ops input (next (ops.answer s input op)) (ops.after s input op)

/-- A member that takes all its turns in a row ends as it does alone, and leaves the state as it
does alone. -/
theorem alone_run (input : I) {index : Nat} {task : κ} {past : List (Event Op Answer)}
    {rest : Program Op Answer α} (found : crew.members[index]? = some (task, ⟨past, rest⟩)) :
    ∃ events outputs done, (ops.crew program).Run crew events outputs (.running
      ⟨(ops.alone input rest crew.shared).2, crew.members.set index
        (task, ⟨done, .done (ops.alone input rest crew.shared).1⟩)⟩) := by
  induction rest generalizing crew past with
  | done value =>
      refine ⟨[], [], past, ?_⟩
      obtain ⟨bound, here⟩ := List.getElem?_eq_some_iff.mp found
      have same : crew.members.set index (task, ⟨past, .done value⟩) = crew.members := by
        rw [← here, List.set_getElem_self]
      rw [alone, same]
      exact .stop crew
  | act op next ih =>
      let turned : Crew Op Answer α κ S := ⟨ops.after crew.shared input op,
        crew.members.set index (task, ⟨past ++ [⟨op, ops.answer crew.shared input op⟩],
          next (ops.answer crew.shared input op)⟩)⟩
      have turns : ops.turn crew index input = some turned := by
        rw [turn, found]
        rfl
      have polled : (ops.crew program).polls crew (.turn index input) = true :=
        Option.isSome_iff_exists.mpr ⟨turned, turns⟩
      have reacts : (ops.crew program).react crew (.turn index input) =
          ⟨[], .running ((ops.turn crew index input).getD crew)⟩ := rfl
      rw [turns] at reacts
      have here : turned.members[index]? = some (task,
          ⟨past ++ [⟨op, ops.answer crew.shared input op⟩],
            next (ops.answer crew.shared input op)⟩) :=
        List.getElem?_set_self (List.getElem?_eq_some_iff.mp found).1
      obtain ⟨events, outputs, done, execution⟩ := ih (ops.answer crew.shared input op) here
      rw [List.set_set] at execution
      exact ⟨_, _, done, .step polled reacts execution⟩

end Shared

end Interaction
