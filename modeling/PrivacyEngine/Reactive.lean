import Mathlib.Data.List.Basic
import Mathlib.Data.List.Induction

/-!
# Event-driven machines with an output trace

A machine reacts to one event at a time: it emits outputs and either goes on in a new state or
halts with a verdict.  An event can only be handled in a state that polls for it.  `Run` is the
relational account of finite executions and `run` the executable one; a run never continues behind
a verdict.
-/

namespace Reactive

/-- What a machine is doing after an event. -/
inductive Status (σ ρ : Type*) where
  | running (state : σ)
  | halted (verdict : ρ)
  deriving DecidableEq

/-- The state a machine goes on in. -/
def Status.state? {σ ρ : Type*} : Status σ ρ → Option σ
  | running state => some state
  | halted _ => none

theorem Status.eq_running {σ ρ : Type*} {status : Status σ ρ} {state : σ}
    (goes_on : status.state? = some state) : status = .running state := by
  cases status with
  | running next => rw [Option.some.inj goes_on]
  | halted verdict => cases goes_on

/-- Outputs emitted and status reached by handling events. -/
structure Reaction (σ ω ρ : Type*) where
  outputs : List ω
  status : Status σ ρ
  deriving DecidableEq

/-- A machine with states `σ`, events `ε`, outputs `ω` and verdicts `ρ`. -/
structure Machine (σ ε ω ρ : Type*) where
  /-- Whether the state waits for the event. -/
  polls : σ → ε → Bool
  /-- The reaction to one event. -/
  react : σ → ε → Reaction σ ω ρ

namespace Machine

variable {σ ε ω ρ : Type*}

/-- Finite executions from a state: the events handled, the outputs and the status reached. -/
inductive Run (machine : Machine σ ε ω ρ) : σ → List ε → List ω → Status σ ρ → Prop
  | stop (state : σ) : Run machine state [] [] (.running state)
  | step {state next : σ} {event : ε} {events : List ε} {outputs later : List ω}
      {status : Status σ ρ} :
      machine.polls state event = true →
      machine.react state event = ⟨outputs, .running next⟩ →
      Run machine next events later status →
      Run machine state (event :: events) (outputs ++ later) status
  | halt {state : σ} {event : ε} {outputs : List ω} {verdict : ρ} :
      machine.polls state event = true →
      machine.react state event = ⟨outputs, .halted verdict⟩ →
      Run machine state [event] outputs (.halted verdict)

/-- Execute a list of events, failing when one is not polled for or follows a verdict. -/
def run (machine : Machine σ ε ω ρ) : σ → List ε → Option (Reaction σ ω ρ)
  | state, [] => some ⟨[], .running state⟩
  | state, event :: events =>
      if machine.polls state event then
        match machine.react state event with
        | ⟨outputs, .running next⟩ =>
            (run machine next events).map fun later =>
              ⟨outputs ++ later.outputs, later.status⟩
        | ⟨outputs, .halted verdict⟩ =>
            if events.isEmpty then some ⟨outputs, .halted verdict⟩ else none
      else none

/-- Every successful execution is a run. -/
theorem Run.of_run {machine : Machine σ ε ω ρ} {state : σ} {events : List ε}
    {reaction : Reaction σ ω ρ} (executes : machine.run state events = some reaction) :
    machine.Run state events reaction.outputs reaction.status := by
  induction events generalizing state reaction with
  | nil =>
      obtain rfl := Option.some.inj executes
      exact .stop state
  | cons event events ih =>
      rw [run] at executes
      split at executes
      · rename_i polled
        split at executes
        · rename_i outputs next reacts
          obtain ⟨later, later_eq, rfl⟩ := Option.map_eq_some_iff.mp executes
          exact .step polled reacts (ih later_eq)
        · rename_i outputs verdict reacts
          split at executes
          · rename_i last
            obtain rfl := Option.some.inj executes
            obtain rfl := List.isEmpty_iff.mp last
            exact .halt polled reacts
          · cases executes
      · cases executes

/-- What is observed of a successful execution is observed of a run. -/
theorem exists_run (machine : Machine σ ε ω ρ) (state : σ) (events : List ε) {β : Type*}
    (observe : Reaction σ ω ρ → β) {value : β}
    (observed : (machine.run state events).map observe = some value) :
    ∃ outputs status, machine.Run state events outputs status ∧
      observe ⟨outputs, status⟩ = value := by
  obtain ⟨reaction, executes, rfl⟩ := Option.map_eq_some_iff.mp observed
  exact ⟨reaction.outputs, reaction.status, .of_run executes, rfl⟩

/-- A run goes on in front of every event it handles. -/
theorem Run.cut {machine : Machine σ ε ω ρ} {state : σ} {front back : List ε} {outputs : List ω}
    {status : Status σ ρ} (execution : machine.Run state (front ++ back) outputs status)
    (more : back ≠ []) :
    ∃ seen next later, machine.Run state front seen (.running next) ∧
      machine.Run next back later status ∧ outputs = seen ++ later := by
  induction front generalizing state outputs with
  | nil => exact ⟨[], state, outputs, .stop state, execution, rfl⟩
  | cons event front ih =>
      generalize all_eq : event :: front ++ back = all at execution
      cases execution with
      | stop => cases all_eq
      | step polled reacts rest =>
          cases all_eq
          obtain ⟨seen, next, later, first, second, rfl⟩ := ih rest
          exact ⟨_, next, later, .step polled reacts first, second, (List.append_assoc _ _ _).symm⟩
      | halt polled reacts =>
          obtain ⟨-, nothing⟩ := List.cons.inj all_eq
          exact absurd (List.append_eq_nil_iff.mp nothing).2 more

/-- A run that goes on can be continued. -/
theorem Run.append {machine : Machine σ ε ω ρ} {state next : σ} {front back : List ε}
    {seen later : List ω} {status : Status σ ρ}
    (first : machine.Run state front seen (.running next))
    (second : machine.Run next back later status) :
    machine.Run state (front ++ back) (seen ++ later) status := by
  generalize reached_eq : Status.running next = reached at first
  induction first with
  | stop state =>
      cases reached_eq
      exact second
  | step polled reacts _ ih =>
      rw [List.append_assoc]
      exact .step polled reacts (ih reached_eq)
  | halt => cases reached_eq

/-- Events determine a run. -/
theorem Run.unique {machine : Machine σ ε ω ρ} {state : σ} {events : List ε}
    {outputs others : List ω} {status other : Status σ ρ}
    (first : machine.Run state events outputs status)
    (second : machine.Run state events others other) : outputs = others ∧ status = other := by
  induction first generalizing others other with
  | stop state =>
      cases second with
      | stop => exact ⟨rfl, rfl⟩
  | step polled reacts _ ih =>
      cases second with
      | step polled' reacts' rest =>
          rw [reacts] at reacts'
          cases reacts'
          obtain ⟨rfl, rfl⟩ := ih rest
          exact ⟨rfl, rfl⟩
      | halt polled' reacts' =>
          rw [reacts] at reacts'
          cases reacts'
  | halt polled reacts =>
      cases second with
      | step polled' reacts' rest =>
          rw [reacts] at reacts'
          cases reacts'
      | halt polled' reacts' =>
          rw [reacts] at reacts'
          cases reacts'
          exact ⟨rfl, rfl⟩

/-- A run goes on from wherever its front has led. -/
theorem Run.split {machine : Machine σ ε ω ρ} {initial reached final : σ} {front back : List ε}
    {outputs seen : List ω}
    (execution : machine.Run initial (front ++ back) outputs (.running final))
    (first : machine.Run initial front seen (.running reached)) :
    ∃ later, machine.Run reached back later (.running final) ∧ outputs = seen ++ later := by
  cases back with
  | nil =>
      rw [List.append_nil] at execution
      obtain ⟨rfl, same⟩ := execution.unique first
      cases same
      exact ⟨[], .stop reached, (List.append_nil _).symm⟩
  | cons event back =>
      obtain ⟨seen', state, later, front', rest, rfl⟩ := execution.cut (by simp)
      obtain ⟨rfl, same⟩ := first.unique front'
      cases same
      exact ⟨later, rest, rfl⟩

/-- One more event. -/
theorem Run.snoc {machine : Machine σ ε ω ρ} {initial state next : σ} {events : List ε} {event : ε}
    {seen now : List ω} (first : machine.Run initial events seen (.running state))
    (polled : machine.polls state event = true)
    (reacts : machine.react state event = ⟨now, .running next⟩) :
    machine.Run initial (events ++ [event]) (seen ++ now) (.running next) := by
  have last : machine.Run state [event] (now ++ []) (.running next) :=
    .step polled reacts (.stop next)
  rw [List.append_nil] at last
  exact first.append last

/-- A property kept by every reaction that goes on holds wherever a run goes on. -/
theorem Run.invariant {machine : Machine σ ε ω ρ} {property : σ → Prop}
    (kept : ∀ {state next event outputs}, property state → machine.polls state event = true →
      machine.react state event = ⟨outputs, .running next⟩ → property next)
    {state final : σ} {events : List ε} {outputs : List ω}
    (execution : machine.Run state events outputs (.running final)) (initial : property state) :
    property final := by
  generalize status_eq : Status.running final = status at execution
  induction execution with
  | stop state =>
      cases status_eq
      exact initial
  | step polled reacts _ ih => exact ih (kept initial polled reacts) status_eq
  | halt => cases status_eq

/-- A property kept by reactions to events of a kind holds along events of that kind. -/
theorem Run.kept {machine : Machine σ ε ω ρ} {kind : ε → Prop} (property : σ → Prop)
    (kept : ∀ {state next event outputs}, property state → kind event →
      machine.polls state event = true → machine.react state event = ⟨outputs, .running next⟩ →
      property next)
    {state final : σ} {events : List ε} {outputs : List ω}
    (execution : machine.Run state events outputs (.running final))
    (kinds : ∀ event ∈ events, kind event) (initial : property state) : property final := by
  generalize status_eq : Status.running final = status at execution
  induction execution with
  | stop state =>
      cases status_eq
      exact initial
  | step polled reacts _ ih =>
      obtain ⟨here, others⟩ := List.forall_mem_cons.mp kinds
      exact ih others (kept initial here polled reacts) status_eq
  | halt => cases status_eq

/-- The last event of a run that goes on. -/
theorem Run.snoc_cases {machine : Machine σ ε ω ρ} {initial final : σ} {events : List ε}
    {event : ε} {outputs : List ω}
    (execution : machine.Run initial (events ++ [event]) outputs (.running final)) :
    ∃ seen state now, machine.Run initial events seen (.running state) ∧
      machine.polls state event = true ∧ machine.react state event = ⟨now, .running final⟩ ∧
      outputs = seen ++ now := by
  obtain ⟨seen, state, later, front, last, rfl⟩ := execution.cut (by simp)
  cases last with
  | step polled reacts rest =>
      cases rest with
      | stop => exact ⟨seen, state, _, front, polled, reacts, by simp⟩

/-- A run that has halted went on until its last event. -/
theorem Run.halted_cases {machine : Machine σ ε ω ρ} {initial : σ} {events : List ε}
    {outputs : List ω} {verdict : ρ}
    (execution : machine.Run initial events outputs (.halted verdict)) :
    ∃ front event seen state now, events = front ++ [event] ∧
      machine.Run initial front seen (.running state) ∧ machine.polls state event = true ∧
      machine.react state event = ⟨now, .halted verdict⟩ ∧ outputs = seen ++ now := by
  generalize status_eq : Status.halted verdict = status at execution
  induction execution with
  | stop state => cases status_eq
  | @step state next event events outputs later status polled reacts _ ih =>
      obtain ⟨front, last, seen, reached, now, rfl, first, polled', reacts', rfl⟩ := ih status_eq
      exact ⟨event :: front, last, outputs ++ seen, reached, now, rfl, .step polled reacts first,
        polled', reacts', (List.append_assoc _ _ _).symm⟩
  | @halt state event outputs verdict polled reacts =>
      cases status_eq
      exact ⟨[], event, [], state, outputs, rfl, .stop state, polled, reacts, rfl⟩

/-- A property of the events handled, the outputs and the state reached that every reaction keeps
holds wherever a run goes on. -/
theorem Run.history {machine : Machine σ ε ω ρ} {initial : σ}
    (property : List ε → List ω → σ → Prop) (initially : property [] [] initial)
    (kept : ∀ {events outputs state event now next},
      machine.Run initial events outputs (.running state) → property events outputs state →
      machine.polls state event = true → machine.react state event = ⟨now, .running next⟩ →
      property (events ++ [event]) (outputs ++ now) next)
    {final : σ} {events : List ε} {outputs : List ω}
    (execution : machine.Run initial events outputs (.running final)) :
    property events outputs final := by
  induction events using List.reverseRecOn generalizing outputs final with
  | nil =>
      cases execution with
      | stop => exact initially
  | append_singleton events event ih =>
      obtain ⟨seen, state, now, front, polled, reacts, rfl⟩ := execution.snoc_cases
      exact kept front (ih front) polled reacts

/-- A machine that polls alike and reacts alike, but for outputs that are not observed, has the same
runs but for such outputs. -/
theorem Run.observed {machine other : Machine σ ε ω ρ} {observe : ω → Bool}
    (polls : ∀ state event, machine.polls state event = other.polls state event)
    (reacts : ∀ state event, (machine.react state event).status = (other.react state event).status ∧
      (machine.react state event).outputs.filter observe =
        (other.react state event).outputs.filter observe)
    {state : σ} {events : List ε} {outputs : List ω} {status : Status σ ρ}
    (execution : machine.Run state events outputs status) :
    ∃ outputs', other.Run state events outputs' status ∧
      outputs.filter observe = outputs'.filter observe := by
  induction execution with
  | stop state => exact ⟨[], .stop state, rfl⟩
  | @step state next event events outputs later status polled reaction _ ih =>
      obtain ⟨later', rest, same⟩ := ih
      obtain ⟨status_eq, outputs_eq⟩ := reacts state event
      rw [reaction] at status_eq outputs_eq
      have reaction' : other.react state event =
          ⟨(other.react state event).outputs, .running next⟩ :=
        congrArg (Reaction.mk (other.react state event).outputs) status_eq.symm
      refine ⟨_, .step (polls state event ▸ polled) reaction' rest, ?_⟩
      rw [List.filter_append, List.filter_append, same, outputs_eq]
  | @halt state event outputs verdict polled reaction =>
      obtain ⟨status_eq, outputs_eq⟩ := reacts state event
      rw [reaction] at status_eq outputs_eq
      have reaction' : other.react state event =
          ⟨(other.react state event).outputs, .halted verdict⟩ :=
        congrArg (Reaction.mk (other.react state event).outputs) status_eq.symm
      exact ⟨_, .halt (polls state event ▸ polled) reaction', outputs_eq⟩

/-- Every event of a run meets a condition in the state that it finds. -/
def EachStep (machine : Machine σ ε ω ρ) (condition : σ → ε → Prop) (initial : σ)
    (events : List ε) : Prop :=
  ∀ front event back seen state, events = front ++ event :: back →
    machine.Run initial front seen (.running state) → condition state event

theorem EachStep.nil {machine : Machine σ ε ω ρ} {condition : σ → ε → Prop} {initial : σ} :
    machine.EachStep condition initial [] := by
  intro front event back seen state split
  exact absurd split (by simp)

theorem EachStep.snoc {machine : Machine σ ε ω ρ} {condition : σ → ε → Prop} {initial : σ}
    {events : List ε} {event : ε} (each : machine.EachStep condition initial events)
    (last : ∀ seen state, machine.Run initial events seen (.running state) →
      condition state event) :
    machine.EachStep condition initial (events ++ [event]) := by
  intro front other back seen state split execution
  rcases List.eq_nil_or_concat' back with rfl | ⟨back, final, rfl⟩
  · obtain ⟨rfl, same⟩ := List.append_inj' split rfl
    obtain ⟨rfl, -⟩ := List.cons.inj same
    exact last seen state execution
  · rw [← List.cons_append, ← List.append_assoc] at split
    obtain ⟨rfl, -⟩ := List.append_inj' split rfl
    exact each front other back seen state rfl execution

theorem EachStep.front {machine : Machine σ ε ω ρ} {condition : σ → ε → Prop} {initial : σ}
    {events more : List ε} (each : machine.EachStep condition initial (events ++ more)) :
    machine.EachStep condition initial events := by
  rintro front event back seen state rfl
  exact each front event (back ++ more) seen state (by simp)

theorem EachStep.last {machine : Machine σ ε ω ρ} {condition : σ → ε → Prop} {initial state : σ}
    {events : List ε} {event : ε} {seen : List ω}
    (each : machine.EachStep condition initial (events ++ [event]))
    (execution : machine.Run initial events seen (.running state)) : condition state event :=
  each events event [] seen state rfl execution

/-- Check a condition at every event of an execution. -/
def checkEach (machine : Machine σ ε ω ρ) (condition : σ → ε → Prop)
    [∀ state event, Decidable (condition state event)] : σ → List ε → Bool
  | _, [] => true
  | state, event :: events =>
      decide (condition state event) &&
        match (machine.react state event).status with
        | .running next => checkEach machine condition next events
        | .halted _ => true

theorem EachStep.of_checkEach {machine : Machine σ ε ω ρ} {condition : σ → ε → Prop}
    [∀ state event, Decidable (condition state event)] {initial : σ} {events : List ε}
    (checks : machine.checkEach condition initial events = true) :
    machine.EachStep condition initial events := by
  rintro front event back seen state rfl execution
  induction front generalizing initial seen with
  | nil =>
      cases execution with
      | stop => exact of_decide_eq_true (Bool.and_eq_true_iff.mp checks).1
  | cons first front ih =>
      cases execution with
      | step polled reacts rest =>
          have later := (Bool.and_eq_true_iff.mp checks).2
          rw [reacts] at later
          exact ih _ later rest

/-! ## Parts -/

section Part

variable {σ' ε' ω' ρ' : Type*}

/-- What is seen of one machine in another: a state, and the events and the outputs of its own. -/
structure View (σ ε ω σ' ε' ω' : Type*) where
  state : σ → σ'
  event : ε → Option ε'
  output : ω → Option ω'

/-- A machine does what its part does on the events of the part, and leaves it alone on others. -/
structure Part (machine : Machine σ ε ω ρ) (part : Machine σ' ε' ω' ρ')
    (view : View σ ε ω σ' ε' ω') : Prop where
  polls : ∀ {state event own}, view.event event = some own → machine.polls state event = true →
    part.polls (view.state state) own = true
  reacts : ∀ {state next event own now}, view.event event = some own →
    machine.polls state event = true → machine.react state event = ⟨now, .running next⟩ →
    part.react (view.state state) own = ⟨now.filterMap view.output, .running (view.state next)⟩
  silent : ∀ {state next event now}, view.event event = none →
    machine.polls state event = true → machine.react state event = ⟨now, .running next⟩ →
    view.state next = view.state state ∧ now.filterMap view.output = []

/-- Whatever its events are interleaved with, a part runs as it does alone. -/
theorem Run.part {machine : Machine σ ε ω ρ} {part : Machine σ' ε' ω' ρ'}
    {view : View σ ε ω σ' ε' ω'} (contains : machine.Part part view) {state final : σ}
    {events : List ε} {outputs : List ω}
    (execution : machine.Run state events outputs (.running final)) :
    part.Run (view.state state) (events.filterMap view.event) (outputs.filterMap view.output)
      (.running (view.state final)) := by
  generalize status_eq : Status.running final = status at execution
  induction execution with
  | stop state =>
      cases status_eq
      exact .stop _
  | @step state next event events now later status polled reacts _ ih =>
      have rest := ih status_eq
      rw [List.filterMap_append, List.filterMap_cons]
      cases own : view.event event with
      | none =>
          obtain ⟨same, nothing⟩ := contains.silent own polled reacts
          rw [same] at rest
          rw [nothing]
          exact rest
      | some own_event =>
          exact .step (contains.polls own polled) (contains.reacts own polled reacts) rest
  | halt => cases status_eq

end Part

end Machine

end Reactive
