import PrivacyEngine.Mitm.Session

/-!
# Receipts of a relay

Whatever a relay does and however it ends, the receipts it leaves are for its own host, and a
receipt about cookies reports at least one header under a mode that looks for it.
-/

namespace PrivacyEngine

open Wire Reactive

/-- A receipt for the given host whose report is not empty, or another effect. -/
def Effect.Counted (host : Str) : Effect → Prop
  | receipt other entry => other = host ∧ entry.Counted
  | _ => True

theorem Effect.Responds.counted {host : Str} {effect : Effect} (responds : effect.Responds host) :
    effect.Counted host := by
  cases effect with
  | receipt other entry => exact responds
  | _ => trivial

/-- Every receipt of the trace is for the given host and not empty. -/
abbrev Counted (host : Str) (effects : List Effect) : Prop :=
  ∀ effect ∈ effects, effect.Counted host

namespace RelayEnv

variable {env : RelayEnv} {s : RelayState} {phase : ResponsePhase} {event : RelayEvent}

theorem counted_filterStep {buf : Bytes} {enabled : Bool} {filter : Bytes → Option Bytes}
    {event : LogEvent} {entry : Receipt} {counter : Metric} {before : Option Bytes × List Effect}
    (counted : entry.Counted) (kept : Counted env.targetHost before.2) :
    Counted env.targetHost (env.filterStep buf enabled filter event entry counter before).2 := by
  have recorded : Counted env.targetHost (env.record entry) :=
    fun effect mem => (env.responding_record counted effect mem).counted
  unfold filterStep
  split
  · refine List.forall_mem_append.mpr ⟨List.forall_mem_append.mpr ⟨kept, ?_⟩, ?_⟩
    · exact List.forall_mem_cons.mpr ⟨trivial, recorded⟩
    · exact List.forall_mem_singleton.mpr trivial
  · exact kept

theorem counted_onClientRead (s : RelayState) (buf : Bytes) :
    Counted env.targetHost (env.onClientRead s buf).outputs := by
  have profile : Counted env.targetHost (env.sessionPlan.userProfileName.toList.map fun name =>
      Effect.log (.userProfileApplied name)) := by
    intro effect mem
    obtain ⟨name, -, rfl⟩ := List.mem_map.mp mem
    trivial
  have filtered : Counted env.targetHost (env.filterRequest buf).2 := by
    refine counted_filterStep trivial (counted_filterStep trivial (counted_filterStep trivial ?_))
    exact List.forall_mem_nil _
  have nonempty : Receipt.websocketBlocked.Counted := trivial
  have blocked : Counted env.targetHost (env.record .websocketBlocked) :=
    fun effect mem => (env.responding_record nonempty effect mem).counted
  unfold onClientRead
  split
  · exact List.forall_mem_singleton.mpr trivial
  · dsimp only
    split
    · refine List.forall_mem_append.mpr ⟨List.forall_mem_append.mpr ⟨profile, ?_⟩, ?_⟩
      · exact List.forall_mem_cons.mpr ⟨trivial, blocked⟩
      · exact List.forall_mem_cons.mpr ⟨trivial, List.forall_mem_singleton.mpr trivial⟩
    · refine List.forall_mem_append.mpr ⟨List.forall_mem_append.mpr ⟨profile, filtered⟩, ?_⟩
      exact List.forall_mem_singleton.mpr trivial

theorem counted_settle {reaction : RelayReaction}
    (counted : Counted env.targetHost reaction.outputs) :
    Counted env.targetHost (settle reaction).outputs := by
  unfold settle
  split
  · split
    · exact List.forall_mem_append.mpr ⟨counted, List.forall_mem_singleton.mpr trivial⟩
    · exact counted
  · exact counted

/-- One reaction leaves receipts for the own host only. -/
theorem counted_react (represents : env.Represents s phase)
    (polled : env.relay.polls s event = true) :
    Counted env.targetHost (env.relay.react s event).outputs := by
  have follows : ∀ {reaction : RelayReaction} {input : UpstreamInput},
      env.Follows s reaction (env.phaseStep phase input) →
        Counted env.targetHost reaction.outputs := by
    rintro reaction input ⟨t, rfl, -⟩ effect mem
    exact (env.responding_phaseStep phase input effect mem).counted
  cases event with
  | clientRead chunk => exact counted_settle (counted_onClientRead s chunk.bytes)
  | clientEof => exact counted_settle (List.forall_mem_singleton.mpr trivial)
  | clientError error => exact List.forall_mem_nil _
  | upstreamRead chunk =>
      have opened : s.upstreamClosed = false := by simpa [relay] using polled
      exact counted_settle (follows (env.onUpstreamRead_follows represents opened chunk.bytes))
  | upstreamEof =>
      have opened : s.upstreamClosed = false := by simpa [relay] using polled
      exact counted_settle (follows (env.onUpstreamEof_follows represents opened))
  | upstreamError error => exact List.forall_mem_nil _

theorem counted_of_run {events : List RelayEvent} {outputs : List Effect}
    (execution : env.relay.Run {} events outputs (.running s)) :
    Counted env.targetHost outputs := by
  refine execution.history (fun _ outputs _ => Counted env.targetHost outputs)
    (List.forall_mem_nil _) ?_
  intro events outputs state event now next front counted polled reacts
  have running := (run_report front env.represents_initial).running state rfl
  have last := counted_react running.1 polled
  rw [reacts] at last
  exact List.forall_mem_append.mpr ⟨counted, last⟩

/-- However a relay ends, its receipts are for its own host and not empty. -/
theorem Ending.counted {events : List RelayEvent} {unsent outputs : List Effect}
    {verdict : RelayVerdict} (ending : env.Ending events s event unsent outputs verdict) :
    Counted env.targetHost outputs := by
  cases ending with
  | halts execution polled reacts =>
      have running := (run_report execution env.represents_initial).running s rfl
      have last := counted_react running.1 polled
      rw [reacts] at last
      exact List.forall_mem_append.mpr ⟨counted_of_run execution, last⟩
  | breaks execution polled emits io =>
      rename_i done later op error sent
      have running := (run_report execution env.represents_initial).running s rfl
      have last := counted_react running.1 polled
      rw [emits] at last
      refine List.forall_mem_append.mpr
        ⟨counted_of_run execution, List.forall_mem_append.mpr ⟨?_, ?_⟩⟩
      · exact fun effect mem => last effect (List.mem_append_left _ mem)
      · intro effect mem
        cases op with
        | writeClient bytes =>
            rw [List.mem_singleton.mp mem]
            trivial
        | writeUpstream bytes =>
            rw [List.mem_singleton.mp mem]
            trivial
        | _ => cases mem

end RelayEnv

end PrivacyEngine
