import PrivacyEngine.Mitm.Account

/-!
# Counters and receipts of a relay

Counters and receipts are the entries a tunnel makes about itself.  Every counter but one is
incremented next to a receipt of its own kind, so that with a receipts store the counters of a run
can be read off its receipts, in order, also when the run breaks off inside a reaction.  Which
entries are made depends on the first client read and on the upstream stream, not on how the two
directions interleave, and there are at most six.
-/

namespace PrivacyEngine

open Wire Reactive

namespace Effect

/-- Entries of the ledger. -/
def isEntry : Effect → Bool
  | metric _ | receipt _ _ => true
  | _ => false

/-- The counter an effect increments. -/
def counter : Effect → Option Metric
  | metric counter => some counter
  | _ => none

end Effect

/-- The counter incremented along with a receipt; a receipt about cookies is only counted when
consent is enforced against them. -/
def Receipt.counter : Receipt → Option Metric
  | websocketBlocked => some .websocketBlockedTotal
  | refererSpoofed => some .refererSpoofedTotal
  | queryParamsStripped => some .queryParamsStrippedTotal
  | cacheHeadersStripped => some .cacheHeadersStrippedTotal
  | consentEnforcement .enforce _ => some .consentEnforcementBlockedTotal
  | consentEnforcement _ _ | policySetCookie _ _ => none
  | bodyRewrite _ _ => some .bodyRewriteTotal
  | bodyRewriteSkipped => some .bodyRewriteSkippedTotal
  | certPinViolation => some .certPinViolationTotal

/-- The counter that goes with a recorded receipt. -/
def Effect.receiptCounter : Effect → Option Metric
  | receipt _ entry => entry.counter
  | _ => none

/-- Entries of a trace. -/
def ledger (effects : List Effect) : List Effect := effects.filter Effect.isEntry

/-- Counter increments of a trace. -/
def metrics (effects : List Effect) : List Metric := effects.filterMap Effect.counter

/-- The increments that the receipts of a trace account for. -/
def receipted (effects : List Effect) : List Metric := effects.filterMap Effect.receiptCounter

/-- The receipts of a trace account for its counters. -/
def Balanced (effects : List Effect) : Prop := metrics effects = receipted effects

section Traces

variable {left right effects : List Effect}

@[simp] theorem ledger_append : ledger (left ++ right) = ledger left ++ ledger right :=
  List.filter_append ..

@[simp] theorem metrics_append : metrics (left ++ right) = metrics left ++ metrics right :=
  List.filterMap_append

@[simp] theorem receipted_append : receipted (left ++ right) = receipted left ++ receipted right :=
  List.filterMap_append

@[simp] theorem metrics_nil : metrics [] = [] := rfl

@[simp] theorem receipted_nil : receipted [] = [] := rfl

theorem metrics_cons (effect : Effect) :
    metrics (effect :: effects) = effect.counter.toList ++ metrics effects := by
  cases effect <;> rfl

theorem receipted_cons (effect : Effect) :
    receipted (effect :: effects) = effect.receiptCounter.toList ++ receipted effects := by
  cases counts : effect.receiptCounter <;> simp [receipted, counts]

/-- What is read off the entries alone is read off the ledger. -/
theorem filterMap_ledger {β : Type} {read : Effect → Option β}
    (silent : ∀ effect, effect.isEntry = false → read effect = none) :
    (ledger effects).filterMap read = effects.filterMap read := by
  rw [ledger, List.filterMap_filter]
  refine List.filterMap_congr fun effect _ => ?_
  cases entry : effect.isEntry with
  | true => rfl
  | false => exact (silent effect entry).symm

theorem metrics_ledger : metrics (ledger effects) = metrics effects := by
  refine filterMap_ledger fun effect silent => ?_
  cases effect <;> first | rfl | cases silent

theorem receipted_ledger : receipted (ledger effects) = receipted effects := by
  refine filterMap_ledger fun effect silent => ?_
  cases effect <;> first | rfl | cases silent

theorem balanced_ledger : Balanced (ledger effects) ↔ Balanced effects := by
  rw [Balanced, Balanced, metrics_ledger, receipted_ledger]

theorem balanced_nil : Balanced [] := rfl

theorem Balanced.append (first : Balanced left) (second : Balanced right) :
    Balanced (left ++ right) := by
  rw [Balanced, metrics_append, receipted_append, first, second]

/-- A trace without entries. -/
abbrev Unrecorded (effects : List Effect) : Prop := ∀ effect ∈ effects, effect.isEntry = false

theorem ledger_of_unrecorded (unrecorded : Unrecorded effects) : ledger effects = [] := by
  apply List.filter_eq_nil_iff.mpr
  intro effect mem
  simp [unrecorded effect mem]

theorem balanced_of_unrecorded (unrecorded : Unrecorded effects) : Balanced effects := by
  rw [← balanced_ledger, ledger_of_unrecorded unrecorded]
  exact balanced_nil

theorem unrecorded_writes (parts : List Bytes) : Unrecorded (parts.map .writeClient) := by
  intro effect mem
  obtain ⟨part, -, rfl⟩ := List.mem_map.mp mem
  rfl

end Traces

namespace RelayEnv

variable {env : RelayEnv}

/-! ## Entries are made in pairs -/

section Kept

variable (kept : env.receiptsStore = true)

include kept

/-- A receipt and its counter, in either order. -/
theorem balanced_record {entry : Receipt} {counter : Metric}
    (counts : entry.counter = some counter) :
    Balanced (env.record entry ++ [.metric counter]) ∧
      Balanced (.metric counter :: env.record entry) := by
  simp [Balanced, metrics_cons, receipted_cons, record, kept, Effect.counter, Effect.receiptCounter,
    counts]

theorem balanced_recordSkipped : Balanced env.recordSkipped := (balanced_record kept rfl).2

theorem balanced_attempt (body : Bytes) (plan : BodyRewritePlan) (encoding : Option Str) :
    Balanced (env.attemptBodyRewrite body plan encoding).2 := by
  have logged : ∀ event, Balanced [.log event] := fun event => rfl
  have skipped := balanced_recordSkipped kept
  have rewritten : ∀ mode details,
      Balanced (.metric .bodyRewriteTotal :: env.record (.bodyRewrite mode details)) :=
    fun mode details => (balanced_record kept rfl).2
  unfold attemptBodyRewrite
  split
  · exact (logged _).append skipped
  · split
    · exact skipped.append (logged _)
    · split
      · exact (rewritten _ _).append (logged _)
      · split
        · exact (logged _).append skipped
        · exact (rewritten _ _).append (logged _)

/-- Consent is counted with the receipt of an enforced rule only. -/
theorem balanced_cookieEffects (outcome : HeaderPolicyOutcome) :
    Balanced (env.cookieEffects outcome) := by
  unfold cookieEffects
  split
  · refine Balanced.append ?_ rfl
    cases active : outcome.consentEnforcementActive <;>
      cases applied : outcome.enforcementApplied <;>
      simp [Balanced, metrics_cons, receipted_cons, record, kept, Effect.counter,
        Effect.receiptCounter, Receipt.counter]
  · exact balanced_nil

theorem balanced_headerEffects (headerBlock : Bytes) :
    Balanced (env.headerEffects headerBlock) := by
  refine (balanced_cookieEffects kept _).append ?_
  split
  · have logged : Balanced [.log .cacheResponseHeadersStripped] := rfl
    exact logged.append (balanced_record kept rfl).1
  · exact balanced_nil

theorem balanced_filterStep {buf : Bytes} {enabled : Bool} {filter : Bytes → Option Bytes}
    {event : LogEvent} {entry : Receipt} {counter : Metric} {before : Option Bytes × List Effect}
    (counts : entry.counter = some counter) (balanced : Balanced before.2) :
    Balanced (env.filterStep buf enabled filter event entry counter before).2 := by
  unfold filterStep
  split
  · have logged : Balanced [.log event] := rfl
    have pair := logged.append (balanced_record kept counts).1
    simpa using balanced.append pair
  · exact balanced

theorem balanced_filterRequest (buf : Bytes) : Balanced (env.filterRequest buf).2 :=
  balanced_filterStep kept rfl (balanced_filterStep kept rfl
    (balanced_filterStep kept rfl balanced_nil))

end Kept

/-! ## Entries come before writes -/

/-- Balanced reports and then effects that are no entries. -/
def Books (effects : List Effect) : Prop :=
  ∃ front back, effects = front ++ back ∧ Reports front ∧ Unrecorded back ∧
    (env.receiptsStore = true → Balanced front)

section Books

variable {effects : List Effect} {s t : RelayState} {phase : ResponsePhase} {event : RelayEvent}

theorem books_send (reports : Reports effects)
    (balanced : env.receiptsStore = true → Balanced effects)
    (parts : List Bytes) : env.Books (effects ++ parts.map .writeClient) :=
  ⟨_, _, rfl, reports, unrecorded_writes parts, balanced⟩

theorem books_reports (reports : Reports effects)
    (balanced : env.receiptsStore = true → Balanced effects) : env.Books effects :=
  ⟨_, _, (List.append_nil _).symm, reports, List.forall_mem_nil _, balanced⟩

theorem books_unrecorded (unrecorded : Unrecorded effects) : env.Books effects :=
  ⟨[], _, rfl, List.forall_mem_nil _, unrecorded, fun _ => balanced_nil⟩

theorem Books.append {more : List Effect} (books : env.Books effects)
    (unrecorded : Unrecorded more) : env.Books (effects ++ more) := by
  obtain ⟨front, back, rfl, reports, later, balanced⟩ := books
  exact ⟨front, back ++ more, List.append_assoc _ _ _, reports,
    List.forall_mem_append.mpr ⟨later, unrecorded⟩, balanced⟩

theorem books_attempt (body : Bytes) (plan : BodyRewritePlan) (encoding : Option Str)
    (parts : List Bytes) :
    env.Books ((env.attemptBodyRewrite body plan encoding).2 ++ parts.map .writeClient) :=
  books_send (reports_attempt _ _ _) (fun kept => balanced_attempt kept _ _ _) parts

theorem books_skipBody (headers body : Bytes) : env.Books (env.skipBody headers body).1 := by
  have logged : Balanced [.log .bodyRewriteSkipped] := rfl
  refine books_send ?_ (fun kept => (balanced_recordSkipped kept).append logged) _
  exact List.forall_mem_append.mpr
    ⟨env.bookkeeping_recordSkipped.reports, List.forall_mem_singleton.mpr rfl⟩

theorem books_growBody (headers body : Bytes) : env.Books (env.growBody headers body).1 := by
  have nothing : env.Books [] := books_unrecorded (List.forall_mem_nil _)
  unfold growBody
  dsimp only
  split
  · split
    · exact books_skipBody _ _
    · split
      · exact books_attempt _ _ _ _
      · exact nothing
  · split
    · exact books_attempt _ _ _ _
    · split
      · exact books_skipBody _ _
      · exact nothing
  · split
    · exact books_skipBody _ _
    · exact nothing

theorem books_openResponse (headerBlock remainder : Bytes) :
    env.Books (env.openResponse headerBlock remainder).1 := by
  have headers := (env.bookkeeping_headerEffects headerBlock).reports
  have skipped := env.bookkeeping_recordSkipped.reports
  unfold openResponse
  dsimp only
  split
  · split
    · exact books_send (List.forall_mem_append.mpr ⟨headers, skipped⟩)
        (fun kept => (balanced_headerEffects kept _).append (balanced_recordSkipped kept)) _
    · exact books_reports headers fun kept => balanced_headerEffects kept _
  · exact books_send headers (fun kept => balanced_headerEffects kept _) _

theorem books_flushHeld (headers body : Bytes) :
    env.Books ((env.flushHeld headers body).1 ++
      (env.flushHeld headers body).2.map .writeClient) := by
  unfold flushHeld
  dsimp only
  split
  · split
    · exact books_attempt _ _ _ _
    · exact books_unrecorded (unrecorded_writes _)
  · exact books_attempt _ _ _ _
  · exact books_attempt _ _ _ _

theorem books_phaseStep (phase : ResponsePhase) (input : UpstreamInput) :
    env.Books (env.phaseStep phase input).1 := by
  have shutdown : Unrecorded [.shutdownClient] := List.forall_mem_singleton.mpr rfl
  cases phase with
  | awaitingHeaders pending =>
      cases input with
      | eof => exact (books_unrecorded (unrecorded_writes _)).append shutdown
      | read chunk =>
          rw [phaseStep]
          split
          · exact books_unrecorded (List.forall_mem_cons.mpr ⟨rfl, unrecorded_writes [_]⟩)
          · split
            · exact books_unrecorded (List.forall_mem_nil _)
            · exact books_openResponse _ _
  | holdingBody headers body =>
      cases input with
      | eof => exact (books_flushHeld headers body).append shutdown
      | read chunk => exact books_growBody headers _
  | passingThrough =>
      cases input with
      | eof => exact books_unrecorded shutdown
      | read chunk => exact books_unrecorded (unrecorded_writes [chunk])
  | ended => exact books_unrecorded (List.forall_mem_nil _)

theorem books_onClientRead (s : RelayState) (buf : Bytes) :
    env.Books (env.onClientRead s buf).outputs := by
  have profile := (bookkeeping_profile env.sessionPlan.userProfileName).reports
  have profile_balanced : Balanced (env.sessionPlan.userProfileName.toList.map fun name =>
      Effect.log (.userProfileApplied name)) := by
    refine balanced_of_unrecorded fun effect mem => ?_
    obtain ⟨name, -, rfl⟩ := List.mem_map.mp mem
    rfl
  have filtered := (env.bookkeeping_filterRequest buf).reports
  have blocked : Reports (.log .websocketBlocked :: env.record .websocketBlocked ++
      [.metric .websocketBlockedTotal]) :=
    List.forall_mem_append.mpr ⟨List.forall_mem_cons.mpr
      ⟨rfl, (env.bookkeeping_record _).reports⟩, List.forall_mem_singleton.mpr rfl⟩
  unfold onClientRead
  split
  · exact books_unrecorded (List.forall_mem_singleton.mpr rfl)
  · dsimp only
    split
    · have logged : Balanced [.log .websocketBlocked] := rfl
      refine ⟨_, [.writeClient websocketBlockedResponse], ?_,
        List.forall_mem_append.mpr ⟨profile, blocked⟩, List.forall_mem_singleton.mpr rfl,
        fun kept => profile_balanced.append (logged.append (balanced_record kept rfl).1)⟩
      simp
    · refine ⟨_, _, rfl, List.forall_mem_append.mpr ⟨profile, filtered⟩,
        List.forall_mem_singleton.mpr rfl, ?_⟩
      exact fun kept => profile_balanced.append (balanced_filterRequest kept buf)

theorem Books.settle {reaction : RelayReaction} (books : env.Books reaction.outputs) :
    env.Books (settle reaction).outputs := by
  unfold RelayEnv.settle
  split
  · split
    · exact books.append (List.forall_mem_singleton.mpr rfl)
    · exact books
  · exact books

/-- Every reaction makes balanced entries before it touches a connection. -/
theorem books_react (represents : env.Represents s phase)
    (polled : env.relay.polls s event = true) : env.Books (env.relay.react s event).outputs := by
  have follows : ∀ {reaction : RelayReaction} {input : UpstreamInput},
      env.Follows s reaction (env.phaseStep phase input) → env.Books reaction.outputs := by
    rintro reaction input ⟨t, rfl, -⟩
    exact books_phaseStep phase input
  have nothing : env.Books [] := books_unrecorded (List.forall_mem_nil _)
  cases event with
  | clientRead chunk => exact (books_onClientRead s chunk.bytes).settle
  | clientEof =>
      have unrecorded : Unrecorded [.shutdownUpstream] := List.forall_mem_singleton.mpr rfl
      exact (env.books_unrecorded unrecorded).settle
  | clientError error => exact nothing
  | upstreamRead chunk =>
      have opened : s.upstreamClosed = false := by simpa [relay] using polled
      exact (follows (env.onUpstreamRead_follows represents opened chunk.bytes)).settle
  | upstreamEof =>
      have opened : s.upstreamClosed = false := by simpa [relay] using polled
      exact (follows (env.onUpstreamEof_follows represents opened)).settle
  | upstreamError error => exact nothing

theorem Books.balance (books : env.Books effects) (kept : env.receiptsStore = true) :
    Balanced effects := by
  obtain ⟨front, back, rfl, -, unrecorded, balanced⟩ := books
  exact (balanced kept).append (balanced_of_unrecorded unrecorded)

/-- All entries have been made when an effect on a connection fails. -/
theorem Books.before_io {op : Effect} {done later : List Effect} (books : env.Books effects)
    (emits : effects = done ++ op :: later) (io : op.isIo = true)
    (kept : env.receiptsStore = true) : Balanced done := by
  obtain ⟨front, back, rfl, reports, unrecorded, balanced⟩ := books
  rcases List.append_eq_append_iff.mp emits with ⟨more, rfl, back_eq⟩ | ⟨more, front_eq, rest_eq⟩
  · refine (balanced kept).append (balanced_of_unrecorded fun effect mem => ?_)
    exact unrecorded effect (back_eq ▸ List.mem_append_left _ mem)
  · cases more with
    | nil =>
        rw [List.append_nil] at front_eq
        exact front_eq ▸ balanced kept
    | cons first more =>
        obtain ⟨rfl, -⟩ := List.cons.inj rest_eq
        have reported := reports op (front_eq ▸ by simp)
        cases op <;>
          first | exact absurd io Bool.false_ne_true | exact absurd reported Bool.false_ne_true

end Books

/-- With a receipts store, the receipts of a run account for its counters. -/
theorem balanced_of_run {events : List RelayEvent} {outputs : List Effect} {s : RelayState}
    (execution : env.relay.Run {} events outputs (.running s)) (kept : env.receiptsStore = true) :
    Balanced outputs := by
  refine execution.history (fun _ outputs _ => Balanced outputs) balanced_nil ?_
  intro events outputs state event now next front balanced polled reacts
  have represents := ((run_report front env.represents_initial).running state rfl).1
  have books := books_react represents polled
  rw [reacts] at books
  exact balanced.append (books.balance kept)

/-- However a relay ends, by a verdict or by a write or half-close that fails, its receipts account
for its counters. -/
theorem Ending.balanced {events : List RelayEvent} {s : RelayState} {event : RelayEvent}
    {unsent outputs : List Effect} {verdict : RelayVerdict}
    (ending : env.Ending events s event unsent outputs verdict) (kept : env.receiptsStore = true) :
    Balanced outputs := by
  cases ending with
  | halts execution polled reacts =>
      have represents := ((run_report execution env.represents_initial).running s rfl).1
      have books := books_react represents polled
      rw [reacts] at books
      exact (balanced_of_run execution kept).append (books.balance kept)
  | breaks execution polled emits io =>
      rename_i before done later op error sent
      have represents := ((run_report execution env.represents_initial).running s rfl).1
      have books := books_react represents polled
      refine (balanced_of_run execution kept).append
        ((books.before_io emits io kept).append (balanced_of_unrecorded ?_))
      intro effect mem
      cases op with
      | writeClient bytes =>
          rw [List.mem_singleton.mp mem]
          rfl
      | writeUpstream bytes =>
          rw [List.mem_singleton.mp mem]
          rfl
      | _ => cases mem

/-- A tracker's session in which both sides close. -/
def trackerSession : List RelayEvent := conservationEvents ++ [.clientEof]

/-- A relay that has halted has ended with its last reaction carried out. -/
theorem Ending.of_halted {events : List RelayEvent} {outputs : List Effect} {verdict : RelayVerdict}
    (execution : env.relay.Run {} events outputs (.halted verdict)) :
    ∃ front s event, events = front ++ [event] ∧ env.Ending front s event [] outputs verdict := by
  obtain ⟨front, event, seen, s, now, rfl, first, polled, reacts, rfl⟩ := execution.halted_cases
  exact ⟨front, s, event, rfl, .halts first polled reacts⟩

theorem trackerSession_run :
    ∃ outputs, (sampleTunnel (.defaultForMode .enforce) trackerHost).relay.Run {} trackerSession
      outputs (.halted .returned) := by
  have executes : ((sampleTunnel (.defaultForMode .enforce) trackerHost).relay.run {}
      trackerSession).map (fun reaction => decide (reaction.status = .halted .returned)) =
      some true := by
    decide +kernel
  obtain ⟨outputs, status, execution, observed⟩ := Machine.exists_run _ _ _ _ executes
  obtain rfl := of_decide_eq_true observed
  exact ⟨outputs, execution⟩

theorem trackerSession_balanced :
    ∃ front s event outputs,
      (sampleTunnel (.defaultForMode .enforce) trackerHost).Ending front s event [] outputs
        .returned ∧
      trackerSession = front ++ [event] ∧ Balanced outputs := by
  obtain ⟨outputs, execution⟩ := trackerSession_run
  obtain ⟨front, s, event, split, ending⟩ := Ending.of_halted execution
  exact ⟨front, s, event, outputs, ending, split, ending.balanced rfl⟩

/-! ## Which entries are made -/

section Entries

variable {s t : RelayState} {phase : ResponsePhase} {events : List RelayEvent}
  {outputs : List Effect} {status : Status RelayState RelayVerdict}

variable (env) in
/-- Entries made for client reads, given whether the first request has been seen. -/
def requestLedger : Bool → List Bytes → List Effect
  | false, first :: _ =>
      if env.blocksWebsocket first then
        env.record .websocketBlocked ++ [.metric .websocketBlockedTotal]
      else ledger (env.filterRequest first).2
  | _, _ => []

variable (env) in
/-- Entries made for upstream inputs in a phase. -/
def responseLedger (phase : ResponsePhase) (inputs : List UpstreamInput) : List Effect :=
  ledger (env.phaseRun phase inputs).1

@[simp] theorem requestLedger_nil (checked : Bool) : env.requestLedger checked [] = [] := by
  cases checked <;> rfl

theorem requestLedger_append (checked : Bool) (left right : List Bytes) :
    env.requestLedger checked (left ++ right) =
      env.requestLedger checked left ++ env.requestLedger (checked || !left.isEmpty) right := by
  cases checked with
  | true => simp [requestLedger]
  | false =>
      cases left with
      | nil => simp
      | cons first left => simp [requestLedger]

theorem responseLedger_append (phase : ResponsePhase) (left right : List UpstreamInput) :
    env.responseLedger phase (left ++ right) =
      env.responseLedger phase left ++ env.responseLedger (env.phaseRun phase left).2 right := by
  rw [responseLedger, phaseRun_append, ledger_append]
  rfl

theorem ledger_record (entry : Receipt) : ledger (env.record entry) = env.record entry := by
  unfold record
  split <;> rfl

theorem ledger_onClientRead (s : RelayState) (buf : Bytes) :
    ledger (env.onClientRead s buf).outputs = env.requestLedger s.firstRequestChecked [buf] := by
  have profile : ledger (env.sessionPlan.userProfileName.toList.map fun name =>
      Effect.log (.userProfileApplied name)) = [] := by
    refine ledger_of_unrecorded fun effect mem => ?_
    obtain ⟨name, -, rfl⟩ := List.mem_map.mp mem
    rfl
  have answer : ledger [.metric .websocketBlockedTotal, .writeClient websocketBlockedResponse] =
      [.metric .websocketBlockedTotal] := rfl
  have logged : ledger [.log .websocketBlocked] = [] := rfl
  unfold onClientRead
  cases checked : s.firstRequestChecked with
  | true => rfl
  | false =>
      rw [if_neg Bool.false_ne_true]
      dsimp only
      rw [requestLedger]
      split
      · rw [List.append_assoc, ledger_append, profile, List.nil_append, List.cons_append,
          ← List.singleton_append, ledger_append, logged, List.nil_append, ledger_append, answer,
          ledger_record]
      · rw [forward, ledger_append, ledger_append, profile]
        exact List.append_nil _

theorem ledger_settle (reaction : RelayReaction) :
    ledger (settle reaction).outputs = ledger reaction.outputs := by
  unfold settle
  split
  · split
    · rw [ledger_append]
      exact List.append_nil _
    · rfl
  · rfl

/-- One reaction makes the entries of its side. -/
theorem ledger_react {event : RelayEvent} (represents : env.Represents s phase)
    (polled : env.relay.polls s event = true) :
    ledger (env.relay.react s event).outputs =
      env.requestLedger s.firstRequestChecked (clientReads [event]) ++
        env.responseLedger phase (upstreamInputs [event]) := by
  have follows : ∀ {reaction : RelayReaction} {input : UpstreamInput},
      env.Follows s reaction (env.phaseStep phase input) →
        ledger reaction.outputs = env.responseLedger phase [input] := by
    rintro reaction input ⟨t, rfl, -⟩
    rw [responseLedger, phaseRun, phaseRun, List.append_nil]
  rw [react_eq_settle, ledger_settle]
  cases event with
  | clientRead chunk =>
      rw [handle, ledger_onClientRead]
      exact (List.append_nil _).symm
  | clientEof => simp [handle, onClientEof, clientReads, upstreamInputs, RelayEvent.request,
      RelayEvent.upstream, responseLedger, phaseRun, ledger, Effect.isEntry]
  | clientError error => simp [handle, clientReads, upstreamInputs, RelayEvent.request,
      RelayEvent.upstream, responseLedger, phaseRun, ledger]
  | upstreamRead chunk =>
      have opened : s.upstreamClosed = false := by simpa [relay] using polled
      rw [handle, follows (env.onUpstreamRead_follows represents opened chunk.bytes)]
      simp [RelayEvent.request, RelayEvent.upstream]
  | upstreamEof =>
      have opened : s.upstreamClosed = false := by simpa [relay] using polled
      rw [handle, follows (env.onUpstreamEof_follows represents opened)]
      simp [RelayEvent.request, RelayEvent.upstream]
  | upstreamError error => simp [handle, clientReads, upstreamInputs, RelayEvent.request,
      RelayEvent.upstream, responseLedger, phaseRun, ledger]

/-- The entries of a run are those of its client reads and those of its upstream inputs, in some
interleaving. -/
theorem ledger_perm (execution : env.relay.Run s events outputs status)
    (represents : env.Represents s phase) :
    (ledger outputs).Perm (env.requestLedger s.firstRequestChecked (clientReads events) ++
      env.responseLedger phase (upstreamInputs events)) := by
  induction execution generalizing phase with
  | stop state => simp [responseLedger, phaseRun, ledger]
  | @step state next event events outputs later status polled reacts _ ih =>
      have made := ledger_react represents polled
      have report := react_report represents polled
      rw [reacts] at made report
      obtain ⟨represents', checked, -⟩ := report.running next rfl
      have reads : clientReads (event :: events) = clientReads [event] ++ clientReads events := by
        simp
      have inputs : upstreamInputs (event :: events) =
          upstreamInputs [event] ++ upstreamInputs events := by
        simp
      rw [reads, inputs, requestLedger_append, responseLedger_append, ← checked, ledger_append,
        made, List.append_assoc, List.append_assoc]
      refine List.Perm.append_left _ (((ih represents').append_left _).trans ?_)
      exact List.perm_append_comm_assoc ..
  | halt polled reacts =>
      have made := ledger_react represents polled
      rw [reacts] at made
      exact made ▸ List.Perm.refl _

/-- The same session with the response in front of the request. -/
def reorderedSession : List RelayEvent :=
  conservationEvents.filter (fun event => event.upstream ≠ []) ++
    conservationEvents.filter (fun event => event.upstream = []) ++ [.clientEof]

/-- Counters of an answered request, or of a filtered one. -/
def requestCounters : List (List Metric) :=
  [[.websocketBlockedTotal],
    [.refererSpoofedTotal, .queryParamsStrippedTotal, .cacheHeadersStrippedTotal]]

/-- Counters that settle what became of a held body. -/
def bodyOutcomes : List Metric := [.bodyRewriteTotal, .bodyRewriteSkippedTotal]

theorem metrics_record (entry : Receipt) : metrics (env.record entry) = [] := by
  unfold record
  split <;> rfl

/-- A filter adds its own counter or none. -/
theorem metrics_filterStep {buf : Bytes} {enabled : Bool} {filter : Bytes → Option Bytes}
    {event : LogEvent} {entry : Receipt} {counter : Metric} {before : Option Bytes × List Effect}
    {counters : List Metric} (counted : (metrics before.2).Sublist counters) :
    (metrics (env.filterStep buf enabled filter event entry counter before).2).Sublist
      (counters ++ [counter]) := by
  unfold filterStep
  split
  · have counts : metrics (before.2 ++ .log event :: env.record entry ++ [.metric counter]) =
        metrics before.2 ++ [counter] := by
      simp [metrics_cons, metrics_record, Effect.counter]
    rw [counts]
    exact counted.append (List.Sublist.refl _)
  · exact counted.trans (List.sublist_append_left _ _)

theorem metrics_requestLedger (checked : Bool) (reads : List Bytes) :
    ∃ counters ∈ requestCounters, (metrics (env.requestLedger checked reads)).Sublist counters := by
  have filtered : ∀ buf, (metrics (env.filterRequest buf).2).Sublist
      ((([] ++ [.refererSpoofedTotal]) ++ [.queryParamsStrippedTotal]) ++
        [.cacheHeadersStrippedTotal]) := fun buf =>
    metrics_filterStep (metrics_filterStep (metrics_filterStep (List.Sublist.refl [])))
  have nothing : (metrics []).Sublist [.websocketBlockedTotal] := List.nil_sublist _
  cases checked with
  | true => exact ⟨_, List.mem_cons_self, nothing⟩
  | false =>
      cases reads with
      | nil => exact ⟨_, List.mem_cons_self, nothing⟩
      | cons first reads =>
          rw [requestLedger]
          split
          · refine ⟨_, List.mem_cons_self, ?_⟩
            rw [metrics_append, metrics_record]
            exact List.Sublist.refl _
          · refine ⟨_, List.mem_cons_of_mem _ List.mem_cons_self, ?_⟩
            rw [metrics_ledger]
            exact filtered first

/-- Counters that may still be incremented for the upstream stream, in this order. -/
def Allows : ResponsePhase → List Metric → Prop
  | .awaitingHeaders _, counters =>
      ∃ outcome ∈ bodyOutcomes, counters.Sublist
        [.consentEnforcementBlockedTotal, .cacheHeadersStrippedTotal, outcome]
  | .holdingBody _ _, counters => ∃ outcome ∈ bodyOutcomes, counters.Sublist [outcome]
  | .passingThrough, counters | .ended, counters => counters = []

theorem metrics_recordSkipped : metrics env.recordSkipped = [.bodyRewriteSkippedTotal] := by
  rw [recordSkipped, metrics_cons, metrics_record]
  rfl

/-- An attempt settles the body: it counts a rewriting or a skipped body. -/
theorem metrics_attempt (body : Bytes) (plan : BodyRewritePlan) (encoding : Option Str) :
    ∃ outcome ∈ bodyOutcomes,
      metrics (env.attemptBodyRewrite body plan encoding).2 = [outcome] := by
  have skipped : .bodyRewriteSkippedTotal ∈ bodyOutcomes := by simp [bodyOutcomes]
  have rewritten : .bodyRewriteTotal ∈ bodyOutcomes := by simp [bodyOutcomes]
  unfold attemptBodyRewrite
  split
  · exact ⟨_, skipped, by simp [metrics_cons, metrics_recordSkipped, Effect.counter]⟩
  · split
    · exact ⟨_, skipped, by simp [metrics_cons, metrics_recordSkipped, Effect.counter]⟩
    · split
      · exact ⟨_, rewritten, by simp [metrics_cons, metrics_record, Effect.counter]⟩
      · split
        · exact ⟨_, skipped, by simp [metrics_cons, metrics_recordSkipped, Effect.counter]⟩
        · exact ⟨_, rewritten, by simp [metrics_cons, metrics_record, Effect.counter]⟩

theorem metrics_headerEffects (headerBlock : Bytes) :
    (metrics (env.headerEffects headerBlock)).Sublist
      [.consentEnforcementBlockedTotal, .cacheHeadersStrippedTotal] := by
  have order : [.consentEnforcementBlockedTotal, .cacheHeadersStrippedTotal] =
      [Metric.consentEnforcementBlockedTotal] ++ [.cacheHeadersStrippedTotal] := rfl
  rw [headerEffects, metrics_append, order]
  refine List.Sublist.append ?_ ?_
  · unfold cookieEffects
    split
    · dsimp only
      split <;> split <;> simp [metrics_cons, metrics_record, Effect.counter]
    · exact List.nil_sublist _
  · split
    · simp [metrics_cons, metrics_record, Effect.counter]
    · exact List.nil_sublist _

theorem metrics_writes (parts : List Bytes) : metrics (parts.map .writeClient) = [] := by
  rw [← metrics_ledger, ledger_of_unrecorded (unrecorded_writes parts)]
  rfl

theorem allows_nil (phase : ResponsePhase) : Allows phase [] := by
  have skipped : .bodyRewriteSkippedTotal ∈ bodyOutcomes := by simp [bodyOutcomes]
  cases phase with
  | awaitingHeaders pending => exact ⟨_, skipped, List.nil_sublist _⟩
  | holdingBody headers body => exact ⟨_, skipped, List.nil_sublist _⟩
  | passingThrough => rfl
  | ended => rfl

/-- Settling a held body passes the rest through. -/
theorem allows_settled {effects : List Effect} {headers body : Bytes} {counters : List Metric}
    (settles : ∃ outcome ∈ bodyOutcomes, (metrics effects).Sublist [outcome])
    (later : counters = []) : Allows (.holdingBody headers body) (metrics effects ++ counters) := by
  rw [later, List.append_nil]
  exact settles

theorem settles_attempt (body : Bytes) (plan : BodyRewritePlan) (encoding : Option Str)
    (parts : List Bytes) : ∃ outcome ∈ bodyOutcomes,
      (metrics ((env.attemptBodyRewrite body plan encoding).2 ++
        parts.map .writeClient)).Sublist [outcome] := by
  obtain ⟨outcome, known, counted⟩ := env.metrics_attempt body plan encoding
  exact ⟨outcome, known, by rw [metrics_append, counted, metrics_writes, List.append_nil]⟩

theorem settles_skipBody (headers body : Bytes) : ∃ outcome ∈ bodyOutcomes,
    (metrics (env.skipBody headers body).1).Sublist [outcome] := by
  refine ⟨.bodyRewriteSkippedTotal, by simp [bodyOutcomes], ?_⟩
  rw [skipBody, metrics_append, metrics_append, metrics_recordSkipped, metrics_writes]
  exact List.Sublist.refl _

theorem settles_flushHeld (headers body : Bytes) : ∃ outcome ∈ bodyOutcomes,
    (metrics ((env.flushHeld headers body).1 ++
      (env.flushHeld headers body).2.map .writeClient)).Sublist [outcome] := by
  unfold flushHeld
  dsimp only
  split
  · split
    · exact settles_attempt _ _ _ _
    · refine ⟨_, List.mem_cons_self, ?_⟩
      rw [metrics_append, metrics_writes]
      exact List.nil_sublist _
  · exact settles_attempt _ _ _ _
  · exact settles_attempt _ _ _ _

theorem allows_growBody {headers body held : Bytes} {counters : List Metric}
    (later : Allows (env.growBody headers body).2 counters) :
    Allows (.holdingBody headers held) (metrics (env.growBody headers body).1 ++ counters) := by
  revert later
  unfold growBody
  dsimp only
  split
  · split
    · exact allows_settled (settles_skipBody _ _)
    · split
      · exact allows_settled (settles_attempt _ _ _ _)
      · exact id
  · split
    · exact allows_settled (settles_attempt _ _ _ _)
    · split
      · exact allows_settled (settles_skipBody _ _)
      · exact id
  · split
    · exact allows_settled (settles_skipBody _ _)
    · exact id

theorem allows_openResponse {pending headerBlock remainder : Bytes} {counters : List Metric}
    (later : Allows (env.openResponse headerBlock remainder).2 counters) :
    Allows (.awaitingHeaders pending)
      (metrics (env.openResponse headerBlock remainder).1 ++ counters) := by
  have counted := env.metrics_headerEffects headerBlock
  have skipped : .bodyRewriteSkippedTotal ∈ bodyOutcomes := by simp [bodyOutcomes]
  revert later
  unfold openResponse
  dsimp only
  split
  · split
    · rintro rfl
      refine ⟨.bodyRewriteSkippedTotal, skipped, ?_⟩
      rw [List.append_nil, metrics_append, metrics_append, metrics_recordSkipped, metrics_writes,
        List.append_nil]
      exact counted.append (List.Sublist.refl [Metric.bodyRewriteSkippedTotal])
    · rintro ⟨outcome, known, settled⟩
      exact ⟨outcome, known, counted.append settled⟩
  · rintro rfl
    refine ⟨.bodyRewriteSkippedTotal, skipped, ?_⟩
    rw [List.append_nil, metrics_append, metrics_writes, List.append_nil]
    exact counted.trans (List.sublist_append_left _ [Metric.bodyRewriteSkippedTotal])

/-- Every step spends allowed counters. -/
theorem allows_phaseStep {phase : ResponsePhase} {input : UpstreamInput} {counters : List Metric}
    (later : Allows (env.phaseStep phase input).2 counters) :
    Allows phase (metrics (env.phaseStep phase input).1 ++ counters) := by
  have shutdown : metrics [.shutdownClient] = [] := rfl
  cases phase with
  | awaitingHeaders pending =>
      cases input with
      | eof =>
          obtain rfl : counters = [] := later
          rw [phaseStep, metrics_append, metrics_writes, shutdown]
          exact allows_nil _
      | read chunk =>
          revert later
          rw [phaseStep]
          split
          · rintro rfl
            exact allows_nil (.awaitingHeaders pending)
          · split
            · exact id
            · exact allows_openResponse
  | holdingBody headers body =>
      cases input with
      | eof =>
          obtain ⟨outcome, known, settled⟩ := env.settles_flushHeld headers body
          refine allows_settled ⟨outcome, known, ?_⟩ later
          rw [phaseStep, metrics_append, shutdown, List.append_nil]
          exact settled
      | read chunk => exact allows_growBody later
  | passingThrough =>
      cases input <;>
      · obtain rfl : counters = [] := later
        rfl
  | ended =>
      obtain rfl : counters = [] := later
      rfl

theorem allows_responseLedger (phase : ResponsePhase) (inputs : List UpstreamInput) :
    Allows phase (metrics (env.responseLedger phase inputs)) := by
  rw [responseLedger, metrics_ledger]
  induction inputs generalizing phase with
  | nil => exact allows_nil phase
  | cons input inputs ih =>
      rw [phaseRun]
      dsimp only
      rw [metrics_append]
      exact allows_phaseStep (ih _)

/-- A run counts an answered request once, or each request filter at most once; consent at most
once; removed cache fields at most once for either side; and at most one outcome of the body. -/
theorem metrics_subperm {events : List RelayEvent} {outputs : List Effect}
    {status : Status RelayState RelayVerdict} (execution : env.relay.Run {} events outputs status) :
    ∃ request ∈ requestCounters, ∃ outcome ∈ bodyOutcomes, (metrics outputs).Subperm
      (request ++ [.consentEnforcementBlockedTotal, .cacheHeadersStrippedTotal, outcome]) := by
  have entries := (ledger_perm execution env.represents_initial).filterMap Effect.counter
  rw [List.filterMap_append] at entries
  obtain ⟨request, requested, from_client⟩ :=
    env.metrics_requestLedger false (clientReads events)
  obtain ⟨outcome, known, from_upstream⟩ :=
    env.allows_responseLedger (.awaitingHeaders []) (upstreamInputs events)
  refine ⟨request, requested, outcome, known, ?_⟩
  have counted : (metrics outputs).Perm
      (metrics (env.requestLedger false (clientReads events)) ++
        metrics (env.responseLedger (.awaitingHeaders []) (upstreamInputs events))) := by
    have same : metrics (ledger outputs) = metrics outputs := metrics_ledger
    rw [← same]
    exact entries
  exact counted.subperm.trans (from_client.append from_upstream).subperm

theorem trackerSession_metrics :
    ∃ outputs,
      (sampleTunnel (.defaultForMode .enforce) trackerHost).relay.Run {} trackerSession outputs
        (.halted .returned) ∧
      ∃ request ∈ requestCounters, ∃ outcome ∈ bodyOutcomes, (metrics outputs).Subperm
        (request ++ [.consentEnforcementBlockedTotal, .cacheHeadersStrippedTotal, outcome]) := by
  obtain ⟨outputs, execution⟩ := trackerSession_run
  exact ⟨outputs, execution, metrics_subperm execution⟩

end Entries

end RelayEnv

end PrivacyEngine
