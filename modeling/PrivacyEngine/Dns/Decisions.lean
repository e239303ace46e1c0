import PrivacyEngine.Dns.Transparency

/-!
# The books of the DNS filter

Each decision of the UDP front end is entered three times: it is logged, counted, and recorded
against the name asked for if receipts are kept and the name is not empty.  Over a whole run the
three entries agree in order, every one of them has a reason in the policy, and each packet is
counted once and in enforce mode brings at most one decision.
-/

namespace PrivacyEngine

open Wire Reactive

/-! ## Entries -/

/-- The decision a log event tells of: the name asked for, and what is recorded for it. -/
def DnsLogEvent.decision : DnsLogEvent → List (Str × DnsReceipt)
  | .dnsBlocked queryName _ => [(queryName, .dnsBlock)]
  | .dnsWouldBlock queryName _ => [(queryName, .dnsReportOnly)]
  | .dnsCnameUncloaked queryName _ => [(queryName, .dnsCnameUncloaked)]
  | .dnsCnameWouldBlock queryName _ => [(queryName, .dnsReportOnly)]
  | _ => []

/-- What a counter counts the decisions of. -/
def DnsMetric.decision : DnsMetric → List DnsReceipt
  | .dnsQueryTotal => []
  | .dnsBlockedTotal => [.dnsBlock]
  | .dnsReportOnlyTotal => [.dnsReportOnly]
  | .dnsCnameUncloakedTotal => [.dnsCnameUncloaked]

def logged (effects : List DnsEffect) : List (Str × DnsReceipt) :=
  effects.flatMap fun
    | .log event => event.decision
    | _ => []

/-- The receipt that the store keeps of a decision: none for a host that normalizes to nothing. -/
def keptReceipt (decision : Str × DnsReceipt) : Option (Str × DnsReceipt) :=
  if normalizeHost decision.1 = [] then none else some (normalizeHost decision.1, decision.2)

def recorded (effects : List DnsEffect) : List (Str × DnsReceipt) :=
  effects.flatMap fun
    | .receipt host entry => (keptReceipt (host, entry)).toList
    | _ => []

def counted (effects : List DnsEffect) : List DnsReceipt :=
  effects.flatMap fun
    | .metric counter => counter.decision
    | _ => []

@[simp] theorem logged_append (left right : List DnsEffect) :
    logged (left ++ right) = logged left ++ logged right := List.flatMap_append

@[simp] theorem recorded_append (left right : List DnsEffect) :
    recorded (left ++ right) = recorded left ++ recorded right := List.flatMap_append

@[simp] theorem counted_append (left right : List DnsEffect) :
    counted (left ++ right) = counted left ++ counted right := List.flatMap_append

namespace DnsFilterConfig

variable {config : DnsFilterConfig} {s t : DnsState} {event : DnsEvent} {events : List DnsEvent}
  {outputs now : List DnsEffect}

variable (config) in
/-- The policy has a reason for the decision that a log event tells of. -/
def Justifies : DnsLogEvent → Prop
  | .dnsBlocked queryName _ =>
      config.policyEngine.cfg.mode = .enforce ∧ config.blocksName queryName = true
  | .dnsWouldBlock queryName _ =>
      config.policyEngine.cfg.mode = .reportOnly ∧ config.blocksName queryName = true
  | .dnsCnameUncloaked _ target =>
      config.policyEngine.cfg.mode = .enforce ∧ config.blocksName target = true
  | .dnsCnameWouldBlock _ target =>
      config.policyEngine.cfg.mode = .reportOnly ∧ config.blocksName target = true
  | _ => True

variable (config) in
/-- The three entries of the decisions in a trace agree, as far as receipts are kept, and each
decision has a reason. -/
structure Books (effects : List DnsEffect) : Prop where
  counted : counted effects = (logged effects).map Prod.snd
  recorded : recorded effects =
    if config.receiptsStore then (logged effects).filterMap keptReceipt else []
  justified : ∀ event, .log event ∈ effects → config.Justifies event

theorem Books.append {left right : List DnsEffect} (first : config.Books left)
    (second : config.Books right) : config.Books (left ++ right) where
  counted := by
    rw [counted_append, logged_append, List.map_append, first.counted, second.counted]
  recorded := by
    rw [recorded_append, logged_append, first.recorded, second.recorded]
    split
    · rw [List.filterMap_append]
    · rfl
  justified event mem := by
    rcases List.mem_append.mp mem with mem | mem
    · exact first.justified event mem
    · exact second.justified event mem

/-- An effect that enters nothing. -/
def Blank (effect : DnsEffect) : Prop :=
  match effect with
  | .sendTo .. | .sendUpstream _ | .dohQuery .. => True
  | .metric counter => counter = .dnsQueryTotal
  | .log event => event.decision = []
  | .receipt .. => False

theorem justifies_of_blank {event : DnsLogEvent} (blank : event.decision = []) :
    config.Justifies event := by
  cases event <;> trivial

theorem logged_blank {effects : List DnsEffect} (blank : ∀ effect ∈ effects, Blank effect) :
    logged effects = [] := by
  refine List.flatMap_eq_nil_iff.mpr fun effect mem => ?_
  cases effect with
  | log event => exact blank _ mem
  | _ => rfl

theorem books_blank {effects : List DnsEffect} (blank : ∀ effect ∈ effects, Blank effect) :
    config.Books effects where
  counted := by
    rw [logged_blank blank]
    refine List.flatMap_eq_nil_iff.mpr fun effect mem => ?_
    cases effect with
    | metric counter =>
        obtain rfl : counter = .dnsQueryTotal := blank _ mem
        rfl
    | _ => rfl
  recorded := by
    rw [logged_blank blank, List.filterMap_nil, ite_self]
    refine List.flatMap_eq_nil_iff.mpr fun effect mem => ?_
    cases effect with
    | receipt host entry => exact (blank _ mem).elim
    | _ => rfl
  justified event mem := justifies_of_blank (blank _ mem)

/-- One decision is entered three times. -/
theorem books_decision (counter : DnsMetric) (queryName : Str) (entry : DnsReceipt)
    (event : DnsLogEvent) (counts : counter.decision = [entry])
    (tells : event.decision = [(queryName, entry)]) (reason : config.Justifies event) :
    config.Books (.metric counter :: config.record queryName entry ++ [.log event]) where
  counted := by
    unfold record
    split <;> simp [PrivacyEngine.counted, logged, counts, tells]
  recorded := by
    have single : [(queryName, entry)].filterMap keptReceipt =
        (keptReceipt (queryName, entry)).toList := by
      cases kept : keptReceipt (queryName, entry) <;> simp [kept]
    unfold record
    split <;> simp [PrivacyEngine.recorded, logged, *]
  justified later mem := by
    obtain rfl : later = event := by
      unfold record at mem
      split at mem <;> simpa using mem
    exact reason

theorem logged_decision (counter : DnsMetric) (queryName : Str) (entry : DnsReceipt)
    (event : DnsLogEvent) :
    logged (.metric counter :: config.record queryName entry ++ [.log event]) = event.decision := by
  unfold record
  split <;> simp [logged]

/-! ## What a query enters -/

variable (config) in
/-- Decisions and queries that a part of the loop enters, where one decision at most is enforced. -/
structure Enters (effects : List DnsEffect) (packets decisions : Nat) : Prop where
  books : config.Books effects
  queries : effects.count (.metric .dnsQueryTotal) = packets
  enforced : config.policyEngine.cfg.mode = .enforce → (logged effects).length ≤ decisions

theorem Enters.append {left right : List DnsEffect} {packets packets' decisions decisions' : Nat}
    (first : config.Enters left packets decisions)
    (second : config.Enters right packets' decisions') :
    config.Enters (left ++ right) (packets + packets') (decisions + decisions') where
  books := first.books.append second.books
  queries := by rw [List.count_append, first.queries, second.queries]
  enforced enforce := by
    rw [logged_append, List.length_append]
    exact Nat.add_le_add (first.enforced enforce) (second.enforced enforce)

theorem enters_blank {effects : List DnsEffect} (blank : ∀ effect ∈ effects, Blank effect)
    {packets : Nat} (queries : effects.count (.metric .dnsQueryTotal) = packets) :
    config.Enters effects packets 0 where
  books := books_blank blank
  queries := queries
  enforced _ := by rw [logged_blank blank, List.length_nil]

theorem enters_single {effect : DnsEffect} {packets : Nat} (blank : Blank effect)
    (queries : [effect].count (.metric .dnsQueryTotal) = packets) :
    config.Enters [effect] packets 0 :=
  enters_blank (List.forall_mem_singleton.mpr blank) queries

/-- Entries of one decision that counts no query. -/
theorem enters_decision (counter : DnsMetric) (queryName : Str) (entry : DnsReceipt)
    (event : DnsLogEvent) (counts : counter.decision = [entry])
    (tells : event.decision = [(queryName, entry)]) (reason : config.Justifies event) :
    config.Enters (.metric counter :: config.record queryName entry ++ [.log event]) 0 1 where
  books := books_decision counter queryName entry event counts tells reason
  queries := by
    have other : counter ≠ .dnsQueryTotal := by
      rintro rfl
      cases counts
    unfold record
    split <;> simp [other]
  enforced _ := by rw [logged_decision, tells, List.length_singleton]

theorem enters_counted : config.Enters [.metric .dnsQueryTotal] 1 0 :=
  enters_single rfl rfl

/-- A query is counted once; only an answer is a decision that is enforced. -/
theorem enters_processDnsQuery (query : Bytes) :
    config.Enters (config.processDnsQuery query).1 1
      (config.processDnsQuery query).2.toList.length := by
  unfold processDnsQuery
  dsimp only
  split
  · rename_i error unread
    refine enters_blank (fun effect mem => ?_) rfl
    rcases List.mem_pair.mp mem with rfl | rfl
    · exact rfl
    · exact rfl
  · split
    · exact enters_counted
    · rename_i message question standard
      split
      · rename_i blocks
        rw [PolicyEngine.planForDnsQuery_mode]
        cases mode : config.policyEngine.cfg.mode with
        | enforce =>
            exact enters_counted.append (enters_decision .dnsBlockedTotal _ _
              (.dnsBlocked _ question.queryType) rfl rfl ⟨mode, blocks⟩)
        | reportOnly =>
            have entered := enters_counted.append (enters_decision .dnsReportOnlyTotal _ _
              (.dnsWouldBlock _ question.queryType) rfl rfl ⟨mode, blocks⟩)
            exact ⟨entered.books, entered.queries, fun enforce => by cases mode.symm.trans enforce⟩
        | disabled => exact enters_counted
      · exact enters_counted

/-- The check of the aliases enters at most one decision that is enforced. -/
theorem enters_checkCnames (forwarding : Forwarding) (targets : List Str) :
    config.Enters (config.checkCnames forwarding targets).1 0 1 := by
  induction targets with
  | nil => exact ⟨books_blank (List.forall_mem_nil _), rfl, fun _ => Nat.zero_le _⟩
  | cons target targets ih =>
      rw [checkCnames]
      split
      · rename_i blocks
        rw [PolicyEngine.planForDnsQuery_mode]
        cases mode : config.policyEngine.cfg.mode with
        | enforce =>
            have entered := enters_decision .dnsCnameUncloakedTotal _ _
              (.dnsCnameUncloaked forwarding.queryName target) rfl rfl ⟨mode, blocks⟩
            dsimp only
            split
            · rename_i original parses
              have refusal : config.Enters
                  [.sendTo forwarding.client (config.hickory.buildNxdomain original)] 0 0 :=
                enters_single trivial rfl
              simpa using entered.append refusal
            · exact entered
        | reportOnly =>
            have entered := enters_decision .dnsReportOnlyTotal _ _
              (.dnsCnameWouldBlock forwarding.queryName target) rfl rfl ⟨mode, blocks⟩
            have all := entered.append ih
            refine ⟨?_, ?_, fun enforce => by cases mode.symm.trans enforce⟩
            · simpa using all.books
            · simpa using all.queries
        | disabled => exact ih
      · exact ih

theorem enters_deliver (forwarding : Forwarding) (reply : Bytes) :
    config.Enters (config.deliver forwarding reply) 0 1 := by
  have checked : config.Enters (deliver.checked config forwarding reply) 0 1 := by
    have entered := @enters_checkCnames config forwarding (extractCnameTargets config.hickory reply)
    unfold deliver.checked
    dsimp only
    split
    · exact entered
    · have sent : config.Enters [.sendTo forwarding.client reply] 0 0 := enters_single trivial rfl
      exact entered.append sent
  unfold deliver
  split
  · split
    · exact checked
    · exact ⟨books_blank (List.forall_mem_singleton.mpr rfl), rfl, fun _ => Nat.zero_le _⟩
  · exact checked

/-! ## A whole run -/

theorem enters_onPacket {query : Bytes} {client : SocketAddr} (listening : s.phase = .listening)
    (handles : config.onPacket s query client = ⟨now, .running t⟩) :
    ∃ decisions, config.Enters now 1 decisions ∧ decisions + (owed t).length = 1 := by
  have entered := @enters_processDnsQuery config query
  have sent : ∀ effect : DnsEffect, effect.isTraffic = true → config.Enters [effect] 0 0 := by
    intro effect traffic
    cases effect with
    | sendTo | sendUpstream | dohQuery =>
        exact enters_single trivial rfl
    | _ => cases traffic
  unfold onPacket at handles
  split at handles
  · rename_i effects response processed
    rw [processed] at entered
    cases handles
    refine ⟨1, entered.append (sent _ rfl), ?_⟩
    rw [owed, listening]
    rfl
  · rename_i effects processed
    rw [processed] at entered
    dsimp only at handles
    split at handles
    · cases handles
      exact ⟨0, entered.append (sent _ rfl), rfl⟩
    · cases handles
      exact ⟨0, entered.append (sent _ rfl), rfl⟩

/-- What is entered for an event, and what may still be entered, is owed to an earlier packet or is
for the packet itself. -/
theorem enters_of_react (polled : config.runDnsFilter.polls s event = true)
    (reacts : config.runDnsFilter.react s event = ⟨now, .running t⟩) :
    ∃ decisions, config.Enters now (senders [event]).length decisions ∧
      decisions + (owed t).length ≤ (owed s).length + (senders [event]).length := by
  have nothing : config.Enters [] 0 0 := enters_blank (List.forall_mem_nil _) rfl
  have failure : ∀ {event : DnsLogEvent}, event.decision = [] → config.Enters [.log event] 0 0 :=
    fun blank => enters_single blank rfl
  obtain ⟨phase, queue⟩ := s
  cases event with
  | packet datagram client =>
      cases phase with
      | listening =>
          obtain ⟨decisions, entered, one⟩ := enters_onPacket rfl reacts
          exact ⟨decisions, entered, one.le⟩
      | _ => cases polled
  | upstreamArrives datagram =>
      cases reacts
      exact ⟨0, nothing, by simp [owed, senders]⟩
  | upstreamSent =>
      cases phase with
      | sending forwarding =>
          cases reacts
          exact ⟨0, nothing, le_rfl⟩
      | _ => cases polled
  | upstreamRecv =>
      cases phase with
      | receiving forwarding =>
          cases queue with
          | nil => cases polled
          | cons datagram queue =>
              cases reacts
              exact ⟨1, enters_deliver forwarding _, le_rfl⟩
      | _ => cases polled
  | dohAnswer data =>
      cases phase with
      | querying url forwarding =>
          cases reacts
          exact ⟨1, enters_deliver forwarding data, le_rfl⟩
      | _ => cases polled
  | recvError error =>
      cases phase with
      | listening =>
          cases reacts
          exact ⟨0, failure rfl, le_rfl⟩
      | _ => cases polled
  | upstreamSendError error =>
      cases phase with
      | sending forwarding =>
          cases reacts
          exact ⟨0, failure rfl, Nat.zero_le _⟩
      | _ => cases polled
  | upstreamRecvError error =>
      cases phase with
      | receiving forwarding =>
          cases reacts
          exact ⟨0, failure rfl, Nat.zero_le _⟩
      | _ => cases polled
  | upstreamTimeout =>
      cases phase with
      | receiving forwarding =>
          cases reacts
          exact ⟨0, failure rfl, Nat.zero_le _⟩
      | _ => cases polled
  | dohError error =>
      cases phase with
      | querying url forwarding =>
          cases reacts
          exact ⟨0, failure rfl, Nat.zero_le _⟩
      | _ => cases polled
  | dohTimeout =>
      cases phase with
      | querying url forwarding =>
          cases reacts
          exact ⟨0, failure rfl, Nat.zero_le _⟩
      | _ => cases polled

/-- What a run enters is entered for the packets it reads, or was owed before. -/
theorem enters_of_run (execution : config.runDnsFilter.Run s events outputs (.running t)) :
    ∃ decisions, config.Enters outputs (senders events).length decisions ∧
      decisions + (owed t).length ≤ (owed s).length + (senders events).length := by
  refine execution.history (fun events outputs t =>
    ∃ decisions, config.Enters outputs (senders events).length decisions ∧
      decisions + (owed t).length ≤ (owed s).length + (senders events).length)
    ⟨0, enters_blank (List.forall_mem_nil _) rfl, by simp [senders]⟩ ?_
  rintro events outputs state event now next - ⟨decisions, entered, within⟩ polled reacts
  obtain ⟨later, enters, room⟩ := enters_of_react polled reacts
  refine ⟨decisions + later, ?_, ?_⟩
  · rw [senders_append, List.length_append]
    exact entered.append enters
  · rw [senders_append, List.length_append]
    omega

/-- Over every run the log, the counters and the receipts tell of the same decisions, each of them
has a reason, and each packet is counted once; in enforce mode each packet brings at most one
decision. -/
theorem books_of_run (execution : config.runDnsFilter.Run {} events outputs (.running s)) :
    config.Books outputs ∧
      outputs.count (.metric .dnsQueryTotal) = (senders events).length ∧
      ∀ client mine, config.Brings events outputs client mine →
        mine.count (.metric .dnsQueryTotal) = 1 ∧
          (config.policyEngine.cfg.mode = .enforce → (logged mine).length ≤ 1) := by
  obtain ⟨decisions, enters, -⟩ := enters_of_run execution
  refine ⟨enters.books, enters.queries, ?_⟩
  rintro client mine ⟨front, datagram, turn, rest, before, after, s, t, -, alone, -, -, handling⟩
  obtain ⟨mine_decisions, entered, room⟩ := enters_of_run handling
  have single : senders (.packet datagram client :: turn) = [client] := by
    rw [← List.singleton_append, senders_append, alone]
    rfl
  rw [owed_of_packet handling, single, List.length_nil, List.length_singleton] at room
  refine ⟨by rw [entered.queries, single, List.length_singleton], fun enforce => ?_⟩
  have enforced := entered.enforced enforce
  omega

/-- One packet is refused for its alias, and the next is still owed a reply. -/
theorem sampleExchange_books :
    ∃ outputs s, sampleFilter.runDnsFilter.Run {}
        (sampleExchange ++ [.packet sampleQuery (ascii "127.0.0.1:5354")]) outputs (.running s) ∧
      logged outputs = [(ascii "example.org", .dnsCnameUncloaked)] ∧
      recorded outputs = logged outputs ∧ counted outputs = (logged outputs).map Prod.snd ∧
      ∀ client mine, sampleFilter.Brings
          (sampleExchange ++ [.packet sampleQuery (ascii "127.0.0.1:5354")]) outputs client mine →
        mine.count (.metric .dnsQueryTotal) = 1 ∧
          (sampleFilter.policyEngine.cfg.mode = .enforce → (logged mine).length ≤ 1) := by
  have executes : (sampleFilter.runDnsFilter.run {}
      (sampleExchange ++ [.packet sampleQuery (ascii "127.0.0.1:5354")])).map
      (fun reaction => (logged reaction.outputs, reaction.status.state?.isSome)) =
        some ([(ascii "example.org", .dnsCnameUncloaked)], true) := by
    decide +kernel
  obtain ⟨outputs, status, execution, observed⟩ := Machine.exists_run _ _ _ _ executes
  have tells : logged outputs = [(ascii "example.org", .dnsCnameUncloaked)] :=
    (Prod.mk.inj observed).1
  cases status with
  | running s =>
      obtain ⟨books, -, packets⟩ := books_of_run execution
      refine ⟨outputs, s, execution, tells, ?_, books.counted, packets⟩
      rw [books.recorded, tells]
      decide
  | halted result => cases result

end DnsFilterConfig

end PrivacyEngine
