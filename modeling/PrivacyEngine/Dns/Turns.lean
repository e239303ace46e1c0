import PrivacyEngine.Dns.Delivery

/-!
# Turns of the UDP front end

The turn of a query lasts from its packet to where the loop listens again.  It reads at most one
reply, and what it does for clients and counters is decided by that reply.
-/

namespace PrivacyEngine

open Wire Reactive

/-! ## Effects that count -/

/-- Answers, counters and receipts, as opposed to upstream traffic and logs. -/
def DnsEffect.decides : DnsEffect → Bool
  | .sendTo _ _ | .metric _ | .receipt _ _ => true
  | .sendUpstream _ | .dohQuery _ _ | .log _ => false

def decided (effects : List DnsEffect) : List DnsEffect := effects.filter DnsEffect.decides

@[simp] theorem decided_nil : decided [] = [] := rfl

@[simp] theorem decided_cons (effect : DnsEffect) (effects : List DnsEffect) :
    decided (effect :: effects) =
      if effect.decides then effect :: decided effects else decided effects := List.filter_cons

@[simp] theorem decided_append (left right : List DnsEffect) :
    decided (left ++ right) = decided left ++ decided right := List.filter_append ..

theorem replies_decided (effects : List DnsEffect) :
    replies (decided effects) = replies effects := by
  induction effects with
  | nil => rfl
  | cons effect effects ih =>
      cases effect <;> simp [DnsEffect.decides, DnsEffect.sent, ih]

/-- The counters that effects raise: one for each metric, and those of the receipt of a host. -/
inductive DnsCounter where
  | metric (counter : DnsMetric)
  | receipt (key : Str) (entry : DnsReceipt)

/-- A receipt is kept under the normalized host, if that is not empty. -/
def DnsEffect.raises (counter : DnsCounter) : DnsEffect → Bool
  | .metric raised =>
      match counter with
      | .metric counter => raised = counter
      | .receipt _ _ => false
  | .receipt host recorded =>
      match counter with
      | .metric _ => false
      | .receipt key entry => key ≠ [] && normalizeHost host = key && recorded = entry
  | _ => false

/-- Two traces raise the same counters by the same amounts. -/
def CountAlike (left right : List DnsEffect) : Prop :=
  ∀ counter, left.countP (·.raises counter) = right.countP (·.raises counter)

theorem countP_decided (counter : DnsCounter) (effects : List DnsEffect) :
    (decided effects).countP (·.raises counter) = effects.countP (·.raises counter) := by
  rw [decided, List.countP_filter]
  refine List.countP_congr fun effect _ => ?_
  cases effect <;> simp [DnsEffect.decides, DnsEffect.raises]

theorem countAlike_append_iff {left right common first second : List DnsEffect}
    (left_eq : decided left = decided common ++ decided first)
    (right_eq : decided right = decided common ++ decided second) :
    CountAlike left right ↔ CountAlike first second := by
  refine forall_congr' fun counter => ?_
  rw [← countP_decided counter left, ← countP_decided counter right, left_eq, right_eq,
    List.countP_append, List.countP_append, Nat.add_left_cancel_iff, countP_decided,
    countP_decided]

/-! ## The reply of a turn -/

/-- What happens before a deadline. -/
def beforeTimeout (events : List DnsEvent) : List DnsEvent :=
  events.takeWhile (· ≠ .upstreamTimeout)

/-- Asking upstream fails. -/
def DnsEvent.failing : DnsEvent → Bool
  | .upstreamSendError _ | .upstreamRecvError _ | .dohError _ | .dohTimeout => true
  | _ => false

/-- The reply that a turn reads, if it reads one, where some datagrams are queued already. -/
def readReply (queue : List Bytes) : List DnsEvent → Option Bytes
  | [] => none
  | .upstreamArrives datagram :: events => readReply (queue ++ [datagram]) events
  | .upstreamRecv :: _ => queue.head?.map (·.take maxDnsPacket)
  | .dohAnswer data :: _ => some data
  | .upstreamSendError _ :: _ | .upstreamRecvError _ :: _ | .upstreamTimeout :: _
  | .dohError _ :: _ | .dohTimeout :: _ => none
  | .packet _ _ :: events | .recvError _ :: events | .upstreamSent :: events =>
      readReply queue events

theorem beforeTimeout_append_of_mem {front : List DnsEvent} (timeout : .upstreamTimeout ∈ front)
    (back : List DnsEvent) : beforeTimeout (front ++ back) = beforeTimeout front := by
  induction front with
  | nil => cases timeout
  | cons event front ih =>
      by_cases last : event = .upstreamTimeout
      · simp [beforeTimeout, last]
      · have later := ih ((List.mem_cons.mp timeout).resolve_left (Ne.symm last))
        simpa [beforeTimeout, last] using later

theorem beforeTimeout_prefix_append (front back : List DnsEvent) :
    beforeTimeout front <+: beforeTimeout (front ++ back) := by
  unfold beforeTimeout
  rw [List.takeWhile_append]
  split
  · rename_i whole
    rw [(List.takeWhile_prefix _).eq_of_length whole]
    exact List.prefix_append _ _
  · exact List.prefix_rfl

namespace DnsFilterConfig

variable {config : DnsFilterConfig} {forwarding : Forwarding} {s t : DnsState}
  {turn : List DnsEvent} {mine outputs : List DnsEffect} {status : Status DnsState Empty}

/-- While it listens, the loop does nothing that counts until the next packet. -/
theorem quiet_of_listening (execution : config.runDnsFilter.Run s turn outputs status)
    (listening : s.phase = .listening) (alone : ∀ datagram client, .packet datagram client ∉ turn) :
    decided outputs = [] ∧ ∀ event ∈ turn, event.failing = false := by
  induction execution with
  | stop state => simp
  | @step state next event events outputs later status polled reacts _ ih =>
      obtain ⟨phase, queue⟩ := state
      obtain rfl : phase = .listening := listening
      have rest_alone : ∀ datagram client, .packet datagram client ∉ events :=
        fun datagram client mem => alone datagram client (List.mem_cons_of_mem _ mem)
      cases event with
      | packet datagram client => exact absurd List.mem_cons_self (alone datagram client)
      | upstreamArrives datagram =>
          cases reacts
          obtain ⟨quiet, works⟩ := ih rfl rest_alone
          exact ⟨quiet, List.forall_mem_cons.mpr ⟨rfl, works⟩⟩
      | recvError error =>
          cases reacts
          obtain ⟨quiet, works⟩ := ih rfl rest_alone
          exact ⟨by simp [quiet, DnsEffect.decides], List.forall_mem_cons.mpr ⟨rfl, works⟩⟩
      | _ => cases polled
  | halt _ _ => contradiction

/-- How the turn of a forwarded query ends. -/
inductive Outcome (config : DnsFilterConfig) (forwarding : Forwarding) (s : DnsState)
    (turn : List DnsEvent) (mine : List DnsEffect) : Prop
  | failed {event : DnsEvent} (mem : event ∈ turn) (failing : event.failing = true)
      (nothing : readReply s.upstreamQueue turn = none) (silent : decided mine = [])
  | timedOut (mem : .upstreamTimeout ∈ turn) (empty : available s (beforeTimeout turn) = [])
      (nothing : readReply s.upstreamQueue turn = none) (silent : decided mine = [])
  | received {reply : Bytes} {others : List Bytes}
      (front : available s (beforeTimeout turn) = reply :: others)
      (works : ∀ event ∈ turn, event.failing = false)
      (reads : readReply s.upstreamQueue turn = some reply)
      (delivers : decided mine = decided (config.deliver forwarding reply))
  | answered {url : Str} {reply : Bytes} (asked : s.phase = .querying url forwarding)
      (reads : readReply s.upstreamQueue turn = some reply)
      (delivers : decided mine = decided (config.deliver forwarding reply))

theorem Outcome.later {event : DnsEvent} {s' : DnsState}
    (outcome : Outcome config forwarding s' turn mine) (works : event.failing = false)
    (same : available s (beforeTimeout (event :: turn)) = available s' (beforeTimeout turn))
    (reading : readReply s.upstreamQueue (event :: turn) = readReply s'.upstreamQueue turn)
    (asking : ∀ url, s'.phase = .querying url forwarding → s.phase = .querying url forwarding) :
    Outcome config forwarding s (event :: turn) ([] ++ mine) := by
  cases outcome with
  | failed mem failing nothing silent =>
      exact .failed (List.mem_cons_of_mem _ mem) failing (reading.trans nothing) silent
  | timedOut mem empty nothing silent =>
      exact .timedOut (List.mem_cons_of_mem _ mem) (same.trans empty) (reading.trans nothing) silent
  | received front works' reads delivers =>
      exact .received (same.trans front) (List.forall_mem_cons.mpr ⟨works, works'⟩)
        (reading.trans reads) delivers
  | answered asked reads delivers =>
      exact .answered (asking _ asked) (reading.trans reads) delivers

/-- The turn of a forwarded query ends when asking upstream fails, when nothing is there in time, or
with the delivery of a reply: over UDP that is the first datagram. -/
theorem outcome_of_turn (handling : config.runDnsFilter.Run s turn mine (.running t))
    (busy : s.phase.forwarding? = some forwarding)
    (alone : ∀ datagram client, .packet datagram client ∉ turn) (done : t.phase = .listening) :
    Outcome config forwarding s turn mine := by
  generalize status_eq : Status.running t = status at handling
  induction handling with
  | stop state =>
      cases status_eq
      rw [done] at busy
      cases busy
  | @step state next event events outputs later status polled reacts rest ih =>
      obtain ⟨phase, queue⟩ := state
      have rest_alone : ∀ datagram client, .packet datagram client ∉ events :=
        fun datagram client mem => alone datagram client (List.mem_cons_of_mem _ mem)
      have quiet (listening : next.phase = .listening) :=
        quiet_of_listening rest listening rest_alone
      cases event with
      | packet datagram client => exact absurd List.mem_cons_self (alone datagram client)
      | upstreamArrives datagram =>
          cases reacts
          refine (ih busy rest_alone status_eq).later rfl ?_ rfl fun _ asked => asked
          simp [available, beforeTimeout, upstreamReplies]
      | recvError error =>
          cases phase with
          | listening => cases busy
          | _ => cases polled
      | upstreamSent =>
          cases phase with
          | sending asked =>
              obtain rfl : asked = forwarding := Option.some.inj busy
              cases reacts
              refine (ih rfl rest_alone status_eq).later rfl rfl rfl ?_
              rintro url ⟨⟩
          | _ => cases polled
      | upstreamSendError error =>
          cases phase with
          | sending asked =>
              cases reacts
              exact .failed List.mem_cons_self rfl rfl (by simp [(quiet rfl).1, DnsEffect.decides])
          | _ => cases polled
      | upstreamRecvError error =>
          cases phase with
          | receiving asked =>
              cases reacts
              exact .failed List.mem_cons_self rfl rfl (by simp [(quiet rfl).1, DnsEffect.decides])
          | _ => cases polled
      | dohError error =>
          cases phase with
          | querying url asked =>
              cases reacts
              exact .failed List.mem_cons_self rfl rfl (by simp [(quiet rfl).1, DnsEffect.decides])
          | _ => cases polled
      | dohTimeout =>
          cases phase with
          | querying url asked =>
              cases reacts
              exact .failed List.mem_cons_self rfl rfl (by simp [(quiet rfl).1, DnsEffect.decides])
          | _ => cases polled
      | upstreamTimeout =>
          cases phase with
          | receiving asked =>
              have empty : queue = [] := List.isEmpty_iff.mp polled
              cases reacts
              refine .timedOut List.mem_cons_self ?_ rfl
                (by simp [(quiet rfl).1, DnsEffect.decides])
              simp [available, beforeTimeout, empty]
          | _ => cases polled
      | upstreamRecv =>
          cases phase with
          | receiving asked =>
              obtain rfl : asked = forwarding := Option.some.inj busy
              cases queue with
              | nil => cases polled
              | cons datagram queue =>
                  cases reacts
                  exact .received rfl (List.forall_mem_cons.mpr ⟨rfl, (quiet rfl).2⟩) rfl
                    (by rw [decided_append, (quiet rfl).1, List.append_nil])
          | _ => cases polled
      | dohAnswer data =>
          cases phase with
          | querying url asked =>
              obtain rfl : asked = forwarding := Option.some.inj busy
              cases reacts
              exact .answered rfl rfl (by rw [decided_append, (quiet rfl).1, List.append_nil])
          | _ => cases polled
  | halt _ _ => contradiction

theorem replies_processDnsQuery (config : DnsFilterConfig) (queryData : Bytes) :
    replies (config.processDnsQuery queryData).1 = [] := by
  unfold processDnsQuery
  split
  · rfl
  · split
    · rfl
    · dsimp only
      split
      · split <;> simp [DnsEffect.sent]
      · rfl

/-- A packet is answered by the filter itself, or forwarded and then answered with what its turn
reads. -/
theorem handled_packet {datagram : Bytes} {client : SocketAddr}
    (handling : config.runDnsFilter.Run s (.packet datagram client :: turn) mine (.running t))
    (alone : ∀ datagram client, .packet datagram client ∉ turn) (done : t.phase = .listening) :
    ∃ effects, (∃ response,
        config.processDnsQuery (datagram.take maxDnsPacket) = (effects, some response) ∧
        decided mine = decided effects ++ [.sendTo client response]) ∨
      config.processDnsQuery (datagram.take maxDnsPacket) = (effects, none) ∧
        ∃ waiting later, waiting.upstreamQueue = s.upstreamQueue ∧
          (config.upstreamDoh = none → ∀ url forwarding, waiting.phase ≠ .querying url forwarding) ∧
          decided mine = decided effects ++ decided later ∧
          Outcome config ⟨datagram.take maxDnsPacket, client,
            config.queryNameOf (datagram.take maxDnsPacket)⟩ waiting turn later := by
  cases handling with
  | step polled reacts following =>
      obtain ⟨listening, reaction⟩ := packet_polled polled
      rw [reaction, onPacket] at reacts
      rcases process : config.processDnsQuery (datagram.take maxDnsPacket) with ⟨effects, answer⟩
      rw [process] at reacts
      refine ⟨effects, ?_⟩
      cases answer with
      | some response =>
          cases reacts
          have quiet := (quiet_of_listening following listening alone).1
          exact .inl ⟨response, rfl, by simp [quiet, DnsEffect.decides]⟩
      | none =>
          refine .inr ⟨rfl, ?_⟩
          cases upstream : config.upstreamDoh with
          | some url =>
              simp only [upstream] at reacts
              cases reacts
              have outcome := outcome_of_turn following rfl alone done
              refine ⟨_, _, ?_, ?_, ?_, outcome⟩
              · rfl
              · rintro ⟨⟩
              · simp [DnsEffect.decides]
          | none =>
              simp only [upstream] at reacts
              cases reacts
              have outcome := outcome_of_turn following rfl alone done
              refine ⟨_, _, ?_, ?_, ?_, outcome⟩
              · rfl
              · rintro - url forwarding ⟨⟩
              · simp [DnsEffect.decides]

end DnsFilterConfig

end PrivacyEngine
