import Mathlib.Algebra.Order.BigOperators.Group.List
import Mathlib.Algebra.Order.Group.Nat
import Mathlib.Algebra.Ring.Nat
import Mathlib.Data.List.Perm.Basic
import PrivacyEngine.Reactive
import PrivacyEngine.Retention
import PrivacyEngine.Store.Persist
import PrivacyEngine.Wire.Text

/-!
# Statistics of the DoH server

`record_query` counts a query in an atomic counter and then, under a lock, in the entry of its
client; every 256th query also drops the clients that have been silent for a day, and so does every
snapshot.  Calls interleave between the counter and the lock.  The table is one with retention, so
what a snapshot shows can be read off the queries recorded: it never shows more than was asked,
nothing is lost while no client goes silent, and it shows exactly the clients of the last day.
-/

namespace PrivacyEngine

open Wire Reactive

/-- Nanoseconds of a second, the unit of clock readings. -/
def nanosPerSec : Nat := 1000000000

/-- `DOH_CLIENT_STALE_SECS` as a duration. -/
def dohClientStale : Nat := 24 * 60 * 60 * nanosPerSec

/-- `duration_since`, or no time when the clock has gone back. -/
def durationSince (now earlier : Int) : Nat := (now - earlier).toNat

structure DohClientEntry where
  queryTotal : UInt64
  lastSeen : Int
  deriving DecidableEq

abbrev DohClients := StrMap DohClientEntry

structure DohStats where
  queryTotal : UInt64 := 0
  clients : DohClients := ∅

structure DohClientSnapshot where
  clientIp : Str
  queryTotal : UInt64
  lastSeenUnix : UInt64
  deriving DecidableEq

structure DohStatsSnapshot where
  dohQueryTotal : UInt64
  dohUniqueClientTotal : UInt64
  topClients : List DohClientSnapshot
  deriving DecidableEq

namespace DohStats

def pruneLocked (clients : DohClients) (now : Int) (maxAge : Nat) : DohClients :=
  clients.filter fun _ entry => decide (durationSince now entry.lastSeen ≤ maxAge)

/-- A `record_query` call that has incremented the counter and waits for the lock. -/
structure RecordCall where
  clientIp : Str
  now : Int
  total : UInt64
  deriving DecidableEq

/-- Count a query of a client. -/
def countQuery (clients : DohClients) (call : RecordCall) : DohClients :=
  let entry := clients[call.clientIp]?.getD ⟨0, call.now⟩
  clients.insert call.clientIp ⟨saturatingAdd entry.queryTotal 1, call.now⟩

/-- What `record_query` does under the lock. -/
def recordLocked (clients : DohClients) (call : RecordCall) : DohClients :=
  if call.total % 256 = 0 then pruneLocked (countQuery clients call) call.now dohClientStale
  else countQuery clients call

/-! ## Ranking -/

/-- Clients with more queries come first, and among equals those with the smaller address. -/
def ranksBefore (a b : DohClientSnapshot) : Bool :=
  decide (b.queryTotal < a.queryTotal ∨ b.queryTotal = a.queryTotal ∧ a.clientIp ≤ b.clientIp)

/-- Seconds since the epoch, none before it. -/
def unixSecs (time : Int) : UInt64 := UInt64.ofNat (time.toNat / nanosPerSec)

def clientSnapshot (client : Str × DohClientEntry) : DohClientSnapshot where
  clientIp := client.1
  queryTotal := client.2.queryTotal
  lastSeenUnix := unixSecs client.2.lastSeen

/-- The first clients of a table iterated in some order. -/
def topClients (entries : List (Str × DohClientEntry)) (topN : Nat) : List DohClientSnapshot :=
  ((entries.map clientSnapshot).mergeSort ranksBefore).take topN

def snapshot (stats : DohStats) (topN : Nat) (now : Int) : DohStats × DohStatsSnapshot :=
  let clients := pruneLocked stats.clients now dohClientStale
  ({ stats with clients },
    { dohQueryTotal := stats.queryTotal
      dohUniqueClientTotal := UInt64.ofNat clients.size
      topClients := topClients clients.toList topN })

/-! ## Concurrent callers -/

/-- The statistics and the calls that wait for the lock. -/
structure State where
  stats : DohStats := {}
  calls : List RecordCall := []

/-- A call starts, a waiting call gets the lock, or a snapshot is taken; a clock reading may be
anything. -/
inductive Event where
  | recordQuery (clientIp : Str) (now : Int)
  | lock (call : Nat)
  | snapshot (topN : Nat) (now : Int)
  deriving DecidableEq

/-- What is done to the table, and what a snapshot returns. -/
inductive Output where
  | table (op : Retention.Op Str Int)
  | taken (snapshot : DohStatsSnapshot)
  deriving DecidableEq

/-- Operations of a call that has got the lock. -/
def lockedOps (call : RecordCall) : List (Retention.Op Str Int) :=
  .touch call.clientIp call.now :: if call.total % 256 = 0 then [.prune call.now] else []

def react (s : State) : Event → Reaction State Output Empty
  | .recordQuery clientIp now =>
      let total := s.stats.queryTotal + 1
      ⟨[], .running
        { stats := { s.stats with queryTotal := total }
          calls := s.calls ++ [⟨clientIp, now, total⟩] }⟩
  | .lock i =>
      match s.calls[i]? with
      | some call =>
          ⟨(lockedOps call).map .table, .running
            { stats := { s.stats with clients := recordLocked s.stats.clients call }
              calls := s.calls.eraseIdx i }⟩
      | none => ⟨[], .running s⟩
  | .snapshot topN now =>
      let taken := s.stats.snapshot topN now
      ⟨[.table (.prune now), .taken taken.2], .running { s with stats := taken.1 }⟩

/-- Concurrent use of the statistics. -/
def service : Machine State Event Output Empty where
  polls s
    | .lock i => decide (i < s.calls.length)
    | _ => true
  react := react

/-! ## The table is one with retention -/

/-- A client that has been silent for too long. -/
def stale (now last : Int) : Bool := decide (dohClientStale < durationSince now last)

/-- The entry of a client that has been counted so often. -/
def entryOf (entry : Retention.Entry Int) : DohClientEntry where
  queryTotal := UInt64.ofNat (min entry.count (UInt64.size - 1))
  lastSeen := entry.last

/-- The operations in a trace. -/
def ops (outputs : List Output) : List (Retention.Op Str Int) :=
  outputs.filterMap fun
    | .table op => some op
    | .taken _ => none

/-- The table holds what its operations leave. -/
def Represents (clients : DohClients) (ops : List (Retention.Op Str Int)) : Prop :=
  ∀ clientIp, clients[clientIp]? = (Retention.held stale clientIp ops).map entryOf

theorem toNat_entryOf (entry : Retention.Entry Int) :
    (entryOf entry).queryTotal.toNat = min entry.count (UInt64.size - 1) :=
  UInt64.toNat_ofNat_of_lt' (Nat.lt_of_le_of_lt (Nat.min_le_right ..) (by decide))

theorem entryOf_succ (count : Nat) (before last : Int) :
    saturatingAdd (entryOf ⟨count, before⟩).queryTotal 1 =
      (entryOf ⟨count + 1, last⟩).queryTotal := by
  have value := toNat_entryOf ⟨count, before⟩
  apply UInt64.toNat_inj.mp
  rw [toNat_entryOf]
  by_cases fits : (entryOf ⟨count, before⟩).queryTotal.toNat + (1 : UInt64).toNat < UInt64.size
  · rw [toNat_saturatingAdd fits]
    have one : (1 : UInt64).toNat = 1 := rfl
    rw [one] at fits ⊢
    dsimp only at value ⊢
    omega
  · rw [saturatingAdd, if_neg fits]
    have one : (1 : UInt64).toNat = 1 := rfl
    have top : (UInt64.ofNat (UInt64.size - 1)).toNat = UInt64.size - 1 := rfl
    rw [one] at fits
    rw [top]
    dsimp only at value ⊢
    omega

theorem Represents.touch {clients : DohClients} {done : List (Retention.Op Str Int)}
    (represents : Represents clients done) (call : RecordCall) :
    Represents (countQuery clients call) (done ++ [.touch call.clientIp call.now]) := by
  intro clientIp
  rw [countQuery, StrMap.getElem?_insert, Retention.held_snoc, Retention.apply]
  split
  · rename_i same
    rw [represents call.clientIp, same]
    cases Retention.held stale clientIp done with
    | none => rfl
    | some entry =>
        rw [Option.map_some, Option.getD_some, entryOf_succ entry.count entry.last call.now]
        rfl
  · exact represents clientIp

theorem Represents.prune {clients : DohClients} {done : List (Retention.Op Str Int)}
    (represents : Represents clients done) (now : Int) :
    Represents (pruneLocked clients now dohClientStale) (done ++ [.prune now]) := by
  intro clientIp
  have filtered : (pruneLocked clients now dohClientStale)[clientIp]? =
      clients[clientIp]?.filter fun entry =>
        decide (durationSince now entry.lastSeen ≤ dohClientStale) :=
    Std.ExtTreeMap.getElem?_filter'
  rw [filtered, represents clientIp, Retention.held_snoc, Retention.apply]
  cases Retention.held stale clientIp done with
  | none => rfl
  | some entry =>
      have same : decide (durationSince now entry.last ≤ dohClientStale) =
        !stale now entry.last := by
        rw [stale, ← decide_not]
        simp only [not_lt]
      simp only [Option.map_some, Option.filter_some, entryOf, same]
      cases stale now entry.last <;> rfl

theorem Represents.lock {clients : DohClients} {done : List (Retention.Op Str Int)}
    (represents : Represents clients done) (call : RecordCall) :
    Represents (recordLocked clients call) (done ++ lockedOps call) := by
  unfold recordLocked lockedOps
  split
  · rw [← List.singleton_append, ← List.append_assoc]
    exact (represents.touch call).prune call.now
  · exact represents.touch call

@[simp]
theorem ops_append (left right : List Output) :
    ops (left ++ right) = ops left ++ ops right :=
  List.filterMap_append

@[simp] theorem ops_tables (done : List (Retention.Op Str Int)) : ops (done.map .table) = done := by
  rw [ops, List.filterMap_map]
  exact List.filterMap_some

/-! ## What a run records -/

/-- Queries in the order they are counted. -/
def queries (events : List Event) : List Str :=
  events.filterMap fun
    | .recordQuery clientIp _ => some clientIp
    | _ => none

/-- Clock readings of the events. -/
def readings (events : List Event) : List Int :=
  events.filterMap fun
    | .recordQuery _ now | .snapshot _ now => some now
    | .lock _ => none

/-- What is known of a state: the table holds what has been done to it, every query counted is done
or waiting, and all times are clock readings. -/
structure Accounts (events : List Event) (outputs : List Output) (s : State) : Prop where
  represents : Represents s.stats.clients (ops outputs)
  total : s.stats.queryTotal = UInt64.ofNat (queries events).length
  asked : (Retention.touched (ops outputs) ++ s.calls.map RecordCall.clientIp).Perm (queries events)
  waiting : ∀ call ∈ s.calls, call.now ∈ readings events
  touched : ∀ clientIp, ∀ time ∈ Retention.touches clientIp (ops outputs), time ∈ readings events
  pruned : ∀ time ∈ Retention.prunes (ops outputs), time ∈ readings events

@[simp] theorem queries_append (left right : List Event) :
    queries (left ++ right) = queries left ++ queries right := List.filterMap_append

@[simp] theorem readings_append (left right : List Event) :
    readings (left ++ right) = readings left ++ readings right := List.filterMap_append

theorem touches_lockedOps {clientIp : Str} {call : RecordCall} {time : Int}
    (mem : time ∈ Retention.touches clientIp (lockedOps call)) : time = call.now := by
  obtain ⟨op, op_mem, touch⟩ := List.mem_filterMap.mp mem
  unfold lockedOps at op_mem
  rcases List.mem_cons.mp op_mem with rfl | rest
  · rw [Retention.Op.touches] at touch
    split at touch
    · exact (Option.some.inj touch).symm
    · cases touch
  · split at rest
    · rw [List.mem_singleton.mp rest] at touch
      cases touch
    · cases rest

theorem prunes_lockedOps {call : RecordCall} {time : Int}
    (mem : time ∈ Retention.prunes (lockedOps call)) : time = call.now := by
  obtain ⟨op, op_mem, prune⟩ := List.mem_filterMap.mp mem
  unfold lockedOps at op_mem
  rcases List.mem_cons.mp op_mem with rfl | rest
  · cases prune
  · split at rest
    · rw [List.mem_singleton.mp rest] at prune
      exact (Option.some.inj prune).symm
    · cases rest

theorem touched_lockedOps (call : RecordCall) :
    Retention.touched (lockedOps call) = [call.clientIp] := by
  unfold lockedOps
  split <;> rfl

variable {events : List Event} {outputs now : List Output} {s t : State}

theorem Accounts.recordQuery {clientIp : Str} {time : Int} (accounts : Accounts events outputs s)
    (reacts : react s (.recordQuery clientIp time) = ⟨now, .running t⟩) :
    Accounts (events ++ [.recordQuery clientIp time]) (outputs ++ now) t := by
  cases reacts
  obtain ⟨represents, total, asked, waiting, touched, pruned⟩ := accounts
  have more : ∀ {reading}, reading ∈ readings events →
      reading ∈ readings (events ++ [.recordQuery clientIp time]) := fun mem => by
    rw [readings_append]
    exact List.mem_append_left _ mem
  constructor
  case represents => simpa using represents
  case total =>
    dsimp only
    rw [total, queries_append, List.length_append]
    exact (UInt64.ofNat_add _ _).symm
  case asked =>
    rw [List.append_nil, List.map_append, ← List.append_assoc, queries_append]
    exact asked.append_right _
  case waiting =>
    intro call mem
    rcases List.mem_append.mp mem with before | added
    · exact more (waiting call before)
    · rw [List.mem_singleton.mp added, readings_append]
      exact List.mem_append_right _ List.mem_cons_self
  case touched =>
    rw [List.append_nil]
    exact fun clientIp reading mem => more (touched clientIp reading mem)
  case pruned =>
    rw [List.append_nil]
    exact fun reading mem => more (pruned reading mem)

theorem Accounts.lock {i : Nat} (accounts : Accounts events outputs s) (waits : i < s.calls.length)
    (reacts : react s (.lock i) = ⟨now, .running t⟩) :
    Accounts (events ++ [.lock i]) (outputs ++ now) t := by
  obtain ⟨represents, total, asked, waiting, touched, pruned⟩ := accounts
  have call_mem : s.calls[i] ∈ s.calls := List.getElem_mem waits
  have same_readings : readings (events ++ [.lock i]) = readings events := by
    rw [readings_append]
    exact List.append_nil _
  have same_queries : queries (events ++ [.lock i]) = queries events := by
    rw [queries_append]
    exact List.append_nil _
  rw [react, List.getElem?_eq_getElem waits] at reacts
  cases reacts
  constructor
  case represents =>
    rw [ops_append, ops_tables]
    exact represents.lock _
  case total =>
    rw [same_queries]
    exact total
  case asked =>
    rw [same_queries, ops_append, ops_tables, Retention.touched_append, touched_lockedOps,
      List.append_assoc]
    refine (List.Perm.append_left _ ?_).trans asked
    rw [List.singleton_append, ← List.map_cons (f := RecordCall.clientIp)]
    exact (List.getElem_cons_eraseIdx_perm waits).map _
  case waiting =>
    rw [same_readings]
    exact fun call mem => waiting call (List.mem_of_mem_eraseIdx mem)
  case touched =>
    rw [same_readings, ops_append, ops_tables]
    intro clientIp time mem
    rw [Retention.touches_append] at mem
    rcases List.mem_append.mp mem with before | added
    · exact touched clientIp time before
    · exact touches_lockedOps added ▸ waiting _ call_mem
  case pruned =>
    rw [same_readings, ops_append, ops_tables]
    intro time mem
    rw [Retention.prunes_append] at mem
    rcases List.mem_append.mp mem with before | added
    · exact pruned time before
    · exact prunes_lockedOps added ▸ waiting _ call_mem

theorem Accounts.snapshot {topN : Nat} {time : Int} (accounts : Accounts events outputs s)
    (reacts : react s (.snapshot topN time) = ⟨now, .running t⟩) :
    Accounts (events ++ [.snapshot topN time]) (outputs ++ now) t := by
  cases reacts
  obtain ⟨represents, total, asked, waiting, touched, pruned⟩ := accounts
  have more : ∀ {reading}, reading ∈ readings events →
      reading ∈ readings (events ++ [.snapshot topN time]) := fun mem => by
    rw [readings_append]
    exact List.mem_append_left _ mem
  have same_queries : queries (events ++ [.snapshot topN time]) = queries events := by
    rw [queries_append]
    exact List.append_nil _
  have done :
      ops [.table (.prune time), .taken (s.stats.snapshot topN time).2] = [.prune time] := rfl
  constructor
  case represents =>
    rw [ops_append, done]
    exact represents.prune time
  case total =>
    rw [same_queries]
    exact total
  case asked =>
    have silent : Retention.touched [Retention.Op.prune (κ := Str) time] = [] := rfl
    rw [same_queries, ops_append, done, Retention.touched_append, silent, List.append_nil]
    exact asked
  case waiting => exact fun call mem => more (waiting call mem)
  case touched =>
    rw [ops_append, done]
    intro clientIp reading mem
    rw [Retention.touches_append] at mem
    rcases List.mem_append.mp mem with before | added
    · exact more (touched clientIp reading before)
    · cases added
  case pruned =>
    rw [ops_append, done]
    intro reading mem
    rw [Retention.prunes_append] at mem
    rcases List.mem_append.mp mem with before | added
    · exact more (pruned reading before)
    · rw [List.mem_singleton.mp added, readings_append]
      exact List.mem_append_right _ List.mem_cons_self

/-- Every state of a run is accounted for. -/
theorem accounts_of_run (execution : service.Run {} events outputs (.running s)) :
    Accounts events outputs s := by
  refine execution.history Accounts ?_ ?_
  · refine ⟨fun clientIp => ?_, rfl, List.Perm.refl _, nofun, nofun, nofun⟩
    exact Std.ExtTreeMap.getElem?_empty
  · intro events outputs s event now t front accounts polled reacts
    cases event with
    | recordQuery clientIp time => exact accounts.recordQuery reacts
    | lock i => exact accounts.lock (of_decide_eq_true polled) reacts
    | snapshot topN time => exact accounts.snapshot reacts

/-! ## Counts -/

/-- Queries of a client that are counted but wait for the lock. -/
def pending (s : State) (clientIp : Str) : Nat := (s.calls.map RecordCall.clientIp).count clientIp

/-- The count of a client, none for a client without an entry. -/
def counted (s : State) (clientIp : Str) : Nat :=
  (s.stats.clients[clientIp]?.elim 0 DohClientEntry.queryTotal).toNat

/-- All clock readings lie within the time after which a client is dropped. -/
def WithinOneDay (events : List Event) : Prop :=
  ∀ earlier ∈ readings events, ∀ later ∈ readings events,
    durationSince later earlier ≤ dohClientStale

instance (events : List Event) : Decidable (WithinOneDay events) :=
  inferInstanceAs (Decidable (∀ earlier ∈ readings events, ∀ later ∈ readings events,
    durationSince later earlier ≤ dohClientStale))

theorem Accounts.counted_add_pending (accounts : Accounts events outputs s) (clientIp : Str) :
    (Retention.touches clientIp (ops outputs)).length + pending s clientIp =
      (queries events).count clientIp := by
  rw [Retention.length_touches, pending, ← List.count_append]
  exact accounts.asked.count_eq clientIp

theorem Accounts.counted_le (accounts : Accounts events outputs s) (clientIp : Str) :
    counted s clientIp ≤ (Retention.touches clientIp (ops outputs)).length := by
  rw [counted, accounts.represents clientIp]
  cases holds : Retention.held stale clientIp (ops outputs) with
  | none => exact Nat.zero_le _
  | some entry =>
      have below := (Retention.held_spec holds).2.1
      rw [Option.map_some, Option.elim_some, toNat_entryOf]
      exact (Nat.min_le_left _ _).trans below

/-- The total is the number of queries asked; no client is counted more often than it has asked,
and every query is counted or waiting for the lock as long as nobody can have gone silent. -/
theorem queries_accounted (execution : service.Run {} events outputs (.running s)) :
    s.stats.queryTotal = UInt64.ofNat (queries events).length ∧
      (∀ clientIp, counted s clientIp + pending s clientIp ≤ (queries events).count clientIp) ∧
      (WithinOneDay events → (queries events).length < UInt64.size →
        ∀ clientIp, counted s clientIp + pending s clientIp = (queries events).count clientIp) := by
  have accounts := accounts_of_run execution
  refine ⟨accounts.total, fun clientIp => ?_, fun calm few clientIp => ?_⟩
  · rw [← accounts.counted_add_pending clientIp]
    exact Nat.add_le_add_right (accounts.counted_le clientIp) _
  · have asked := accounts.counted_add_pending clientIp
    rw [← asked]
    congr 1
    have fresh : Retention.held stale clientIp (ops outputs) =
        (Retention.touches clientIp (ops outputs)).getLast?.map fun last =>
          ⟨(Retention.touches clientIp (ops outputs)).length, last⟩ :=
      Retention.held_of_fresh fun now pruned last touch => by
        have near := calm last (accounts.touched clientIp last touch) now
          (accounts.pruned now pruned)
        simpa [stale] using near
    rw [counted, accounts.represents clientIp, fresh]
    cases touch : (Retention.touches clientIp (ops outputs)).getLast? with
    | none => simp [List.getLast?_eq_none_iff.mp touch]
    | some last =>
        have bounded := List.count_le_length (l := queries events) (a := clientIp)
        rw [Option.map_some, Option.map_some, Option.elim_some, toNat_entryOf]
        dsimp only
        omega

/-- Two clients ask, one of them twice and across a snapshot. -/
def queriesOfTwo : List Event :=
  [.recordQuery (ascii "10.0.0.1") 0, .recordQuery (ascii "10.0.0.2") 1, .lock 1, .snapshot 10 3,
    .lock 0, .recordQuery (ascii "10.0.0.1") 4]

theorem queriesOfTwo_run :
    ∃ outputs s, service.Run {} queriesOfTwo outputs (.running s) := by
  have executes : (service.run {} queriesOfTwo).map
      (fun reaction => reaction.status.state?.isSome) = some true := by
    decide +kernel
  obtain ⟨outputs, status, execution, observed⟩ := Machine.exists_run _ _ _ _ executes
  obtain ⟨s, goes_on⟩ := Option.isSome_iff_exists.mp observed
  obtain rfl := Status.eq_running goes_on
  exact ⟨outputs, s, execution⟩

theorem queriesOfTwo_accounted :
    ∃ outputs s, service.Run {} queriesOfTwo outputs (.running s) ∧
      ∀ clientIp, counted s clientIp + pending s clientIp =
        (queries queriesOfTwo).count clientIp := by
  obtain ⟨outputs, s, execution⟩ := queriesOfTwo_run
  exact ⟨outputs, s, execution,
    (queries_accounted execution).2.2 (by decide +kernel) (by decide +kernel)⟩

/-! ## Snapshots -/

/-- Times at which queries of a client have been recorded. -/
def recorded (clientIp : Str) (outputs : List Output) : List Int :=
  Retention.touches clientIp (ops outputs)

theorem ranksBefore_iff {a b : DohClientSnapshot} : ranksBefore a b = true ↔
    b.queryTotal < a.queryTotal ∨ b.queryTotal = a.queryTotal ∧ a.clientIp ≤ b.clientIp :=
  decide_eq_true_iff

theorem ranksBefore_trans {a b c : DohClientSnapshot} (first : ranksBefore a b = true)
    (second : ranksBefore b c = true) : ranksBefore a c = true := by
  rw [ranksBefore_iff] at *
  rcases first with more | ⟨same, before⟩
  · rcases second with more' | ⟨same', -⟩
    · exact .inl (UInt64.lt_trans more' more)
    · exact .inl (same' ▸ more)
  · rcases second with more' | ⟨same', before'⟩
    · exact .inl (same ▸ more')
    · exact .inr ⟨same'.trans same, List.le_trans before before'⟩

theorem ranksBefore_total (a b : DohClientSnapshot) :
    (ranksBefore a b || ranksBefore b a) = true := by
  rw [Bool.or_eq_true, ranksBefore_iff, ranksBefore_iff]
  rcases Nat.lt_trichotomy a.queryTotal.toNat b.queryTotal.toNat with less | same | more
  · exact .inr (.inl (UInt64.lt_iff_toNat_lt.mpr less))
  · have equal := UInt64.toNat_inj.mp same
    rcases List.le_total a.clientIp b.clientIp with before | behind
    · exact .inl (.inr ⟨equal.symm, before⟩)
    · exact .inr (.inr ⟨equal, behind⟩)
  · exact .inl (.inl (UInt64.lt_iff_toNat_lt.mpr more))

/-- Clients that rank before each other have the same address. -/
theorem clientIp_of_ranksBefore {a b : DohClientSnapshot} (first : ranksBefore a b = true)
    (second : ranksBefore b a = true) : a.clientIp = b.clientIp := by
  rw [ranksBefore_iff] at *
  rcases first with more | ⟨same, before⟩
  · rcases second with less | ⟨same, -⟩
    · exact absurd (UInt64.lt_trans more less) (UInt64.lt_irrefl _)
    · exact absurd (same ▸ more) (UInt64.lt_irrefl _)
  · rcases second with less | ⟨-, behind⟩
    · exact absurd (same ▸ less) (UInt64.lt_irrefl _)
    · exact List.le_antisymm before behind

theorem pairwise_ranked (entries : List (Str × DohClientEntry)) :
    ((entries.map clientSnapshot).mergeSort ranksBefore).Pairwise (ranksBefore · · = true) := by
  have trans : ∀ a b c, ranksBefore a b = true → ranksBefore b c = true → ranksBefore a c = true :=
    fun _ _ _ => ranksBefore_trans
  exact List.pairwise_mergeSort trans ranksBefore_total _

/-- The ranking does not depend on the order in which the table is iterated. -/
theorem topClients_perm {entries entries' : List (Str × DohClientEntry)}
    (distinct : (entries.map Prod.fst).Nodup) (same : entries.Perm entries') (topN : Nat) :
    topClients entries topN = topClients entries' topN := by
  have sorted : (entries.map clientSnapshot).mergeSort ranksBefore =
      (entries'.map clientSnapshot).mergeSort ranksBefore := by
    refine List.Perm.eq_of_pairwise ?_ (pairwise_ranked entries) (pairwise_ranked entries') ?_
    · intro a b a_mem b_mem first second
      rw [List.mem_mergeSort] at a_mem b_mem
      obtain ⟨client, client_mem, rfl⟩ := List.mem_map.mp a_mem
      obtain ⟨client', client_mem', rfl⟩ := List.mem_map.mp b_mem
      have address : client.1 = client'.1 := clientIp_of_ranksBefore first second
      have same_client := List.inj_on_of_nodup_map distinct client_mem
        (same.mem_iff.mpr client_mem')
        address
      rw [same_client]
    · exact (List.mergeSort_perm _ _).trans
        ((same.map _).trans (List.mergeSort_perm _ _).symm)
  rw [topClients, topClients, sorted]

theorem distinct_clients (clients : DohClients) : (clients.toList.map Prod.fst).Nodup := by
  refine List.pairwise_map.mpr (Std.ExtTreeMap.distinct_keys_toList.imp ?_)
  intro a b differ same
  exact differ (same ▸ Std.ReflCmp.compare_self)

/-- The counts of all clients add up to at most the number of recorded queries. -/
theorem Represents.sum_le {clients : DohClients} {done : List (Retention.Op Str Int)}
    (represents : Represents clients done) :
    ((clients.toList.map clientSnapshot).map fun client => client.queryTotal.toNat).sum ≤
      (Retention.touched done).length := by
  refine le_trans ?_ (Retention.sum_counts_le (distinct_clients clients) done)
  rw [List.map_map, List.map_map]
  refine List.sum_le_sum fun client mem => ?_
  have held := Std.ExtTreeMap.mem_toList_iff_getElem?_eq_some.mp mem
  rw [represents client.1] at held
  obtain ⟨entry, holds, same⟩ := Option.map_eq_some_iff.mp held
  have below := (Retention.held_spec holds).2.1
  show client.2.queryTotal.toNat ≤ _
  rw [← same, toNat_entryOf]
  exact (Nat.min_le_left _ _).trans below

/-- What a snapshot that is taken behind all earlier clock readings shows: exactly the clients with
a query in the last day, ranked independently of the iteration order, those with most queries, and
together no more queries than were asked. -/
theorem snapshot_shows_last_day (execution : service.Run {} events outputs (.running s))
    {time : Int}
    (latest : ∀ reading ∈ readings events, reading ≤ time) (topN : Nat) :
    let taken := s.stats.snapshot topN time
    (∀ clientIp, clientIp ∈ taken.1.clients ↔
      ∃ last, (recorded clientIp outputs).getLast? = some last ∧
        durationSince time last ≤ dohClientStale) ∧
    (∀ entries, taken.1.clients.toList.Perm entries →
      taken.2.topClients = topClients entries topN) ∧
    taken.2.topClients.Pairwise (ranksBefore · · = true) ∧
    taken.2.topClients.length = min topN taken.1.clients.size ∧
    (∀ client ∈ taken.1.clients.toList, clientSnapshot client ∉ taken.2.topClients →
      ∀ shown ∈ taken.2.topClients, ranksBefore shown (clientSnapshot client) = true) ∧
    ((queries events).length < UInt64.size →
      (taken.2.topClients.map fun client => client.queryTotal.toNat).sum ≤
        taken.2.dohQueryTotal.toNat) := by
  have accounts := accounts_of_run execution
  have represents := accounts.represents.prune time
  have sorted := pairwise_ranked (pruneLocked s.stats.clients time dohClientStale).toList
  have split := List.take_append_drop topN
    (((pruneLocked s.stats.clients time dohClientStale).toList.map clientSnapshot).mergeSort
      ranksBefore)
  refine ⟨fun clientIp => ?_, fun entries same => topClients_perm (distinct_clients _) same topN,
    sorted.sublist (List.take_sublist _ _), ?_, ?_, fun few => ?_⟩
  · have monotone : ∀ earlier ∈ Retention.prunes (ops outputs), ∀ last,
        stale earlier last = true → stale time last = true := by
      intro earlier pruned last silent
      have order := latest earlier (accounts.pruned earlier pruned)
      rw [stale, decide_eq_true_eq, durationSince] at silent ⊢
      omega
    rw [Std.ExtTreeMap.mem_iff_isSome_getElem?]
    have shown := represents clientIp
    rw [show (s.stats.snapshot topN time).1.clients =
      pruneLocked s.stats.clients time dohClientStale from rfl, shown, Option.isSome_map,
      Retention.isSome_held_prune monotone]
    simp [recorded, stale]
  · show (List.take _ _).length = _
    rw [List.length_take, List.length_mergeSort, List.length_map, Std.ExtTreeMap.length_toList]
    rfl
  · intro client mem hidden shown shown_mem
    have listed : clientSnapshot client ∈ ((pruneLocked s.stats.clients time
        dohClientStale).toList.map clientSnapshot).mergeSort ranksBefore :=
      List.mem_mergeSort.mpr (List.mem_map_of_mem mem)
    rw [← split] at listed sorted
    rcases List.mem_append.mp listed with front | back
    · exact absurd front hidden
    · exact (List.pairwise_append.mp sorted).2.2 shown shown_mem _ back
  · have asked := accounts.asked.length_eq
    have touched : Retention.touched (ops outputs ++ [.prune time]) =
        Retention.touched (ops outputs) := by
      rw [Retention.touched_append]
      exact List.append_nil _
    have total : (s.stats.snapshot topN time).2.dohQueryTotal.toNat = (queries events).length := by
      show s.stats.queryTotal.toNat = _
      rw [accounts.total]
      exact UInt64.toNat_ofNat_of_lt' few
    have all := represents.sum_le
    rw [touched] at all
    have front : ((s.stats.snapshot topN time).2.topClients.map
        fun client => client.queryTotal.toNat).sum ≤
        (((pruneLocked s.stats.clients time dohClientStale).toList.map clientSnapshot).map
          fun client => client.queryTotal.toNat).sum := by
      have perm := (List.mergeSort_perm ((pruneLocked s.stats.clients time
        dohClientStale).toList.map clientSnapshot) ranksBefore).map
          fun client => client.queryTotal.toNat
      rw [← perm.sum_eq]
      exact ((List.take_sublist _ _).map _).sum_le_sum fun _ _ => Nat.zero_le _
    rw [List.length_append] at asked
    omega

theorem queriesOfTwo_shown :
    ∃ outputs s, service.Run {} queriesOfTwo outputs (.running s) ∧
      ∀ clientIp, clientIp ∈ (s.stats.snapshot 10 5).1.clients ↔
        ∃ last, (recorded clientIp outputs).getLast? = some last ∧
          durationSince 5 last ≤ dohClientStale := by
  obtain ⟨outputs, s, execution⟩ := queriesOfTwo_run
  have latest : ∀ reading ∈ readings queriesOfTwo, reading ≤ (5 : Int) := by decide
  exact ⟨outputs, s, execution, (snapshot_shows_last_day execution latest 10).1⟩

end DohStats

end PrivacyEngine
