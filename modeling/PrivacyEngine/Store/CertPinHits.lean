import PrivacyEngine.Store.CertPinRuns

/-!
# Counting hits

A check that finds its fingerprint on the fast path records the hit.  A check that finds it only
when it looks once more, because another first contact came in between, returns the same answer and
records nothing.  The time of a check is read before its locks, so a hit may also be recorded with a
time before the first contact.
-/

namespace PrivacyEngine

open Wire FileSystem Reactive

namespace CertPinDb

variable {db : CertPinDb}

/-- Checks that returned `FirstSeen` or `Match` for a host. -/
def IsHit (key : Str) : Output → Bool
  | .checked check (.ok .firstSeen) | .checked check (.ok .pinned) => check.key = key
  | _ => false

def Event.IsCheck : Event → Prop
  | .addFingerprint .. => False
  | _ => True

/-- Every entry counts the hits of its host and was last seen at the time of one of them, no earlier
than first. -/
structure Counted (outputs : List Output) (s : State) : Prop where
  count : ∀ key pin, s.pins[key]? = some pin →
    pin.hitCount.toNat = outputs.countP (IsHit key)
  last : ∀ key pin, s.pins[key]? = some pin →
    pin.firstSeen ≤ pin.lastSeen ∧ ∃ check result, .checked check result ∈ outputs ∧
      IsHit key (.checked check result) = true ∧ check.now = pin.lastSeen

/-- No second look finds the fingerprint, and no hit is recorded with a time before the first
contact. -/
def Recorded (s : State) : Event → Prop
  | .underWriteLock caller _ =>
      (∀ check, s.checks caller = some (check, .inserting) → ¬ Known s.pins check) ∧
        ∀ check pin, s.checks caller = some (check, .updating) → s.pins[check.key]? = some pin →
          pin.firstSeen ≤ check.now
  | _ => True

/-- Counts of hits along a run: none without an entry. -/
structure Counting (outputs : List Output) (s : State) : Prop extends Counted outputs s where
  absent : ∀ key, s.pins[key]? = none → outputs.countP (IsHit key) = 0

/-- A step that changes no entry and records no hit. -/
theorem Counting.idle {outputs now : List Output} {s next : State}
    (counting : Counting outputs s) (same : next.pins = s.pins)
    (none : ∀ key, now.countP (IsHit key) = 0) : Counting (outputs ++ now) next where
  count key pin entry := by
    rw [List.countP_append, none, Nat.add_zero]
    exact counting.count key pin (same ▸ entry)
  last key pin entry := by
    obtain ⟨ordered, check, result, mem, hit, time⟩ := counting.last key pin (same ▸ entry)
    exact ⟨ordered, check, result, List.mem_append_left _ mem, hit, time⟩
  absent key entry := by
    rw [List.countP_append, none, Nat.add_zero]
    exact counting.absent key (same ▸ entry)

/-- A step that replaces one entry and records one hit for its host. -/
theorem Counting.hit {outputs : List Output} {s next : State} {check : Check} {pin : CertPin}
    {result : Except IoError PinCheckResult} (counting : Counting outputs s)
    (inserted : next.pins = s.pins.insert check.key pin)
    (hit : ∀ key, IsHit key (.checked check result) = decide (check.key = key))
    (counted : pin.hitCount.toNat = outputs.countP (IsHit check.key) + 1)
    (time : pin.lastSeen = check.now) (ordered : pin.firstSeen ≤ check.now) :
    Counting (outputs ++ [.checked check result]) next where
  count key other entry := by
    rw [inserted, StrMap.getElem?_insert] at entry
    split at entry
    · rename_i here
      cases entry
      subst here
      simp [List.countP_append, hit, counted]
    · rename_i elsewhere
      have before := counting.count key other entry
      simp [List.countP_append, hit, elsewhere, before]
  last key other entry := by
    rw [inserted, StrMap.getElem?_insert] at entry
    split at entry
    · rename_i here
      cases entry
      exact ⟨time ▸ ordered, check, result, by simp, by simp [hit, here], time.symm⟩
    · obtain ⟨ordered, check, result, mem, found, time⟩ := counting.last key other entry
      exact ⟨ordered, check, result, List.mem_append_left _ mem, found, time⟩
  absent key entry := by
    rw [inserted, StrMap.getElem?_insert] at entry
    split at entry
    · cases entry
    · rename_i elsewhere
      have before := counting.absent key entry
      simp [List.countP_append, hit, elsewhere, before]

theorem Counting.step {outputs now : List Output} {s next : State} {event : Event}
    (counting : Counting outputs s) (steps : Steps db s event now next) (is_check : event.IsCheck)
    (recorded : Recorded s event)
    (bounded : ∀ key, (outputs ++ now).countP (IsHit key) < UInt64.size) :
    Counting (outputs ++ now) next := by
  cases steps with
  | starts | misses | finds | restarts => exact counting.idle rfl (by simp)
  | refuses | refusesLate => exact counting.idle rfl (by simp [IsHit])
  | rechecks waiting known => exact absurd known (recorded.1 _ waiting)
  | adds => exact is_check.elim
  | @hits caller check pin outcomes disk waiting present known stored =>
      refine counting.hit rfl (fun key => rfl) ?_ rfl (recorded.2 check pin waiting present)
      have count := counting.count _ pin present
      have room := bounded check.key
      simp only [List.countP_append, List.countP_cons, List.countP_nil, IsHit, decide_true,
        if_true] at room
      rw [← count] at room ⊢
      exact toNat_saturatingAdd room
  | @inserts caller check outcomes disk waiting absent stored =>
      refine counting.hit rfl (fun key => rfl) ?_ rfl (UInt64.le_refl check.now)
      rw [counting.absent _ absent]
      rfl

/-! ## Runs of checks -/

theorem counting_fresh : Counting [] fresh where
  count key pin entry := by simp [fresh] at entry
  last key pin entry := by simp [fresh] at entry
  absent key _ := by simp

/-- Hits are counted wherever every step records its hit. -/
theorem Counting.of_run {events : List Event} {outputs : List Output} {s : State}
    (execution : db.machine.Run fresh events outputs (.running s))
    (succeed : ∀ event ∈ events, event.Succeeds db) (checks : ∀ event ∈ events, event.IsCheck)
    (bounded : ∀ key, outputs.countP (IsHit key) < UInt64.size)
    (each : db.machine.EachStep Recorded fresh events) : Counting outputs s := by
  refine (runs (fun events outputs s => (∀ event ∈ events, event.IsCheck) →
    (∀ key, outputs.countP (IsHit key) < UInt64.size) →
    db.machine.EachStep Recorded fresh events → Counting outputs s)
    (fun _ _ _ => counting_fresh) ?_ execution succeed).2 checks bounded each
  intro events outputs s event now next execution _ ih steps checks bounded each
  have before := ih (fun event mem => checks event (List.mem_append_left _ mem))
    (fun key => lt_of_le_of_lt (by simp [List.countP_append]) (bounded key)) each.front
  exact before.step steps (checks event (by simp)) (each.last execution) bounded

/-- A step behind which the hits are still counted records its hit. -/
theorem Counted.recorded {outputs now : List Output} {s next : State} {event : Event}
    (counted : Counted outputs s) (steps : Steps db s event now next)
    (after : Counted (outputs ++ now) next) : Recorded s event := by
  cases steps with
  | starts | misses | finds | refuses | adds | restarts => trivial
  | @hits caller check pin outcomes disk waiting present known stored =>
      refine ⟨fun other inserting => ?_, fun other old updating entry => ?_⟩
      · rw [waiting] at inserting
        cases inserting
      · obtain rfl : check = other := by simpa [waiting] using updating
        obtain rfl : pin = old := by simpa [present] using entry
        exact (after.last check.key (touch pin check.now) (by simp)).1
  | @rechecks caller check outcomes waiting known =>
      obtain ⟨pin, entry, -⟩ := known
      have before := counted.count check.key pin entry
      have later := after.count check.key pin entry
      rw [List.countP_append, ← before] at later
      simp [IsHit] at later
  | @refusesLate caller check pin outcomes waiting present unknown =>
      refine ⟨fun other inserting known => ?_, fun other old updating entry => ?_⟩
      · obtain rfl : check = other := by simpa [waiting] using inserting
        obtain ⟨old, entry, mem⟩ := known
        obtain rfl : pin = old := by simpa [present] using entry
        exact unknown mem
      · rw [waiting] at updating
        cases updating
  | @inserts caller check outcomes disk waiting absent stored =>
      refine ⟨fun other inserting known => ?_, fun other old updating entry => ?_⟩
      · obtain rfl : check = other := by simpa [waiting] using inserting
        obtain ⟨old, entry, -⟩ := known
        rw [absent] at entry
        cases entry
      · rw [waiting] at updating
        cases updating

/-- Along runs of checks, hits are counted at every point exactly if every step records its hit. -/
theorem hits_counted_iff (db : CertPinDb) {events : List Event} {outputs : List Output} {s : State}
    (succeed : ∀ event ∈ events, event.Succeeds db) (checks : ∀ event ∈ events, event.IsCheck)
    (execution : db.machine.Run fresh events outputs (.running s))
    (bounded : ∀ key, outputs.countP (IsHit key) < UInt64.size) :
    (∀ front back seen reached, events = front ++ back →
      db.machine.Run fresh front seen (.running reached) → Counted seen reached) ↔
    db.machine.EachStep Recorded fresh events := by
  constructor
  · rintro counted front event back seen reached rfl first
    obtain ⟨later, rest, -⟩ := execution.split first
    cases rest with
    | step polled reacts rest =>
        have before := counted front (event :: back) seen reached rfl first
        have after := counted (front ++ [event]) back _ _ (by simp) (first.snoc polled reacts)
        have sound := (runs (fun _ _ _ => True) trivial (fun _ _ _ _ => trivial) first
          fun event mem => succeed event (by simp [mem])).1
        exact before.recorded (sound.steps (succeed event (by simp)) polled reacts) after
  · rintro each front back seen reached rfl first
    obtain ⟨later, -, rfl⟩ := execution.split first
    refine (Counting.of_run first ?_ ?_ ?_ each.front).toCounted
    · exact fun event mem => succeed event (List.mem_append_left _ mem)
    · exact fun event mem => checks event (List.mem_append_left _ mem)
    · exact fun key => lt_of_le_of_lt (by simp [List.countP_append]) (bounded key)

/-! ### Two first contacts with one certificate -/

def sampleHitPins (hits last : UInt64) : Json :=
  .object [(ascii "example.org", CertPin.toJson ⟨[ascii "cc:03"], 200, last, hits⟩)]

def sampleHitDb : CertPinDb where
  serde := JsonTexts.serde <|
    .checked [sampleHitPins 1 200, sampleHitPins 2 201]
      (by decide +kernel) (by decide +kernel) (by decide +kernel) (by decide +kernel)
  path := .join [ascii "state"] (ascii "pins.json")

def sampleContact (now : UInt64) : Check := ⟨ascii "example.org", ascii "cc:03", now⟩

/-- The second contact looks under the read lock before the first one is inserted. -/
def sampleTwins : List Event :=
  [.start 0 (sampleContact 200), .start 1 (sampleContact 201), .underReadLock 0, .underReadLock 1,
    .underWriteLock 0 .smooth, .underWriteLock 1 .smooth]

/-- The second contact comes after the first one. -/
def sampleFollow : List Event :=
  [.start 0 (sampleContact 200), .underReadLock 0, .underWriteLock 0 .smooth,
    .start 1 (sampleContact 201), .underReadLock 1, .underWriteLock 1 .smooth]

def sampleHits : List Output :=
  [.checked (sampleContact 200) (.ok .firstSeen), .checked (sampleContact 201) (.ok .pinned)]

theorem sampleHits_runs (events : List Event) (hits : UInt64)
    (executes : (sampleHitDb.machine.run fresh events).map
      (fun reaction => (reaction.outputs, (reaction.status.state?.bind fun s =>
        s.pins[ascii "example.org"]?).map CertPin.hitCount)) = some (sampleHits, some hits)) :
    ∃ s pin, sampleHitDb.machine.Run fresh events sampleHits (.running s) ∧
      s.pins[ascii "example.org"]? = some pin ∧ pin.hitCount = hits := by
  obtain ⟨outputs, status, execution, seen⟩ := Machine.exists_run _ _ _ _ executes
  obtain ⟨rfl, running⟩ := Prod.mk.inj seen
  obtain ⟨pin, found, counted⟩ := Option.map_eq_some_iff.mp running
  obtain ⟨s, reached, entry⟩ := Option.bind_eq_some_iff.mp found
  obtain rfl := Status.eq_running reached
  exact ⟨s, pin, execution, entry, counted⟩

/-- Both calls return success for the host, and one hit is recorded. -/
theorem sampleTwins_lose_a_hit :
    ∃ s pin, sampleHitDb.machine.Run fresh sampleTwins sampleHits (.running s) ∧
      s.pins[ascii "example.org"]? = some pin ∧ pin.hitCount = 1 ∧
      sampleHits.countP (IsHit (ascii "example.org")) = 2 ∧ ¬ Counted sampleHits s := by
  obtain ⟨s, pin, execution, entry, one⟩ :=
    sampleHits_runs sampleTwins 1 (by decide +kernel)
  have two : sampleHits.countP (IsHit (ascii "example.org")) = 2 := by decide +kernel
  refine ⟨s, pin, execution, entry, one, two, fun counted => ?_⟩
  have count := counted.count _ pin entry
  rw [one, two] at count
  cases count

theorem sampleFollow_counted_iff :
    ∃ s, sampleHitDb.machine.Run fresh sampleFollow sampleHits (.running s) ∧
      ((∀ front back seen reached, sampleFollow = front ++ back →
        sampleHitDb.machine.Run fresh front seen (.running reached) → Counted seen reached) ↔
      sampleHitDb.machine.EachStep Recorded fresh sampleFollow) := by
  obtain ⟨s, pin, execution, -, -⟩ :=
    sampleHits_runs sampleFollow 2 (by decide +kernel)
  refine ⟨s, execution, hits_counted_iff sampleHitDb ?_ ?_ execution fun key => ?_⟩
  · simp only [sampleFollow, List.mem_cons, List.not_mem_nil, or_false]
    rintro event (rfl | rfl | rfl | rfl | rfl | rfl)
    · trivial
    · trivial
    · exact succeeds_smooth 0
    · trivial
    · trivial
    · exact succeeds_smooth 1
  · simp only [sampleFollow, List.mem_cons, List.not_mem_nil, or_false]
    rintro event (rfl | rfl | rfl | rfl | rfl | rfl) <;> trivial
  · exact lt_of_le_of_lt List.countP_le_length (by decide)

end CertPinDb

end PrivacyEngine
