import PrivacyEngine.Store.CertPin

/-!
# Interleaved pin checks

What one section does to the database, and from it what holds along every run in which persistence
succeeds: a host is first seen once, its fingerprints have a known origin, a check answers by the
database it found, and a restart finds the database as it was.
-/

namespace PrivacyEngine

open Wire FileSystem Reactive

namespace CertPinDb

variable {db : CertPinDb}

/-- Persistence succeeds. -/
def Event.Succeeds (db : CertPinDb) : Event → Prop
  | .underWriteLock _ outcomes | .addFingerprint _ _ _ outcomes => outcomes.Succeed db.path
  | .start .. | .underReadLock _ | .restart => True

/-- The entry of a first contact. -/
def newPin (check : Check) : CertPin where
  fingerprints := [check.fingerprint]
  firstSeen := check.now
  lastSeen := check.now
  hitCount := 1

/-- A check whose fingerprint is recorded for its host. -/
def Known (pins : Pins) (check : Check) : Prop :=
  ∃ pin, pins[check.key]? = some pin ∧ check.fingerprint ∈ pin.fingerprints

/-- What one event does while persistence succeeds. -/
inductive Steps (db : CertPinDb) (s : State) : Event → List Output → State → Prop
  | starts {caller : Nat} {check : Check} (free : s.checks caller = none) :
      Steps db s (.start caller check) []
        { s with checks := setCheck s.checks caller (some (check, .reading)) }
  | misses {caller : Nat} {check : Check} (waiting : s.checks caller = some (check, .reading))
      (absent : s.pins[check.key]? = none) :
      Steps db s (.underReadLock caller) []
        { s with checks := setCheck s.checks caller (some (check, .inserting)) }
  | finds {caller : Nat} {check : Check} (waiting : s.checks caller = some (check, .reading))
      (known : Known s.pins check) :
      Steps db s (.underReadLock caller) []
        { s with checks := setCheck s.checks caller (some (check, .updating)) }
  | refuses {caller : Nat} {check : Check} {pin : CertPin}
      (waiting : s.checks caller = some (check, .reading))
      (present : s.pins[check.key]? = some pin) (unknown : check.fingerprint ∉ pin.fingerprints) :
      Steps db s (.underReadLock caller)
        [.checked check (.ok (.mismatch pin.fingerprints check.fingerprint))]
        { s with checks := setCheck s.checks caller none }
  | hits {caller : Nat} {check : Check} {pin : CertPin} {outcomes : Outcomes FsWrite} {disk : Disk}
      (waiting : s.checks caller = some (check, .updating))
      (present : s.pins[check.key]? = some pin) (known : check.fingerprint ∈ pin.fingerprints)
      (stored : db.load disk = .ok (s.pins.insert check.key (touch pin check.now))) :
      Steps db s (.underWriteLock caller outcomes) [.checked check (.ok .pinned)]
        { pins := s.pins.insert check.key (touch pin check.now), disk
          checks := setCheck s.checks caller none }
  | rechecks {caller : Nat} {check : Check} {outcomes : Outcomes FsWrite}
      (waiting : s.checks caller = some (check, .inserting)) (known : Known s.pins check) :
      Steps db s (.underWriteLock caller outcomes) [.checked check (.ok .pinned)]
        { s with checks := setCheck s.checks caller none }
  | refusesLate {caller : Nat} {check : Check} {pin : CertPin} {outcomes : Outcomes FsWrite}
      (waiting : s.checks caller = some (check, .inserting))
      (present : s.pins[check.key]? = some pin) (unknown : check.fingerprint ∉ pin.fingerprints) :
      Steps db s (.underWriteLock caller outcomes)
        [.checked check (.ok (.mismatch pin.fingerprints check.fingerprint))]
        { s with checks := setCheck s.checks caller none }
  | inserts {caller : Nat} {check : Check} {outcomes : Outcomes FsWrite} {disk : Disk}
      (waiting : s.checks caller = some (check, .inserting))
      (absent : s.pins[check.key]? = none)
      (stored : db.load disk = .ok (s.pins.insert check.key (newPin check))) :
      Steps db s (.underWriteLock caller outcomes) [.checked check (.ok .firstSeen)]
        { pins := s.pins.insert check.key (newPin check), disk
          checks := setCheck s.checks caller none }
  | adds {host fingerprint : Str} {now : UInt64} {outcomes : Outcomes FsWrite} {disk : Disk}
      (stored : db.load disk = .ok (s.pins.insert (normalizeHost host)
        (withFingerprint (entryFor s.pins (normalizeHost host) now) fingerprint now))) :
      Steps db s (.addFingerprint host fingerprint now outcomes) [.added host fingerprint (.ok ())]
        { s with
          pins := s.pins.insert (normalizeHost host)
            (withFingerprint (entryFor s.pins (normalizeHost host) now) fingerprint now)
          disk }
  | restarts : Steps db s .restart [] { s with checks := fun _ => none }

/-- What holds of every state: the file has the database, and a check that is about to record a hit
has its fingerprint recorded. -/
structure Sound (db : CertPinDb) (s : State) : Prop where
  stored : db.load s.disk = .ok s.pins
  updating : ∀ caller check, s.checks caller = some (check, .updating) → Known s.pins check

theorem exists_reading {s : State} {caller : Nat}
    (polled : polls s (.underReadLock caller) = true) :
    ∃ check, s.checks caller = some (check, .reading) := by
  simp only [polls] at polled
  split at polled
  · rename_i check waiting
    exact ⟨check, waiting⟩
  · cases polled

theorem exists_writing {s : State} {caller : Nat} {outcomes : Outcomes FsWrite}
    (polled : polls s (.underWriteLock caller outcomes) = true) :
    ∃ check, s.checks caller = some (check, .updating) ∨
      s.checks caller = some (check, .inserting) := by
  simp only [polls] at polled
  split at polled
  · rename_i check waiting
    exact ⟨check, .inl waiting⟩
  · rename_i check waiting
    exact ⟨check, .inr waiting⟩
  · cases polled

theorem Sound.steps_read {s next : State} {caller : Nat} {outputs : List Output}
    (polled : polls s (.underReadLock caller) = true)
    (reacts : db.react s (.underReadLock caller) = ⟨outputs, .running next⟩) :
    Steps db s (.underReadLock caller) outputs next := by
  obtain ⟨check, waiting⟩ := exists_reading polled
  simp only [react, waiting, readSection] at reacts
  rcases entry : s.pins[check.key]? with - | pin
  · simp only [entry] at reacts
    cases reacts
    exact .misses waiting entry
  · by_cases known : check.fingerprint ∈ pin.fingerprints
    · simp only [entry, known, if_true] at reacts
      cases reacts
      exact .finds waiting ⟨pin, entry, known⟩
    · simp only [entry, known, if_false] at reacts
      cases reacts
      exact .refuses waiting entry known

theorem Sound.steps_write {s next : State} {caller : Nat} {outcomes : Outcomes FsWrite}
    {outputs : List Output} (sound : Sound db s) (succeed : outcomes.Succeed db.path)
    (polled : polls s (.underWriteLock caller outcomes) = true)
    (reacts : db.react s (.underWriteLock caller outcomes) = ⟨outputs, .running next⟩) :
    Steps db s (.underWriteLock caller outcomes) outputs next := by
  obtain ⟨check, waiting | waiting⟩ := exists_writing polled
  · obtain ⟨pin, entry, known⟩ := sound.updating caller check waiting
    obtain ⟨after, ends, loads⟩ :=
      persist_of_succeed succeed (s.pins.insert check.key (touch pin check.now)) s.disk
    simp only [react, waiting, writeSection, updateSection, entry, ends, Except.map] at reacts
    cases reacts
    exact .hits waiting entry known loads
  · simp only [react, waiting, writeSection, insertSection] at reacts
    rcases entry : s.pins[check.key]? with - | pin
    · obtain ⟨after, ends, loads⟩ :=
        persist_of_succeed succeed (s.pins.insert check.key (newPin check)) s.disk
      simp only [newPin] at ends
      simp only [entry, ends, Except.map] at reacts
      cases reacts
      exact .inserts waiting entry loads
    · by_cases known : check.fingerprint ∈ pin.fingerprints
      · simp only [entry, known, if_true] at reacts
        cases reacts
        exact .rechecks waiting ⟨pin, entry, known⟩
      · simp only [entry, known, if_false] at reacts
        cases reacts
        exact .refusesLate waiting entry known

/-- The machine takes no other steps. -/
theorem Sound.steps {s next : State} {event : Event} {outputs : List Output}
    (sound : Sound db s) (succeeds : event.Succeeds db) (polled : db.machine.polls s event = true)
    (reacts : db.machine.react s event = ⟨outputs, .running next⟩) :
    Steps db s event outputs next := by
  cases event with
  | start caller check =>
      cases reacts
      exact .starts (Option.isNone_iff_eq_none.mp polled)
  | underReadLock caller => exact steps_read polled reacts
  | underWriteLock caller outcomes => exact sound.steps_write succeeds polled reacts
  | addFingerprint host fingerprint now outcomes =>
      obtain ⟨after, ends, loads⟩ := persist_of_succeed succeeds (s.pins.insert (normalizeHost host)
        (withFingerprint (entryFor s.pins (normalizeHost host) now) fingerprint now)) s.disk
      simp only [machine, react, CertPinDb.addFingerprint, ends] at reacts
      cases reacts
      exact .adds loads
  | restart =>
      simp only [machine, react, sound.stored] at reacts
      cases reacts
      exact .restarts

/-! ## What a step changes -/

/-- The host that an event is about. -/
def Concerns (s : State) : Event → Str → Prop
  | .underReadLock caller, key | .underWriteLock caller _, key =>
      ∃ check phase, s.checks caller = some (check, phase) ∧ check.key = key
  | .addFingerprint host _ _ _, key => normalizeHost host = key
  | .start .., _ | .restart, _ => False

theorem entryFor_of_some {pins : Pins} {key : Str} {now : UInt64} {pin : CertPin}
    (entry : pins[key]? = some pin) : entryFor pins key now = pin := by
  simp [entryFor, entry]

theorem mem_withFingerprint {pin : CertPin} {fingerprint other : Str} {now : UInt64} :
    other ∈ (withFingerprint pin fingerprint now).fingerprints ↔
      other ∈ pin.fingerprints ∨ other = fingerprint := by
  unfold withFingerprint
  by_cases known : fingerprint ∈ pin.fingerprints
  · simp only [known, if_true]
    exact ⟨.inl, fun mem => mem.elim id fun same => same ▸ known⟩
  · simp [known]

/-- A step leaves database and file alone, or replaces one entry, whose fingerprints it keeps, and
stores the result. -/
theorem Steps.change {s next : State} {event : Event} {outputs : List Output}
    (steps : Steps db s event outputs next) :
    (next.pins = s.pins ∧ next.disk = s.disk) ∨
      ∃ key pin, Concerns s event key ∧ next.pins = s.pins.insert key pin ∧
        db.load next.disk = .ok next.pins ∧
        ∀ old, s.pins[key]? = some old → ∀ known ∈ old.fingerprints, known ∈ pin.fingerprints := by
  cases steps with
  | starts | misses | finds | refuses | rechecks | refusesLate | restarts => exact .inl ⟨rfl, rfl⟩
  | hits waiting present known stored =>
      refine .inr ⟨_, _, ⟨_, _, waiting, rfl⟩, rfl, stored, fun old entry => ?_⟩
      obtain rfl := Option.some.inj (present.symm.trans entry)
      exact fun _ mem => mem
  | inserts waiting absent stored =>
      refine .inr ⟨_, _, ⟨_, _, waiting, rfl⟩, rfl, stored, fun old entry => ?_⟩
      rw [absent] at entry
      cases entry
  | adds stored =>
      refine .inr ⟨_, _, rfl, rfl, stored, fun old entry known mem => ?_⟩
      rw [entryFor_of_some entry]
      exact mem_withFingerprint.mpr (.inl mem)

/-- An entry is never taken away, and its fingerprints stay. -/
theorem Steps.entry {s next : State} {event : Event} {outputs : List Output}
    (steps : Steps db s event outputs next) {key : Str} {old : CertPin}
    (entry : s.pins[key]? = some old) :
    ∃ pin, next.pins[key]? = some pin ∧ ∀ known ∈ old.fingerprints, known ∈ pin.fingerprints := by
  rcases steps.change with ⟨same, -⟩ | ⟨changed, pin, -, inserted, -, kept⟩
  · exact ⟨old, by rw [same, entry], fun _ mem => mem⟩
  · by_cases here : changed = key
    · subst here
      exact ⟨pin, by rw [inserted, StrMap.getElem?_insert, if_pos rfl], kept old entry⟩
    · refine ⟨old, ?_, fun _ mem => mem⟩
      rw [inserted, StrMap.getElem?_insert, if_neg here, entry]

/-- A fingerprint that is recorded stays recorded. -/
theorem Steps.known {s next : State} {event : Event} {outputs : List Output}
    (steps : Steps db s event outputs next) {check : Check} (known : Known s.pins check) :
    Known next.pins check := by
  obtain ⟨old, entry, mem⟩ := known
  obtain ⟨pin, entry, kept⟩ := steps.entry entry
  exact ⟨pin, entry, kept _ mem⟩

/-- Entries of other hosts stay as they are. -/
theorem Steps.others {s next : State} {event : Event} {outputs : List Output}
    (steps : Steps db s event outputs next) {key : Str} (other : ¬ Concerns s event key) :
    next.pins[key]? = s.pins[key]? := by
  rcases steps.change with ⟨same, -⟩ | ⟨changed, pin, concerns, inserted, -, -⟩
  · rw [same]
  · have ne : changed ≠ key := fun same => other (same ▸ concerns)
    rw [inserted, StrMap.getElem?_insert, if_neg ne]

theorem setCheck_eq_some {checks : Nat → Option (Check × Phase)} {caller other : Nat}
    {value : Option (Check × Phase)} {check : Check} {phase : Phase}
    (waiting : setCheck checks caller value other = some (check, phase)) :
    (other = caller ∧ value = some (check, phase)) ∨ checks other = some (check, phase) := by
  by_cases same : other = caller
  · subst same
    exact .inl ⟨rfl, by simpa [setCheck] using waiting⟩
  · exact .inr (by simpa [setCheck, same] using waiting)

/-- A check comes to its update by finding its fingerprint. -/
theorem Steps.updating {s next : State} {event : Event} {outputs : List Output}
    (steps : Steps db s event outputs next) {caller : Nat} {check : Check}
    (waiting : next.checks caller = some (check, .updating)) :
    s.checks caller = some (check, .updating) ∨
      (event = .underReadLock caller ∧ s.checks caller = some (check, .reading) ∧
        Known s.pins check) := by
  cases steps with
  | starts free =>
      rcases setCheck_eq_some waiting with ⟨-, reading⟩ | before
      · cases reading
      · exact .inl before
  | misses reading absent =>
      rcases setCheck_eq_some waiting with ⟨-, inserting⟩ | before
      · cases inserting
      · exact .inl before
  | finds reading known =>
      rcases setCheck_eq_some waiting with ⟨rfl, same⟩ | before
      · obtain rfl : _ = check := congrArg Prod.fst (Option.some.inj same)
        exact .inr ⟨rfl, reading, known⟩
      · exact .inl before
  | refuses | hits | rechecks | refusesLate | inserts =>
      rcases setCheck_eq_some waiting with ⟨-, nothing⟩ | before
      · cases nothing
      · exact .inl before
  | adds stored => exact .inl waiting
  | restarts => cases waiting

theorem Steps.sound {s next : State} {event : Event} {outputs : List Output}
    (sound : Sound db s) (steps : Steps db s event outputs next) : Sound db next where
  stored := by
    rcases steps.change with ⟨same_pins, same_disk⟩ | ⟨key, pin, -, -, stored, -⟩
    · rw [same_disk, same_pins, sound.stored]
    · exact stored
  updating caller check waiting := by
    rcases steps.updating waiting with before | ⟨-, -, known⟩
    · exact steps.known (sound.updating caller check before)
    · exact steps.known known

/-! ## Whole runs -/

theorem sound_fresh (db : CertPinDb) : Sound db fresh where
  stored := by simp [load, fresh]
  updating _ _ waiting := by cases waiting

/-- What every step keeps holds along every run in which persistence succeeds. -/
theorem runs {events : List Event} {outputs : List Output} {final : State}
    (property : List Event → List Output → State → Prop) (initially : property [] [] fresh)
    (kept : ∀ {events outputs s event now next},
      db.machine.Run fresh events outputs (.running s) → Sound db s → property events outputs s →
      Steps db s event now next → property (events ++ [event]) (outputs ++ now) next)
    (execution : db.machine.Run fresh events outputs (.running final))
    (succeed : ∀ event ∈ events, event.Succeeds db) :
    Sound db final ∧ property events outputs final := by
  refine execution.history (fun events outputs s =>
    (∀ event ∈ events, event.Succeeds db) → Sound db s ∧ property events outputs s)
    (fun _ => ⟨sound_fresh db, initially⟩) ?_ succeed
  intro events outputs s event now next execution ih polled reacts succeed
  obtain ⟨sound, holds⟩ := ih fun event mem => succeed event (List.mem_append_left _ mem)
  have steps := sound.steps (succeed event (by simp)) polled reacts
  exact ⟨steps.sound sound, kept execution sound holds steps⟩

/-! ### First contacts -/

def IsFirstSeen (key : Str) : Output → Bool
  | .checked check (.ok .firstSeen) => check.key = key
  | _ => false

/-- A host is first seen at most once, and not before it has an entry. -/
structure FirstOnce (key : Str) (outputs : List Output) (s : State) : Prop where
  once : outputs.countP (IsFirstSeen key) ≤ 1
  absent : s.pins[key]? = none → outputs.countP (IsFirstSeen key) = 0

theorem FirstOnce.step {key : Str} {outputs now : List Output} {s next : State} {event : Event}
    (first : FirstOnce key outputs s) (steps : Steps db s event now next) :
    FirstOnce key (outputs ++ now) next := by
  by_cases contact : now.countP (IsFirstSeen key) = 0
  · have same : (outputs ++ now).countP (IsFirstSeen key) = outputs.countP (IsFirstSeen key) := by
      rw [List.countP_append, contact, Nat.add_zero]
    refine ⟨by rw [same]; exact first.once, fun absent => ?_⟩
    rw [same]
    refine first.absent (Option.eq_none_iff_forall_ne_some.mpr fun pin entry => ?_)
    obtain ⟨later, held, -⟩ := steps.entry entry
    rw [held] at absent
    cases absent
  · cases steps with
    | starts | misses | finds | refuses | hits | rechecks | refusesLate | adds | restarts =>
        exact absurd (by simp [IsFirstSeen]) contact
    | @inserts caller check outcomes disk waiting absent stored =>
        have here : check.key = key := by
          by_contra other
          exact contact (by simp [IsFirstSeen, other])
        have before := first.absent (here ▸ absent)
        refine ⟨?_, fun none => ?_⟩
        · simp [List.countP_append, before, IsFirstSeen, here]
        · rw [here, StrMap.getElem?_insert, if_pos rfl] at none
          cases none

/-- Where the fingerprints of a database come from. -/
def Origin (key fingerprint : Str) (events : List Event) (outputs : List Output) : Prop :=
  (∃ check, .checked check (.ok .firstSeen) ∈ outputs ∧ check.key = key ∧
    check.fingerprint = fingerprint) ∨
  ∃ host now outcomes, .addFingerprint host fingerprint now outcomes ∈ events ∧
    normalizeHost host = key

theorem Origin.append {key fingerprint : Str} {events more : List Event}
    {outputs later : List Output} (origin : Origin key fingerprint events outputs) :
    Origin key fingerprint (events ++ more) (outputs ++ later) := by
  rcases origin with ⟨check, mem, same⟩ | ⟨host, now, outcomes, mem, same⟩
  · exact .inl ⟨check, List.mem_append_left _ mem, same⟩
  · exact .inr ⟨host, now, outcomes, List.mem_append_left _ mem, same⟩

/-- Every fingerprint has an origin. -/
def Founded (events : List Event) (outputs : List Output) (s : State) : Prop :=
  ∀ key pin fingerprint, s.pins[key]? = some pin → fingerprint ∈ pin.fingerprints →
    Origin key fingerprint events outputs

theorem Founded.step {events : List Event} {outputs now : List Output} {s next : State}
    {event : Event} (founded : Founded events outputs s) (steps : Steps db s event now next) :
    Founded (events ++ [event]) (outputs ++ now) next := by
  intro key pin fingerprint entry mem
  have old : ∀ pin, s.pins[key]? = some pin → fingerprint ∈ pin.fingerprints →
      Origin key fingerprint (events ++ [event]) (outputs ++ now) :=
    fun pin entry mem => (founded key pin fingerprint entry mem).append
  cases steps with
  | starts | misses | finds | refuses | rechecks | refusesLate | restarts => exact old pin entry mem
  | @hits caller check before outcomes disk waiting present known stored =>
      rw [StrMap.getElem?_insert] at entry
      split at entry
      · rename_i here
        cases entry
        exact old before (here ▸ present) mem
      · exact old pin entry mem
  | @inserts caller check outcomes disk waiting absent stored =>
      rw [StrMap.getElem?_insert] at entry
      split at entry
      · rename_i here
        cases entry
        obtain rfl : fingerprint = check.fingerprint := List.mem_singleton.mp mem
        exact .inl ⟨check, by simp, here, rfl⟩
      · exact old pin entry mem
  | @adds host added now outcomes disk stored =>
      rw [StrMap.getElem?_insert] at entry
      split at entry
      · rename_i here
        cases entry
        rcases mem_withFingerprint.mp mem with known | rfl
        · unfold entryFor at known
          rcases held : s.pins[normalizeHost host]? with - | before
          · rw [held] at known
            cases known
          · rw [held] at known
            exact old before (here ▸ held) known
        · exact .inr ⟨host, now, outcomes, by simp, here⟩
      · exact old pin entry mem

/-! ### Answers -/

/-- The answer that a database calls for. -/
def Answers (pins : Pins) (check : Check) : PinCheckResult → Prop
  | .firstSeen => pins[check.key]? = none
  | .pinned => Known pins check
  | .mismatch expected got =>
      ∃ pin, pins[check.key]? = some pin ∧ check.fingerprint ∉ pin.fingerprints ∧
        expected = pin.fingerprints ∧ got = check.fingerprint

/-- A database calls for one answer only. -/
theorem Answers.unique {pins : Pins} {check : Check} {result other : PinCheckResult}
    (answers : Answers pins check result) (also : Answers pins check other) : other = result := by
  rcases entry : pins[check.key]? with - | pin
  · cases result <;> cases other <;> simp [Answers, Known, entry] at answers also ⊢
  · by_cases known : check.fingerprint ∈ pin.fingerprints
    · cases result <;> cases other <;> simp [Answers, Known, entry, known] at answers also ⊢
    · cases result <;> cases other <;> simp [Answers, Known, entry, known] at answers also ⊢
      simp [answers, also]

/-- Events that end a check of a caller or take it further. -/
def Event.Moves (caller : Nat) : Event → Prop
  | .start other _ | .underReadLock other | .underWriteLock other _ => other = caller
  | .addFingerprint .. => False
  | .restart => True

/-- The state in which the section under the read lock of a check ran. -/
def ReadIn (db : CertPinDb) (events : List Event) (caller : Nat) (check : Check) (d : State) :
    Prop :=
  ∃ front back seen, events = front ++ .underReadLock caller :: back ∧
    db.machine.Run fresh front seen (.running d) ∧ d.checks caller = some (check, .reading) ∧
    ∀ event ∈ back, ¬ event.Moves caller

/-- A check in front of its update has found its fingerprint under the read lock. -/
def Traced (db : CertPinDb) (events : List Event) (s : State) : Prop :=
  ∀ caller check, s.checks caller = some (check, .updating) →
    ∃ d, ReadIn db events caller check d ∧ Known d.pins check

theorem Steps.not_moves {s next : State} {event : Event} {outputs : List Output}
    (steps : Steps db s event outputs next) {caller : Nat} {check : Check}
    (before : s.checks caller = some (check, .updating))
    (after : next.checks caller = some (check, .updating)) : ¬ event.Moves caller := by
  intro moves
  cases steps with
  | starts free =>
      cases moves
      rw [free] at before
      cases before
  | misses waiting | finds waiting | refuses waiting =>
      cases moves
      rw [waiting] at before
      cases before
  | hits | rechecks | refusesLate | inserts =>
      cases moves
      simp [setCheck] at after
  | adds => exact moves
  | restarts => cases after

theorem Traced.step {events : List Event} {outputs now : List Output} {s next : State}
    {event : Event} (execution : db.machine.Run fresh events outputs (.running s))
    (traced : Traced db events s) (steps : Steps db s event now next) :
    Traced db (events ++ [event]) next := by
  intro caller check waiting
  rcases steps.updating waiting with before | ⟨rfl, reading, known⟩
  · obtain ⟨d, ⟨front, back, seen, rfl, reached, reading, still⟩, known⟩ :=
      traced caller check before
    refine ⟨d, ⟨front, back ++ [event], seen, by simp, reached, reading, ?_⟩, known⟩
    intro other mem
    rcases List.mem_append.mp mem with mem | mem
    · exact still other mem
    · rw [List.mem_singleton.mp mem]
      exact steps.not_moves before waiting
  · exact ⟨s, ⟨events, [], outputs, rfl, execution, reading, by simp⟩, known⟩

/-- The state that decides the answer of a check: the one its section under the read lock found if
that leads to an update, and the one the section that answers finds otherwise. -/
def DecidedIn (db : CertPinDb) (events : List Event) (s : State) (caller : Nat) (check : Check)
    (d : State) : Prop :=
  (s.checks caller = some (check, .updating) ∧ ReadIn db events caller check d) ∨
    (∃ phase, phase ≠ .updating ∧ s.checks caller = some (check, phase)) ∧ d = s

/-- A check returns the answer that the deciding state calls for. -/
theorem Steps.answers {events : List Event} {now : List Output} {s next : State} {event : Event}
    (traced : Traced db events s) (steps : Steps db s event now next) {check : Check}
    {result : Except IoError PinCheckResult} (returned : .checked check result ∈ now) :
    ∃ caller d answer, event.Moves caller ∧ result = .ok answer ∧
      DecidedIn db events s caller check d ∧ Answers d.pins check answer := by
  cases steps with
  | starts | misses | finds | restarts => cases returned
  | adds => simp at returned
  | @refuses caller other pin waiting present unknown =>
      obtain ⟨rfl, rfl⟩ : check = other ∧ result = _ := by simpa using returned
      exact ⟨caller, s, _, rfl, rfl, .inr ⟨⟨.reading, by simp, waiting⟩, rfl⟩, pin, present,
        unknown,
        rfl, rfl⟩
  | @hits caller other pin outcomes disk waiting present known stored =>
      obtain ⟨rfl, rfl⟩ : check = other ∧ result = _ := by simpa using returned
      obtain ⟨d, read, known⟩ := traced caller check waiting
      exact ⟨caller, d, _, rfl, rfl, .inl ⟨waiting, read⟩, known⟩
  | @rechecks caller other outcomes waiting known =>
      obtain ⟨rfl, rfl⟩ : check = other ∧ result = _ := by simpa using returned
      exact ⟨caller, s, _, rfl, rfl, .inr ⟨⟨.inserting, by simp, waiting⟩, rfl⟩, known⟩
  | @refusesLate caller other pin outcomes waiting present unknown =>
      obtain ⟨rfl, rfl⟩ : check = other ∧ result = _ := by simpa using returned
      exact ⟨caller, s, _, rfl, rfl, .inr ⟨⟨.inserting, by simp, waiting⟩, rfl⟩, pin, present,
        unknown, rfl, rfl⟩
  | @inserts caller other outcomes disk waiting absent stored =>
      obtain ⟨rfl, rfl⟩ : check = other ∧ result = _ := by simpa using returned
      exact ⟨caller, s, _, rfl, rfl, .inr ⟨⟨.inserting, by simp, waiting⟩, rfl⟩, absent⟩

/-- A check that is refused leaves database and file alone, and so does every section under the read
lock. -/
theorem Steps.refused {now : List Output} {s next : State} {event : Event}
    (steps : Steps db s event now next)
    (refused : (∃ caller, event = .underReadLock caller) ∨
      ∃ check expected got, .checked check (.ok (.mismatch expected got)) ∈ now) :
    next.pins = s.pins ∧ next.disk = s.disk := by
  cases steps with
  | starts | misses | finds | refuses | rechecks | refusesLate | restarts => exact ⟨rfl, rfl⟩
  | hits | inserts | adds => simp at refused

/-! ### Trust on first use -/

/-- What holds after handling events, and of every event to come. -/
structure TofuSafe (db : CertPinDb) (events : List Event) (outputs : List Output) (s : State) :
    Prop where
  first_once : ∀ key, outputs.countP (IsFirstSeen key) ≤ 1
  founded : Founded events outputs s
  answers : ∀ event now next, db.machine.polls s event = true → event.Succeeds db →
    db.machine.react s event = ⟨now, .running next⟩ →
    ∀ check result, .checked check result ∈ now →
      ∃ caller d answer, event.Moves caller ∧ result = .ok answer ∧
        DecidedIn db events s caller check d ∧ ∀ other, Answers d.pins check other ↔ other = answer
  refused_unchanged : ∀ event now next, db.machine.polls s event = true → event.Succeeds db →
    db.machine.react s event = ⟨now, .running next⟩ →
    ((∃ caller, event = .underReadLock caller) ∨
      ∃ check expected got, .checked check (.ok (.mismatch expected got)) ∈ now) →
    next.pins = s.pins ∧ next.disk = s.disk
  others_unchanged : ∀ event now next, db.machine.polls s event = true → event.Succeeds db →
    db.machine.react s event = ⟨now, .running next⟩ →
    ∀ key, ¬ Concerns s event key → next.pins[key]? = s.pins[key]?
  reloads : db.load s.disk = .ok s.pins

/-- Pins are trusted on first use in every interleaving and over restarts, and a database that is
persisted is loaded as it was. -/
theorem tofu_safe (db : CertPinDb) {events : List Event} {outputs : List Output} {s : State}
    (succeed : ∀ event ∈ events, event.Succeeds db)
    (execution : db.machine.Run fresh events outputs (.running s)) :
    TofuSafe db events outputs s ∧
      ∀ pins disk outcomes, outcomes.Succeed db.path →
        db.load (db.persist pins outcomes disk).2 = .ok pins := by
  obtain ⟨sound, first⟩ := runs (fun _ outputs s => ∀ key, FirstOnce key outputs s)
    (fun key => ⟨by simp, by simp⟩) (fun _ _ first steps key => (first key).step steps)
    execution succeed
  have founded := (runs Founded (fun key pin _ entry => by simp [fresh] at entry)
    (fun _ _ founded steps => founded.step steps) execution succeed).2
  have traced := (runs (fun events _ s => Traced db events s) (fun _ _ waiting => by cases waiting)
    (fun execution _ traced steps => traced.step execution steps) execution succeed).2
  refine ⟨⟨fun key => (first key).once, founded, ?_, ?_, ?_, sound.stored⟩, ?_⟩
  · intro event now next polled succeeds reacts check result returned
    obtain ⟨caller, d, answer, moves, ok, decided, answers⟩ :=
      (sound.steps succeeds polled reacts).answers traced returned
    exact ⟨caller, d, answer, moves, ok, decided,
      fun other => ⟨answers.unique, fun same => same ▸ answers⟩⟩
  · intro event now next polled succeeds reacts refused
    exact (sound.steps succeeds polled reacts).refused refused
  · intro event now next polled succeeds reacts key other
    exact (sound.steps succeeds polled reacts).others other
  · intro pins disk outcomes succeeds
    obtain ⟨after, ends, loads⟩ := persist_of_succeed succeeds pins disk
    rw [ends]
    exact loads

/-! ### Two first contacts with different certificates -/

def sampleDb : CertPinDb where
  serde := JsonTexts.serde <|
    .checked [.object [(ascii "example.com", CertPin.toJson ⟨[ascii "bb:02"], 101, 101, 1⟩)]]
      (by decide +kernel) (by decide +kernel) (by decide +kernel) (by decide +kernel)
  path := .join [ascii "state"] (ascii "cert_pins.json")

def sampleHonest : Check := ⟨ascii "Example.com", ascii "aa:01", 100⟩

def sampleForged : Check := ⟨ascii "example.com.", ascii "bb:02", 101⟩

def sampleRace : List Event :=
  [.start 0 sampleHonest, .start 1 sampleForged, .underReadLock 0, .underReadLock 1,
    .underWriteLock 1 .smooth, .underWriteLock 0 .smooth, .restart]

theorem succeeds_smooth (caller : Nat) : (Event.underWriteLock caller .smooth).Succeeds db :=
  Outcomes.succeed_smooth db.path

/-- The slower first contact is refused. -/
theorem sampleRace_safe :
    ∃ s, sampleDb.machine.Run fresh sampleRace
        [.checked sampleForged (.ok .firstSeen),
          .checked sampleHonest (.ok (.mismatch [ascii "bb:02"] (ascii "aa:01")))] (.running s) ∧
      TofuSafe sampleDb sampleRace
        [.checked sampleForged (.ok .firstSeen),
          .checked sampleHonest (.ok (.mismatch [ascii "bb:02"] (ascii "aa:01")))] s := by
  have executes : (sampleDb.machine.run fresh sampleRace).map
      (fun reaction => (reaction.outputs, reaction.status.state?.isSome)) =
      some ([.checked sampleForged (.ok .firstSeen),
        .checked sampleHonest (.ok (.mismatch [ascii "bb:02"] (ascii "aa:01")))], true) := by
    decide +kernel
  obtain ⟨outputs, status, execution, seen⟩ := Machine.exists_run _ _ _ _ executes
  obtain ⟨rfl, running⟩ := Prod.mk.inj seen
  obtain ⟨s, reached⟩ := Option.isSome_iff_exists.mp running
  obtain rfl := Status.eq_running reached
  refine ⟨s, execution, (tofu_safe sampleDb ?_ execution).1⟩
  simp only [sampleRace, List.mem_cons, List.not_mem_nil, or_false]
  rintro event (rfl | rfl | rfl | rfl | rfl | rfl | rfl)
  · trivial
  · trivial
  · trivial
  · trivial
  · exact succeeds_smooth 1
  · exact succeeds_smooth 0
  · trivial

end CertPinDb

end PrivacyEngine
