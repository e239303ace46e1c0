import PrivacyEngine.Reactive
import PrivacyEngine.Wire.JsonText
import PrivacyEngine.Store.HostKeys
import PrivacyEngine.Store.Persist

/-!
# Pinned hosts

The set of hosts that are never intercepted, kept in memory and in a file.  Both operations change
the set first and write the file afterwards, so a write that fails leaves a set in memory that the
file does not have.
-/

namespace PrivacyEngine

open Wire FileSystem Reactive

section Files

variable (serde : Serde)

def pinnedHostsText (hosts : StrSet) : Str :=
  serde.toStringPretty (.array (hosts.toList.map .string))

def persistPinnedHosts (path : FilePath) (hosts : StrSet) (outcomes : Outcomes FsWrite)
    (disk : Disk) : Except IoError Unit × Disk :=
  replaceFile path outcomes.createDirAll (outcomes.write.step (pinnedHostsText serde hosts))
    outcomes.renames disk

def insertNormalized (hosts : StrSet) (host : Str) : StrSet :=
  let normalized := normalizeHost host
  if normalized = [] then hosts else hosts.insert normalized

def parsePinnedHosts (raw : Str) : Except IoError StrSet := do
  let parsed ← (serde.stringsFromStr raw).mapError fun error =>
    invalidData (ascii "invalid pinned-hosts JSON: " ++ error)
  return parsed.foldl insertNormalized ∅

def loadPinnedHosts (path : FilePath) (disk : Disk) : Except IoError StrSet :=
  if (disk path).isNone then .ok ∅
  else do
    let raw ← readDisk disk path
    parsePinnedHosts serde raw

end Files

/-! ## The store -/

structure PinnedHosts where
  path : FilePath
  hosts : StrSet

/-- The store and the disk behind it. -/
structure PinnedState where
  store : PinnedHosts
  disk : Disk

inductive PinnedCall where
  | add (host : Str) (outcomes : Outcomes FsWrite)
  | clear (outcomes : Outcomes FsWrite)

/-- What a call returns. -/
inductive PinnedReply where
  | added (result : Except IoError Bool)
  | cleared (result : Except IoError Nat)
  deriving DecidableEq

def PinnedReply.isOk : PinnedReply → Bool
  | added (.ok _) | cleared (.ok _) => true
  | added (.error _) | cleared (.error _) => false

namespace PinnedHosts

variable (serde : Serde)

def load (path : FilePath) (disk : Disk) : Except IoError PinnedState := do
  let hosts ← loadPinnedHosts serde path disk
  return ⟨⟨path, hosts⟩, disk⟩

def addAndPersist (s : PinnedState) (host : Str) (outcomes : Outcomes FsWrite) :
    Except IoError Bool × PinnedState :=
  let normalized := normalizeHost host
  if normalized = [] then (.ok false, s)
  else if s.store.hosts.contains normalized then (.ok false, s)
  else
    let hosts := s.store.hosts.insert normalized
    match persistPinnedHosts serde s.store.path hosts outcomes s.disk with
    | (.ok (), disk) => (.ok true, ⟨{ s.store with hosts }, disk⟩)
    | (.error error, disk) => (.error error, ⟨{ s.store with hosts }, disk⟩)

def clearAndPersist (s : PinnedState) (outcomes : Outcomes FsWrite) :
    Except IoError Nat × PinnedState :=
  let removed := s.store.hosts.size
  match persistPinnedHosts serde s.store.path ∅ outcomes s.disk with
  | (.ok (), disk) => (.ok removed, ⟨{ s.store with hosts := ∅ }, disk⟩)
  | (.error error, disk) => (.error error, ⟨{ s.store with hosts := ∅ }, disk⟩)

def call (s : PinnedState) : PinnedCall → PinnedReply × PinnedState
  | .add host outcomes =>
      let (result, next) := addAndPersist serde s host outcomes
      (.added result, next)
  | .clear outcomes =>
      let (result, next) := clearAndPersist serde s outcomes
      (.cleared result, next)

/-- Calls hold the write lock to their end, so they follow one another. -/
def machine : Machine PinnedState PinnedCall PinnedReply Empty where
  polls _ _ := true
  react s event := ⟨[(call serde s event).1], .running (call serde s event).2⟩

/-- A call that fails keeps the set in memory, and a call that succeeds leaves it stored. -/
def Atomic (before after : PinnedState) (reply : PinnedReply) : Prop :=
  (reply.isOk = false → after.store.hosts = before.store.hosts) ∧
    (reply.isOk = true → loadPinnedHosts serde after.store.path after.disk = .ok after.store.hosts)

end PinnedHosts

/-! ## Reading back a persisted set -/

theorem mem_foldl_insertNormalized (hosts : List Str) (set : StrSet) (key : Str) :
    key ∈ hosts.foldl insertNormalized set ↔
      key ∈ set ∨ key ≠ [] ∧ ∃ host ∈ hosts, normalizeHost host = key := by
  induction hosts generalizing set with
  | nil => simp
  | cons host hosts ih =>
      rw [List.foldl_cons, ih]
      by_cases empty : normalizeHost host = []
      · have skipped : key ≠ [] → normalizeHost host ≠ key := fun ne same => ne (same ▸ empty)
        simp only [insertNormalized, empty, if_true, List.mem_cons, exists_eq_or_imp]
        grind
      · simp only [insertNormalized, empty, if_false, List.mem_cons, exists_eq_or_imp,
          Std.ExtTreeSet.mem_insert, Std.LawfulEqCmp.compare_eq_iff_eq]
        grind

theorem asStrings_array (strings : List Str) :
    (Json.array (strings.map .string)).asStrings = some strings := by
  have each : ∀ texts : List Str, (texts.map Json.string).mapM Json.asStr = some texts := by
    intro texts
    induction texts with
    | nil => rfl
    | cons text texts ih => simp [List.mapM_cons, ih, Json.asStr]
  exact each strings

/-- What a persisted set is read as. -/
def reloaded (hosts : StrSet) : StrSet := hosts.toList.foldl insertNormalized ∅

theorem mem_reloaded {hosts : StrSet} {key : Str} :
    key ∈ reloaded hosts ↔ key ≠ [] ∧ ∃ host ∈ hosts, normalizeHost host = key := by
  simp [reloaded, mem_foldl_insertNormalized]

variable {serde : Serde}

theorem loadPinnedHosts_of_text {path : FilePath} {disk : Disk} {hosts : StrSet}
    (holds : disk path = some (pinnedHostsText serde hosts)) :
    loadPinnedHosts serde path disk = .ok (reloaded hosts) := by
  have reads : readDisk disk path = .ok (pinnedHostsText serde hosts) := readDisk_pretty holds
  have canonical : (Json.array (hosts.toList.map .string)).Canonical 127 :=
    .array fun item mem => by
      obtain ⟨host, -, rfl⟩ := List.mem_map.mp mem
      exact .string host
  have parses : serde.stringsFromStr (pinnedHostsText serde hosts) = .ok hosts.toList := by
    simp [Serde.stringsFromStr, pinnedHostsText, serde.fromStr_toStringPretty _ canonical,
      asStrings_array, bind, Except.bind, pure, Except.pure]
  simp [loadPinnedHosts, holds, reads, parsePinnedHosts, parses, Except.mapError,
    bind, Except.bind, pure, Except.pure, reloaded]

/-- A loaded set holds no empty host. -/
theorem ne_nil_of_loadPinnedHosts {path : FilePath} {disk : Disk} {hosts : StrSet}
    (loads : loadPinnedHosts serde path disk = .ok hosts) {host : Str} (mem : host ∈ hosts) :
    host ≠ [] := by
  unfold loadPinnedHosts at loads
  split at loads
  · cases loads
    exact absurd mem (by simp)
  · simp only [parsePinnedHosts, bind_eq_ok_iff, mapError_eq_ok_iff, pure_eq_ok_iff] at loads
    obtain ⟨-, -, parsed, -, rfl⟩ := loads
    rcases (mem_foldl_insertNormalized _ _ _).mp mem with absent | ⟨ne, -⟩
    · exact absurd absent (by simp)
    · exact ne

/-- A set is read back unchanged exactly if its hosts are normalized. -/
theorem reloaded_eq_iff {hosts : StrSet} (filled : ∀ host ∈ hosts, host ≠ []) :
    reloaded hosts = hosts ↔ ∀ host ∈ hosts, normalizeHost host = host := by
  constructor
  · intro same host mem
    refine normalizeHost_eq_of_preimages hosts.toList ?_ host (by simpa using mem)
    intro host mem
    have back : host ∈ reloaded hosts := by
      rw [same]
      simpa using mem
    obtain ⟨-, raw, raw_mem, normalized⟩ := mem_reloaded.mp back
    exact ⟨raw, by simpa using raw_mem, normalized⟩
  · intro fixed
    refine Std.ExtTreeSet.ext_mem fun key => ?_
    rw [mem_reloaded]
    constructor
    · rintro ⟨-, host, mem, rfl⟩
      rwa [fixed host mem]
    · intro mem
      exact ⟨filled key mem, key, mem, fixed key mem⟩

/-! ## Calls that keep memory and file together -/

namespace PinnedHosts

/-- The file holds the set in memory. -/
def Agrees (serde : Serde) (s : PinnedState) : Prop :=
  loadPinnedHosts serde s.store.path s.disk = .ok s.store.hosts

/-- A new host is persisted and every host is normalized; a set that is cleared is empty before or
persisted, and the file is not left cut off in place. -/
def Persists (serde : Serde) (s : PinnedState) : PinnedCall → Prop
  | .add host outcomes =>
      normalizeHost host ≠ [] → normalizeHost host ∉ s.store.hosts →
        outcomes.Succeed s.store.path ∧
          ∀ key ∈ s.store.hosts.insert (normalizeHost host), normalizeHost key = key
  | .clear outcomes =>
      outcomes.Succeed s.store.path ∨
        s.store.hosts = ∅ ∧ (s.store.path.InPlace →
          ∀ error written, outcomes.write = .writeFails error written →
            (pinnedHostsText serde ∅).length ≤ written)

/-- What is asked of one call. -/
structure HoldsAt (serde : Serde) (s : PinnedState) (event : PinnedCall) : Prop where
  atomic : Atomic serde s (call serde s event).2 (call serde s event).1
  /-- A host is reported as known only if it is stored. -/
  stored : ∀ host outcomes, event = .add host outcomes → normalizeHost host ≠ [] →
    (call serde s event).1 = .added (.ok false) →
    ∃ hosts, loadPinnedHosts serde s.store.path s.disk = .ok hosts ∧ normalizeHost host ∈ hosts

/-- A call that loses the agreement between memory and file. -/
def Loses (s : PinnedState) : PinnedCall → Prop
  | .add host outcomes =>
      normalizeHost host ≠ [] ∧ normalizeHost host ∉ s.store.hosts ∧
        (¬ outcomes.Succeed s.store.path ∨
          ∃ key ∈ s.store.hosts.insert (normalizeHost host), normalizeHost key ≠ key)
  | .clear outcomes => s.store.hosts ≠ ∅ ∧ ¬ outcomes.Succeed s.store.path

/-- What a call to persist comes to. -/
theorem persist_cases (serde : Serde) (path : FilePath) (hosts : StrSet)
    (outcomes : Outcomes FsWrite)
    (disk : Disk) :
    (outcomes.Succeed path ∧ ∃ after,
      loadPinnedHosts serde path after = .ok (reloaded hosts) ∧
      persistPinnedHosts serde path hosts outcomes disk = (.ok (), after)) ∨
    (¬ outcomes.Succeed path ∧ ∃ error after,
      persistPinnedHosts serde path hosts outcomes disk = (.error error, after) ∧
      (after path = disk path ∨ after path = none ∨
        path.InPlace ∧ (after path = some (pinnedHostsText serde hosts) ∨
          ∃ error written, outcomes.write = .writeFails error written ∧
            after path = some ((pinnedHostsText serde hosts).take written)))) := by
  obtain ⟨succeed, after, holds, ends⟩ | fails :=
    replaceFile_cases path (pinnedHostsText serde hosts) outcomes disk
  · exact .inl ⟨succeed, after, loadPinnedHosts_of_text holds, ends⟩
  · exact .inr fails

theorem reloaded_empty : reloaded ∅ = ∅ := by
  refine Std.ExtTreeSet.ext_mem fun key => ?_
  simp [mem_reloaded]

theorem load_congr {path : FilePath} {disk after : Disk} (same : after path = disk path) :
    loadPinnedHosts serde path after = loadPinnedHosts serde path disk := by
  simp [loadPinnedHosts, readDisk, same]

theorem load_of_none {path : FilePath} {disk : Disk} (absent : disk path = none) :
    loadPinnedHosts serde path disk = .ok ∅ := by
  simp [loadPinnedHosts, absent]

/-- Hosts of a set with a new one are not empty. -/
theorem ne_nil_of_mem_insert {s : PinnedState} {key host : Str} (agrees : Agrees serde s)
    (filled : key ≠ []) (mem : host ∈ s.store.hosts.insert key) : host ≠ [] := by
  rcases Std.ExtTreeSet.mem_insert.mp mem with same | old
  · rwa [← Std.LawfulEqCmp.compare_eq_iff_eq.mp same]
  · exact ne_nil_of_loadPinnedHosts agrees old

/-! ### What a call does -/

theorem call_add_known (serde : Serde) {s : PinnedState} {host : Str} (outcomes : Outcomes FsWrite)
    (known : normalizeHost host = [] ∨ normalizeHost host ∈ s.store.hosts) :
    call serde s (.add host outcomes) = (.added (.ok false), s) := by
  by_cases empty : normalizeHost host = []
  · simp [call, addAndPersist, empty]
  · have mem := known.resolve_left empty
    simp [call, addAndPersist, empty, Std.ExtTreeSet.contains_iff_mem, mem]

theorem call_add_new {s : PinnedState} {host : Str} {outcomes : Outcomes FsWrite}
    (filled : normalizeHost host ≠ []) (new : normalizeHost host ∉ s.store.hosts)
    {result : Except IoError Unit} {disk : Disk}
    (ends : persistPinnedHosts serde s.store.path (s.store.hosts.insert (normalizeHost host))
      outcomes s.disk = (result, disk)) :
    call serde s (.add host outcomes) =
      (.added (result.map fun _ => true),
        ⟨{ s.store with hosts := s.store.hosts.insert (normalizeHost host) }, disk⟩) := by
  cases result <;>
    simp [call, addAndPersist, filled, Std.ExtTreeSet.contains_iff_mem, new, ends, Except.map]

theorem call_clear {s : PinnedState} {outcomes : Outcomes FsWrite} {result : Except IoError Unit}
    {disk : Disk}
    (ends : persistPinnedHosts serde s.store.path ∅ outcomes s.disk = (result, disk)) :
    call serde s (.clear outcomes) =
      (.cleared (result.map fun _ => s.store.hosts.size), ⟨{ s.store with hosts := ∅ }, disk⟩) := by
  cases result <;> simp [call, clearAndPersist, ends, Except.map]

theorem Agrees.add {s : PinnedState} {host : Str} {outcomes : Outcomes FsWrite}
    (agrees : Agrees serde s) (persists : Persists serde s (.add host outcomes)) :
    Agrees serde (call serde s (.add host outcomes)).2 ∧ HoldsAt serde s (.add host outcomes) := by
  by_cases known : normalizeHost host = [] ∨ normalizeHost host ∈ s.store.hosts
  · have same := call_add_known serde outcomes known
    refine ⟨by rwa [same], ⟨by simp [same, PinnedReply.isOk], fun _ => ?_⟩, ?_⟩
    · rwa [same]
    rintro _ _ ⟨⟩ filled -
    exact ⟨s.store.hosts, agrees, known.resolve_left filled⟩
  · obtain ⟨filled, new⟩ := not_or.mp known
    obtain ⟨succeed, fixed⟩ := persists filled new
    obtain ⟨-, after, loads, ends⟩ | ⟨fails, -⟩ := persist_cases serde s.store.path
      (s.store.hosts.insert (normalizeHost host)) outcomes s.disk
    · have does := call_add_new filled new ends
      have back := (reloaded_eq_iff fun key mem => ne_nil_of_mem_insert agrees filled mem).mpr fixed
      have next : Agrees serde (call serde s (.add host outcomes)).2 := by
        rw [does, Agrees, loads, back]
      refine ⟨next, ⟨by simp [does, PinnedReply.isOk, Except.map], fun _ => next⟩, ?_⟩
      rintro _ _ ⟨⟩ - skipped
      simp [does, Except.map] at skipped
    · exact absurd succeed fails

theorem Agrees.clear {s : PinnedState} {outcomes : Outcomes FsWrite} (agrees : Agrees serde s)
    (persists : Persists serde s (.clear outcomes)) :
    Agrees serde (call serde s (.clear outcomes)).2 ∧ HoldsAt serde s (.clear outcomes) := by
  obtain ⟨-, after, loads, ends⟩ | ⟨fails, error, after, ends, left⟩ :=
    persist_cases serde s.store.path ∅ outcomes s.disk
  · have does := call_clear ends
    have next : Agrees serde (call serde s (.clear outcomes)).2 := by
      rw [does, Agrees, loads, reloaded_empty]
    refine ⟨next, ⟨by simp [does, PinnedReply.isOk, Except.map], fun _ => next⟩, ?_⟩
    rintro _ _ ⟨⟩
  · obtain ⟨empty, whole⟩ := persists.resolve_left fails
    have does := call_clear ends
    have kept : loadPinnedHosts serde s.store.path after = .ok ∅ := by
      rcases left with same | gone | ⟨in_place, text | ⟨error, written, stops, text⟩⟩
      · rw [load_congr same, ← empty]
        exact agrees
      · exact load_of_none gone
      · rw [loadPinnedHosts_of_text text, reloaded_empty]
      · rw [List.take_of_length_le (whole in_place error written stops)] at text
        rw [loadPinnedHosts_of_text text, reloaded_empty]
    refine ⟨by rw [does]; exact kept, ⟨fun _ => by rw [does, empty], ?_⟩, by rintro _ _ ⟨⟩⟩
    simp [does, PinnedReply.isOk, Except.map]

/-- One call that meets the condition. -/
theorem Agrees.call {s : PinnedState} {event : PinnedCall} (agrees : Agrees serde s)
    (persists : Persists serde s event) :
    Agrees serde (call serde s event).2 ∧ HoldsAt serde s event := by
  cases event with
  | add host outcomes => exact agrees.add persists
  | clear outcomes => exact agrees.clear persists

/-- One call that loses the agreement. -/
theorem Loses.not_atomic {s : PinnedState} {event : PinnedCall} (agrees : Agrees serde s)
    (loses : Loses s event) :
    ¬ Atomic serde s (PinnedHosts.call serde s event).2 (PinnedHosts.call serde s event).1 := by
  cases event with
  | add host outcomes =>
      obtain ⟨filled, new, loses⟩ := loses
      rintro ⟨kept, stored⟩
      obtain ⟨succeed, after, loads, ends⟩ | ⟨-, error, after, ends, -⟩ :=
        persist_cases serde s.store.path (s.store.hosts.insert (normalizeHost host)) outcomes s.disk
      · obtain ⟨key, mem, raw⟩ := loses.resolve_left (not_not.mpr succeed)
        rw [call_add_new filled new ends] at stored
        have same := stored rfl
        rw [loads, Except.ok.injEq] at same
        exact raw ((reloaded_eq_iff fun key mem => ne_nil_of_mem_insert agrees filled mem).mp same
          key mem)
      · rw [call_add_new filled new ends] at kept
        have same := kept rfl
        exact new (same ▸ Std.ExtTreeSet.mem_insert_self)
  | clear outcomes =>
      obtain ⟨filled, fails⟩ := loses
      rintro ⟨kept, -⟩
      obtain ⟨succeed, -⟩ | ⟨-, error, after, ends, -⟩ :=
        persist_cases serde s.store.path ∅ outcomes s.disk
      · exact fails succeed
      · rw [call_clear ends] at kept
        exact filled (kept rfl).symm

/-- Along calls that meet the condition, memory and file agree. -/
theorem Agrees.of_run {initial s : PinnedState} {calls : List PinnedCall}
    {replies : List PinnedReply} (agrees : Agrees serde initial)
    (execution : (machine serde).Run initial calls replies (.running s))
    (each : (machine serde).EachStep (Persists serde) initial calls) : Agrees serde s := by
  refine execution.history
    (fun calls _ s => (machine serde).EachStep (Persists serde) initial calls → Agrees serde s)
    (fun _ => agrees) ?_ each
  intro calls replies s event now next execution ih _ reacts each
  have persists := each.last execution
  injection reacts with _ status
  injection status with same
  rw [← same]
  exact ((ih each.front).call persists).1

theorem Agrees.of_load {path : FilePath} {disk : Disk} {initial : PinnedState}
    (loads : load serde path disk = .ok initial) : Agrees serde initial := by
  simp only [load, bind_eq_ok_iff, pure_eq_ok_iff] at loads
  obtain ⟨hosts, loads, rfl⟩ := loads
  exact loads

/-- Calls are atomic along every run whose calls all persist what they change, and the first call
that does not is not atomic. -/
theorem calls_atomic (serde : Serde) {path : FilePath} {disk : Disk} {initial : PinnedState}
    (loads : load serde path disk = .ok initial) :
    (∀ calls replies s event, (machine serde).Run initial calls replies (.running s) →
      (machine serde).EachStep (Persists serde) initial (calls ++ [event]) →
      HoldsAt serde s event) ∧
    (∀ calls replies s event, (machine serde).Run initial calls replies (.running s) →
      (machine serde).EachStep (Persists serde) initial calls → Loses s event →
      ¬ Atomic serde s (call serde s event).2 (call serde s event).1) := by
  have agrees := Agrees.of_load loads
  constructor
  · intro calls replies s event execution each
    exact ((agrees.of_run execution each.front).call (each.last execution)).2
  · intro calls replies s event execution each loses
    exact loses.not_atomic (agrees.of_run execution each)

/-! ### A full disk -/

def samplePinnedTexts : JsonTexts :=
  .checked [.array [], .array [.string (ascii "example.com")]]
    (by decide +kernel) (by decide +kernel) (by decide +kernel) (by decide +kernel)

def samplePinnedPath : FilePath := .join [ascii "state"] (ascii "pinned_hosts.json")

def samplePinned : PinnedState := ⟨⟨samplePinnedPath, ∅⟩, fun _ => none⟩

/-- Pin a host while every step works, except for the write where it is given. -/
def samplePin (write : FsWrite) : PinnedCall :=
  .add (ascii "example.com") { Outcomes.smooth with write }

def sampleFull : FsWrite := .openFails ⟨.other, ascii "No space left on device (os error 28)"⟩

theorem samplePinned_loads :
    load samplePinnedTexts.serde samplePinnedPath (fun _ => none) = .ok samplePinned := rfl

theorem samplePin_loses : Loses samplePinned (samplePin sampleFull) := by
  refine ⟨by decide +kernel, Std.ExtTreeSet.not_mem_empty, .inl fun succeed => ?_⟩
  cases succeed.written

/-- A pin that fails stays in memory, and the retry returns `Ok(false)` without writing it. -/
theorem failed_pin_skipped_on_retry :
    let failed := call samplePinnedTexts.serde samplePinned (samplePin sampleFull)
    let retried := call samplePinnedTexts.serde failed.2 (samplePin .done)
    failed.1.isOk = false ∧ failed.2.store.hosts ≠ samplePinned.store.hosts ∧
      retried.1 = .added (.ok false) ∧
      loadPinnedHosts samplePinnedTexts.serde samplePinnedPath retried.2.disk = .ok ∅ ∧
      retried.2.store.hosts ≠ ∅ := by
  intro failed retried
  have held : retried.2.store.hosts.contains (ascii "example.com") = true := by decide +kernel
  have kept : retried.2.store.hosts = failed.2.store.hosts := by
    rw [show retried = (.added (.ok false), failed.2) from
      call_add_known _ _ (.inr (by decide +kernel))]
  have changed : retried.2.store.hosts ≠ ∅ := by
    intro empty
    rw [empty, Std.ExtTreeSet.contains_empty] at held
    cases held
  refine ⟨by decide +kernel, ?_, by decide +kernel, load_of_none (by decide +kernel), changed⟩
  rw [← kept]
  exact changed

/-- The first pin is stored while the disk works and not atomic while it is full. -/
theorem samplePinned_calls :
    HoldsAt samplePinnedTexts.serde samplePinned (samplePin .done) ∧
      ¬ Atomic samplePinnedTexts.serde samplePinned
        (call samplePinnedTexts.serde samplePinned (samplePin sampleFull)).2
        (call samplePinnedTexts.serde samplePinned (samplePin sampleFull)).1 := by
  obtain ⟨holds, loses⟩ := calls_atomic samplePinnedTexts.serde samplePinned_loads
  constructor
  · refine holds [] [] samplePinned _ (.stop _) (.snoc .nil ?_)
    intro seen state execution
    cases execution with
    | stop =>
        intro filled new
        refine ⟨Outcomes.succeed_smooth _, fun key mem => ?_⟩
        rcases Std.ExtTreeSet.mem_insert.mp mem with same | old
        · rw [← Std.LawfulEqCmp.compare_eq_iff_eq.mp same]
          decide +kernel
        · exact absurd old Std.ExtTreeSet.not_mem_empty
  · exact loses [] [] samplePinned _ (.stop _) .nil samplePin_loses

end PinnedHosts

end PrivacyEngine
