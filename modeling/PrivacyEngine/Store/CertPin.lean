import PrivacyEngine.Reactive
import PrivacyEngine.Wire.JsonText
import PrivacyEngine.Store.HostKeys
import PrivacyEngine.Store.Persist

/-!
# Certificate pins

Fingerprints that are trusted on first use, kept in memory and in a file.  A check takes the read
lock, and then, with the lock released in between, the write lock; each section under a lock is one
step of the machine, and sections of any number of calls interleave.
-/

namespace PrivacyEngine

open Wire FileSystem Reactive

structure CertPin where
  fingerprints : List Str
  firstSeen : UInt64
  lastSeen : UInt64
  hitCount : UInt64
  deriving DecidableEq

/-- An unsigned field that is zero when absent or ill-typed. -/
def u64Field (members : List (Str × Json)) (key : Str) : UInt64 :=
  ((members.lookup key).bind Json.asU64).getD 0

namespace CertPin

def toJson (pin : CertPin) : Json :=
  .object
    [(ascii "fingerprints", .array (pin.fingerprints.map .string)),
      (ascii "first_seen", .number (.posInt pin.firstSeen)),
      (ascii "hit_count", .number (.posInt pin.hitCount)),
      (ascii "last_seen", .number (.posInt pin.lastSeen))]

def fromJson (value : Json) : Option CertPin := do
  let members ← value.asObject
  let list ← members.lookup (ascii "fingerprints")
  let items ← list.asArray
  return {
    fingerprints := items.filterMap Json.asStr
    firstSeen := u64Field members (ascii "first_seen")
    lastSeen := u64Field members (ascii "last_seen")
    hitCount := u64Field members (ascii "hit_count") }

end CertPin

/-- Pins by normalized host. -/
abbrev Pins := StrMap CertPin

/-- Result of comparing the upstream certificate with the recorded pins. -/
inductive PinCheckResult where
  | firstSeen
  | pinned
  | mismatch (expected : List Str) (got : Str)
  deriving DecidableEq

/-! ## The file -/

/-- The library and the path behind a database. -/
structure CertPinDb where
  serde : Serde
  path : FilePath

namespace CertPinDb

variable (db : CertPinDb)

def pinsText (pins : Pins) : Str :=
  db.serde.toStringPretty (.object (pins.toList.map fun (host, pin) => (host, pin.toJson)))

def persist (pins : Pins) (outcomes : Outcomes FsWrite) (disk : Disk) :
    Except IoError Unit × Disk :=
  replaceFile db.path outcomes.createDirAll (outcomes.write.step (db.pinsText pins))
    outcomes.renames disk

def insertParsed (pins : Pins) (member : Str × Json) : Pins :=
  match CertPin.fromJson member.2 with
  | some pin => pins.insert member.1 pin
  | none => pins

def load (disk : Disk) : Except IoError Pins :=
  if (disk db.path).isNone then .ok ∅
  else do
    let raw ← readDisk disk db.path
    let parsed ← (db.serde.fromStr raw).mapError fun error =>
      invalidData (ascii "invalid cert-pin JSON: " ++ error)
    match parsed.asObject with
    | some members => return members.foldl insertParsed ∅
    | none => .error (invalidData (ascii "cert-pin JSON must be an object"))

/-! ## Sections -/

/-- Arguments of a check, with the time it reads before it takes a lock. -/
structure Check where
  host : Str
  fingerprint : Str
  now : UInt64
  deriving DecidableEq

def Check.key (check : Check) : Str := normalizeHost check.host

/-- The section a check is in front of. -/
inductive Phase where
  | reading
  | updating
  | inserting
  deriving DecidableEq

/-- The section under the read lock: it returns, or leads to one of the two sections under the
write lock. -/
def readSection (pins : Pins) (check : Check) : Phase ⊕ PinCheckResult :=
  match pins[check.key]? with
  | some pin =>
      if check.fingerprint ∈ pin.fingerprints then .inl .updating
      else .inr (.mismatch pin.fingerprints check.fingerprint)
  | none => .inl .inserting

def touch (pin : CertPin) (now : UInt64) : CertPin :=
  { pin with lastSeen := now, hitCount := saturatingAdd pin.hitCount 1 }

/-- The section that records a hit of the fast path. -/
def updateSection (pins : Pins) (check : Check) (outcomes : Outcomes FsWrite) (disk : Disk) :
    Except IoError PinCheckResult × Pins × Disk :=
  let pins :=
    match pins[check.key]? with
    | some pin => pins.insert check.key (touch pin check.now)
    | none => pins
  let (result, disk) := db.persist pins outcomes disk
  (result.map fun _ => .pinned, pins, disk)

/-- The section that inserts a host not found before, after looking for it once more. -/
def insertSection (pins : Pins) (check : Check) (outcomes : Outcomes FsWrite) (disk : Disk) :
    Except IoError PinCheckResult × Pins × Disk :=
  match pins[check.key]? with
  | some pin =>
      if check.fingerprint ∈ pin.fingerprints then (.ok .pinned, pins, disk)
      else (.ok (.mismatch pin.fingerprints check.fingerprint), pins, disk)
  | none =>
      let pins := pins.insert check.key
        { fingerprints := [check.fingerprint]
          firstSeen := check.now
          lastSeen := check.now
          hitCount := 1 }
      let (result, disk) := db.persist pins outcomes disk
      (result.map fun _ => .firstSeen, pins, disk)

/-- The entry that `add_fingerprint` works on. -/
def entryFor (pins : Pins) (key : Str) (now : UInt64) : CertPin :=
  (pins[key]?).getD { fingerprints := [], firstSeen := now, lastSeen := now, hitCount := 0 }

def withFingerprint (pin : CertPin) (fingerprint : Str) (now : UInt64) : CertPin :=
  { pin with
    fingerprints :=
      if fingerprint ∈ pin.fingerprints then pin.fingerprints
      else pin.fingerprints ++ [fingerprint]
    lastSeen := now }

def addFingerprint (pins : Pins) (host fingerprint : Str) (now : UInt64)
    (outcomes : Outcomes FsWrite) (disk : Disk) : Except IoError Unit × Pins × Disk :=
  let key := normalizeHost host
  let pins := pins.insert key (withFingerprint (entryFor pins key now) fingerprint now)
  let (result, disk) := db.persist pins outcomes disk
  (result, pins, disk)

/-! ## Interleavings -/

/-- The database, its file, and the checks in flight by caller. -/
structure State where
  pins : Pins
  disk : Disk
  checks : Nat → Option (Check × Phase)

inductive Event where
  | start (caller : Nat) (check : Check)
  | underReadLock (caller : Nat)
  | underWriteLock (caller : Nat) (outcomes : Outcomes FsWrite)
  | addFingerprint (host fingerprint : Str) (now : UInt64) (outcomes : Outcomes FsWrite)
  | restart

inductive Output where
  | checked (check : Check) (result : Except IoError PinCheckResult)
  | added (host fingerprint : Str) (result : Except IoError Unit)
  deriving DecidableEq

/-- The checks in flight with that of one caller replaced. -/
def setCheck (checks : Nat → Option (Check × Phase)) (caller : Nat)
    (check : Option (Check × Phase)) : Nat → Option (Check × Phase) :=
  Function.update checks caller check

def polls (s : State) : Event → Bool
  | .start caller _ => (s.checks caller).isNone
  | .underReadLock caller =>
      match s.checks caller with
      | some (_, .reading) => true
      | _ => false
  | .underWriteLock caller _ =>
      match s.checks caller with
      | some (_, .updating) | some (_, .inserting) => true
      | _ => false
  | .addFingerprint .. | .restart => true

/-- The section under the write lock that a check is in front of. -/
def writeSection (phase : Phase) (pins : Pins) (check : Check) (outcomes : Outcomes FsWrite)
    (disk : Disk) : Except IoError PinCheckResult × Pins × Disk :=
  match phase with
  | .inserting => db.insertSection pins check outcomes disk
  | _ => db.updateSection pins check outcomes disk

def react (s : State) : Event → Reaction State Output IoError
  | .start caller check =>
      ⟨[], .running { s with checks := setCheck s.checks caller (some (check, .reading)) }⟩
  | .underReadLock caller =>
      match s.checks caller with
      | none => ⟨[], .running s⟩
      | some (check, _) =>
          match readSection s.pins check with
          | .inl phase =>
              ⟨[], .running { s with checks := setCheck s.checks caller (some (check, phase)) }⟩
          | .inr result =>
              ⟨[.checked check (.ok result)],
                .running { s with checks := setCheck s.checks caller none }⟩
  | .underWriteLock caller outcomes =>
      match s.checks caller with
      | none => ⟨[], .running s⟩
      | some (check, phase) =>
          let (result, pins, disk) := db.writeSection phase s.pins check outcomes s.disk
          ⟨[.checked check result],
            .running { pins, disk, checks := setCheck s.checks caller none }⟩
  | .addFingerprint host fingerprint now outcomes =>
      let (result, pins, disk) :=
        db.addFingerprint s.pins host fingerprint now outcomes s.disk
      ⟨[.added host fingerprint result], .running { s with pins, disk }⟩
  | .restart =>
      match db.load s.disk with
      | .ok pins => ⟨[], .running { s with pins, checks := fun _ => none }⟩
      | .error error => ⟨[], .halted error⟩

def machine : Machine State Event Output IoError where
  polls := polls
  react := db.react

/-- A fresh database without a file. -/
def fresh : State where
  pins := ∅
  disk _ := none
  checks _ := none

/-! ## Reading back a persisted database -/

theorem fromJson_toJson (pin : CertPin) : CertPin.fromJson pin.toJson = some pin := by
  have fields : CertPin.fromJson pin.toJson =
      some { pin with fingerprints := (pin.fingerprints.map Json.string).filterMap Json.asStr } :=
    rfl
  rw [fields, Json.filterMap_asStr_map_string]

theorem canonical_toJson (pin : CertPin) : pin.toJson.Canonical 126 := by
  have sorted : Json.increasing [ascii "fingerprints", ascii "first_seen", ascii "hit_count",
      ascii "last_seen"] = true := by
    decide +kernel
  refine .object_of_keys sorted ?_
  simp only [List.mem_cons, List.not_mem_nil, or_false]
  rintro member (rfl | rfl | rfl | rfl)
  · refine .array fun item mem => ?_
    obtain ⟨fingerprint, -, rfl⟩ := List.mem_map.mp mem
    exact .string fingerprint
  · exact .posInt pin.firstSeen
  · exact .posInt pin.hitCount
  · exact .posInt pin.lastSeen

variable {db : CertPinDb}

/-- A database is loaded from its own text. -/
theorem load_of_text {disk : Disk} {pins : Pins}
    (holds : disk db.path = some (db.pinsText pins)) : db.load disk = .ok pins := by
  have reads : readDisk disk db.path = .ok (db.pinsText pins) := readDisk_pretty holds
  have canonical :
      (Json.object (pins.toList.map fun (host, pin) => (host, pin.toJson))).Canonical 127 := by
    refine .object (List.pairwise_map.mpr Std.ExtTreeMap.ordered_keys_toList) ?_
    · intro member mem
      obtain ⟨entry, -, rfl⟩ := List.mem_map.mp mem
      exact canonical_toJson entry.2
  have parses : db.serde.fromStr (db.pinsText pins) = .ok (.object _) :=
    db.serde.fromStr_toStringPretty _ canonical
  have filled : (pins.toList.map fun (host, pin) => (host, pin.toJson)).foldl insertParsed ∅ =
      pins := by
    rw [List.foldl_map]
    simp only [insertParsed, fromJson_toJson]
    exact pins.foldl_insert_toList
  simp [load, holds, reads, parses, Except.mapError, Json.asObject, filled, bind,
    Except.bind, pure, Except.pure]

/-- Loading what has been persisted gives back the database. -/
theorem persist_of_succeed {outcomes : Outcomes FsWrite} (succeed : outcomes.Succeed db.path)
    (pins : Pins) (disk : Disk) :
    ∃ after, db.persist pins outcomes disk = (.ok (), after) ∧ db.load after = .ok pins := by
  obtain ⟨-, after, holds, ends⟩ | ⟨fails, -⟩ :=
    replaceFile_cases db.path (db.pinsText pins) outcomes disk
  · exact ⟨after, ends, load_of_text holds⟩
  · exact absurd succeed fails

end CertPinDb

end PrivacyEngine
