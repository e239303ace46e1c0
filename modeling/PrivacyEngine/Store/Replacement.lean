import PrivacyEngine.Store.CertPin
import PrivacyEngine.Store.PinnedHosts
import PrivacyEngine.Store.Receipts

/-!
# When persistence keeps the destination

Four functions replace a file through a temporary one: pinned hosts, certificate pins, receipts and
cached filter lists.  They share the fallback for a rename that is refused, which removes the
destination before it tries again, and the receipts are written through a buffer whose last flush
is not checked.
-/

namespace PrivacyEngine

open Wire FileSystem

/-! ## Cached filter lists -/

/-- Bytes that continue a character of several bytes. -/
def isContinuation (byte : UInt8) : Bool := 0x80 ≤ byte && byte < 0xC0

def isAsciiAlphanumeric (byte : UInt8) : Bool :=
  (48 ≤ byte && byte ≤ 57) || (65 ≤ byte && byte ≤ 90) || (97 ≤ byte && byte ≤ 122)

/-- One character for every character of the URL. -/
def cacheFilename (url : Str) : Str :=
  (url.filter fun byte => !isContinuation byte).map fun byte =>
    if isAsciiAlphanumeric byte || byte == 46 then byte else 95

def cacheTarget (cacheDir : List Str) (url : Str) : FilePath := .join cacheDir (cacheFilename url)

def cacheToDisk (cacheDir : List Str) (url body : Str) (outcomes : Outcomes FsWrite) (disk : Disk) :
    Except IoError FilePath × Disk :=
  let target := cacheTarget cacheDir url
  let temporary := .join cacheDir (cacheFilename url ++ ascii ".tmp")
  let (result, disk) := replaceVia occupied missing temporary target outcomes.createDirAll
    (outcomes.write.step body) outcomes.renames disk
  (result.map fun _ => target, disk)

/-! ## Exact conditions -/

/-- The directory of a destination is there or can be created. -/
def Created {W : Type} (path : FilePath) (outcomes : Outcomes W) : Prop :=
  path.parent.isSome = true → outcomes.createDirAll = .ok ()

/-- The steps behind the creation of the directory keep a destination that is replaced through its
own name with the extension `tmp`. -/
def KeepsFile (path : FilePath) (before : Option Bytes) (content : Bytes)
    (write : Write Bytes IoError) (renames : Renames IoError) : Prop :=
  Keeps occupied (path.withExtension (ascii "tmp")) path before content write renames

theorem replaceFile_replaces_iff {W : Type} (path : FilePath) (outcomes : Outcomes W)
    (write : Write Bytes IoError) (content : Bytes) (disk : Disk) :
    Replaces disk path content
        (replaceFile path outcomes.createDirAll write outcomes.renames disk) ↔
      (Created path outcomes → KeepsFile path (disk path) content write outcomes.renames) := by
  unfold replaceFile
  rw [replaceVia_replaces_iff]
  by_cases parent : path.parent.isSome = true
  · simp [Created, KeepsFile, parent]
  · simp [Created, KeepsFile, parent]

theorem replaces_map {α β : Type} {before : Disk} {path : FilePath} {content : Bytes}
    {result : Except IoError α × Disk} (f : α → β) :
    Replaces before path content (result.1.map f, result.2) ↔
      Replaces before path content result := by
  obtain ⟨result, after⟩ := result
  cases result with
  | ok value => simp [Replaces, Except.map]
  | error error => simp [Replaces, Except.map]

/-- The temporary file of a cached list is never the list itself. -/
theorem cache_temporary_ne (cacheDir : List Str) (url : Str) :
    FilePath.join cacheDir (cacheFilename url ++ ascii ".tmp") ≠ cacheTarget cacheDir url := by
  intro same
  have names : cacheFilename url ++ ascii ".tmp" = cacheFilename url := by
    simpa [cacheTarget, FilePath.join] using same
  exact absurd (List.append_right_eq_self.mp names) (by decide)

/-- A plain write to a file of its own is unsafe only if the destination is removed and the second
rename fails. -/
theorem keeps_plain_iff {temporary target : FilePath} (separate : temporary ≠ target)
    {before : Option Bytes} {content : Bytes} {write : FsWrite} {renames : Renames IoError} :
    Keeps occupied temporary target before content (write.step content) renames ↔
      (write = .done → renames.Strands occupied False → before = none) := by
  have apart : (temporary = target) = False := eq_false separate
  cases write with
  | done => simp [FsWrite.step, keeps_finished_iff, apart]
  | openFails error =>
      exact iff_of_true ⟨by simp [FsWrite.step], by simp [FsWrite.step], by simp [FsWrite.step],
        by simp [FsWrite.step]⟩ (by simp)
  | writeFails error written => simp [FsWrite.step, keeps_stopped_iff, apart]

/-- The four writers install the new content when they succeed and keep the old one when they fail
exactly under these outcomes. -/
theorem persistence_safe_iff (serde : Serde) (disk : Disk) :
    (∀ path hosts outcomes,
      Replaces disk path (pinnedHostsText serde hosts)
          (persistPinnedHosts serde path hosts outcomes disk) ↔
        (Created path outcomes → KeepsFile path (disk path) (pinnedHostsText serde hosts)
          (outcomes.write.step (pinnedHostsText serde hosts)) outcomes.renames)) ∧
    (∀ path pins outcomes,
      Replaces disk path (CertPinDb.pinsText ⟨serde, path⟩ pins)
          (CertPinDb.persist ⟨serde, path⟩ pins outcomes disk) ↔
        (Created path outcomes → KeepsFile path (disk path) (CertPinDb.pinsText ⟨serde, path⟩ pins)
          (outcomes.write.step (CertPinDb.pinsText ⟨serde, path⟩ pins)) outcomes.renames)) ∧
    (∀ path json outcomes,
      Replaces disk path (serde.toStringPretty json)
          (persistReceipts serde path json outcomes disk) ↔
        (Created path outcomes → KeepsFile path (disk path) (serde.toStringPretty json)
          (outcomes.write.step (serde.toStringPretty json)
            (ascii "failed to serialize receipts: ")) outcomes.renames)) ∧
    (∀ cacheDir url body outcomes,
      Replaces disk (cacheTarget cacheDir url) body
          (cacheToDisk cacheDir url body outcomes disk) ↔
        (outcomes.createDirAll = .ok () → outcomes.write = .done →
          outcomes.renames.Strands occupied False → disk (cacheTarget cacheDir url) = none)) := by
  refine ⟨fun path hosts outcomes => ?_, fun path pins outcomes => ?_,
    fun path json outcomes => ?_, fun cacheDir url body outcomes => ?_⟩
  · exact replaceFile_replaces_iff path outcomes _ _ disk
  · exact replaceFile_replaces_iff path outcomes _ _ disk
  · exact replaceFile_replaces_iff path outcomes _ _ disk
  · rw [cacheToDisk, replaces_map, replaceVia_replaces_iff,
      keeps_plain_iff (cache_temporary_ne cacheDir url)]

/-! ### A destination that is lost -/

/-- A rename that is refused, a removal that works and a rename that fails. -/
def sampleRefused : Renames IoError where
  first := .error ⟨.permissionDenied, ascii "Permission denied (os error 13)"⟩
  removal := .ok ()
  second := .error ⟨.permissionDenied, ascii "Permission denied (os error 13)"⟩

def sampleHostsFile : FilePath := .join [ascii "var"] (ascii "hosts.json")

def sampleDisk : Disk := put (fun _ => none) sampleHostsFile (ascii "[]")

/-- The call fails and the destination is gone; and a call that loses its last buffer succeeds. -/
theorem destination_lost :
    ((persistPinnedHosts PinnedHosts.samplePinnedTexts.serde sampleHostsFile ∅
        ⟨.ok (), .done, sampleRefused⟩ sampleDisk).1.isOk = false ∧
      (persistPinnedHosts PinnedHosts.samplePinnedTexts.serde sampleHostsFile ∅
        ⟨.ok (), .done, sampleRefused⟩ sampleDisk).2 sampleHostsFile = none ∧
      sampleDisk sampleHostsFile = some (ascii "[]")) ∧
    (persistReceipts PinnedHosts.samplePinnedTexts.serde sampleHostsFile (.array [])
        { Outcomes.whole with write := .dropped 1 } sampleDisk).1 = .ok () ∧
      (persistReceipts PinnedHosts.samplePinnedTexts.serde sampleHostsFile (.array [])
        { Outcomes.whole with write := .dropped 1 } sampleDisk).2 sampleHostsFile =
        some (ascii "[") := by
  decide +kernel

end PrivacyEngine
