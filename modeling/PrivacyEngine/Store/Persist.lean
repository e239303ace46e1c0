import Mathlib.Data.List.Basic
import PrivacyEngine.Io
import PrivacyEngine.Wire.Json
import PrivacyEngine.Store.FileSystem

/-!
# Writing files of the engine

Paths as the standard library takes them apart, what the writers of the engine can meet with, and
the replacement of a file that all of them go through.
-/

namespace PrivacyEngine

open Wire FileSystem

/-- Hash sets of strings, which are only ever iterated in sorted order. -/
abbrev StrSet := Std.ExtTreeSet Str compare

/-- Hash maps from strings.  They are iterated only to fill a sorted map. -/
abbrev StrMap (α : Type) := Std.ExtTreeMap Str α compare

namespace StrMap

variable {α : Type}

theorem getElem?_insert (map : StrMap α) (key other : Str) (value : α) :
    (map.insert key value)[other]? = if key = other then some value else map[other]? := by
  simp [Std.ExtTreeMap.getElem?_insert]

/-- A map is filled again from its sorted list. -/
theorem foldl_insert_toList (map : StrMap α) :
    map.toList.foldl (fun filled entry => filled.insert entry.1 entry.2) ∅ = map := by
  have listed : Std.ExtTreeMap.ofList map.toList compare =
      map.toList.foldl (fun filled entry => filled.insert entry.1 entry.2) ∅ :=
    Std.ExtTreeMap.ofList_eq_foldl
  rw [← listed]
  refine Std.ExtTreeMap.ext_getElem? fun key => ?_
  rcases held : map[key]? with - | value
  · refine Std.ExtTreeMap.getElem?_ofList_of_contains_eq_false ?_
    refine Bool.eq_false_iff.mpr fun listed => ?_
    obtain ⟨⟨other, value⟩, mem, rfl⟩ := List.mem_map.mp (List.contains_iff_mem.mp listed)
    rw [Std.ExtTreeMap.mem_toList_iff_getElem?_eq_some.mp mem] at held
    cases held
  · exact Std.ExtTreeMap.getElem?_ofList_of_mem Std.ReflCmp.compare_self
      Std.ExtTreeMap.distinct_keys_toList (Std.ExtTreeMap.mem_toList_iff_getElem?_eq_some.mpr held)

end StrMap

/-! ## Paths -/

/-- A path: the components of its parent and its last component, where these exist. -/
structure FilePath where
  parent : Option (List Str)
  fileName : Option Str
  deriving DecidableEq

namespace FilePath

/-- What stands before and behind the last dot of a file name.  A name that only starts with a dot
has nothing behind it. -/
def rsplitFileAtDot (file : Str) : Option Str × Option Str :=
  if file = ascii ".." then (some file, none)
  else
    let after := file.rtakeWhile (· ≠ 46)
    match file.rdropWhile (· ≠ 46) with
    | [] => (none, some after)
    | [_] => (some file, none)
    | before => (some before.dropLast, some after)

def fileStem (path : FilePath) : Option Str :=
  path.fileName.bind fun file => (rsplitFileAtDot file).1.or (rsplitFileAtDot file).2

def withExtension (path : FilePath) (extension : Str) : FilePath :=
  match path.fileStem with
  | none => path
  | some stem =>
      { path with fileName := some (if extension = [] then stem else stem ++ 46 :: extension) }

/-- A file in a directory. -/
def join (directory : List Str) (file : Str) : FilePath := ⟨some directory, some file⟩

end FilePath

/-! ## Writers -/

/-- What `fs::write` meets with. -/
inductive FsWrite where
  | done
  | openFails (error : IoError)
  | writeFails (error : IoError) (written : Nat)

def FsWrite.step (content : Bytes) : FsWrite → Write Bytes IoError
  | done => .finished content
  | openFails error => .notOpened error
  | writeFails error written => .stopped (content.take written) error

instance BufferedWrite.neZero : @NeZero Nat Zero.ofOfNat0 8193 := ⟨Nat.succ_ne_zero 8192⟩

/-- What a serializer meets with that writes through a buffer of 8192 bytes.  The last buffer is
flushed when the writer is dropped, and bytes it loses then are lost in silence. -/
inductive BufferedWrite where
  | createFails (error : IoError)
  | writeFails (error : Str) (written : Nat)
  | dropped (lost : Fin 8193)

def BufferedWrite.step (content message : Bytes) : BufferedWrite → Write Bytes IoError
  | createFails error => .notOpened error
  | writeFails error written => .stopped (content.take written) (invalidData (message ++ error))
  | dropped lost => .finished (content.take (content.length - lost))

/-- Outcomes of the steps of one call. -/
structure Outcomes (W : Type) where
  createDirAll : Except IoError Unit
  write : W
  renames : Renames IoError

/-- Errors of a rename that are taken for a destination in the way. -/
def occupied (error : IoError) : Bool :=
  error.kind = .alreadyExists || error.kind = .permissionDenied

def missing : IoError := ⟨.notFound, ascii "No such file or directory (os error 2)"⟩

/-- The disk: contents by path. -/
abbrev Disk := Files FilePath Bytes

/-- Create the parent directory, write the temporary file beside the destination and rename it. -/
def replaceFile (path : FilePath) (createDirAll : Except IoError Unit)
    (write : Write Bytes IoError) (renames : Renames IoError) (disk : Disk) :
    Except IoError Unit × Disk :=
  replaceVia occupied missing (path.withExtension (ascii "tmp")) path
    (if path.parent.isSome then createDirAll else .ok ()) write renames disk

/-- The temporary file is the destination itself. -/
def FilePath.InPlace (path : FilePath) : Prop := path.withExtension (ascii "tmp") = path

/-- The outcomes under which a plain write reports success. -/
structure Outcomes.Succeed (outcomes : Outcomes FsWrite) (path : FilePath) : Prop where
  created : path.parent.isSome = true → outcomes.createDirAll = .ok ()
  written : outcomes.write = .done
  installed : outcomes.renames.Installs occupied path.InPlace

/-- Every step works. -/
def Outcomes.smooth : Outcomes FsWrite := ⟨.ok (), .done, ⟨.ok (), .ok (), .ok ()⟩⟩

theorem Outcomes.succeed_smooth (path : FilePath) : Outcomes.smooth.Succeed path :=
  ⟨fun _ => rfl, rfl, .inl rfl⟩

/-- What replacing a file by a plain write comes to. -/
theorem replaceFile_cases (path : FilePath) (content : Bytes) (outcomes : Outcomes FsWrite)
    (disk : Disk) :
    (outcomes.Succeed path ∧ ∃ after, after path = some content ∧
      replaceFile path outcomes.createDirAll (outcomes.write.step content) outcomes.renames disk =
        (.ok (), after)) ∨
    (¬ outcomes.Succeed path ∧ ∃ error after,
      replaceFile path outcomes.createDirAll (outcomes.write.step content) outcomes.renames disk =
        (.error error, after) ∧
      (after path = disk path ∨ after path = none ∨
        path.InPlace ∧ (after path = some content ∨ ∃ error written,
          outcomes.write = .writeFails error written ∧
          after path = some (content.take written)))) := by
  obtain ⟨createDirAll, write, renames⟩ := outcomes
  unfold replaceFile
  obtain ⟨⟨created, -, installs⟩, left, after, finished, holds, ends⟩ |
    ⟨fails, error, after, ends, left⟩ :=
    replaceVia_cases occupied missing (path.withExtension (ascii "tmp")) path
      (if path.parent.isSome then createDirAll else .ok ()) (write.step content) renames disk
  · cases write with
    | openFails error => cases finished
    | writeFails error written => cases finished
    | done =>
        cases finished
        refine .inl ⟨⟨fun has_parent => ?_, rfl, installs⟩, after, holds, ends⟩
        simpa [has_parent] using created
  · refine .inr ⟨fun succeed => fails ?_, error, after, ends, ?_⟩
    · obtain ⟨created, written, installed⟩ := succeed
      refine ⟨?_, ⟨content, by rw [show write = .done from written]; rfl⟩, installed⟩
      split
      · exact created ‹_›
      · rfl
    · rcases left with kept | gone | ⟨in_place, left, holds, finished | ⟨failure, stopped⟩⟩
      · exact .inl kept
      · exact .inr (.inl gone)
      · cases write with
        | done =>
            cases finished
            exact .inr (.inr ⟨in_place, .inl holds⟩)
        | openFails error => cases finished
        | writeFails error written => cases finished
      · cases write with
        | done => cases stopped
        | openFails error => cases stopped
        | writeFails error written =>
            cases stopped
            exact .inr (.inr ⟨in_place, .inr ⟨failure, written, rfl, holds⟩⟩)

/-- `fs::read_to_string` of a file that is there. -/
def readDisk (disk : Disk) (path : FilePath) : Except IoError Str :=
  match disk path with
  | some content => readToString content
  | none => .error missing

/-- A printed value can be read. -/
theorem readDisk_pretty {disk : Disk} {path : FilePath} {serde : Serde} {value : Json}
    (holds : disk path = some (serde.toStringPretty value)) :
    readDisk disk path = .ok (serde.toStringPretty value) := by
  have reads : readToString (serde.toStringPretty value) = .ok (serde.toStringPretty value) :=
    if_pos (serde.valid_toStringPretty value)
  simp [readDisk, holds, reads]

end PrivacyEngine
