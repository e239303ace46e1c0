import Mathlib.Logic.Function.Basic

/-!
# Replacing a file through a temporary one

Files are a partial function from paths to contents.  A step that fails leaves the files alone,
except for a write, which may leave anything at its own path.  `replaceVia` writes a temporary file
and renames it; where the rename is refused because the target is there, the target is removed and
the rename tried again.
-/

namespace FileSystem

/-- Contents by path. -/
abbrev Files (Path Content : Type) := Path → Option Content

variable {Path Content ε : Type} [DecidableEq Path]

def put (files : Files Path Content) (path : Path) (content : Content) : Files Path Content :=
  Function.update files path (some content)

def remove (files : Files Path Content) (path : Path) : Files Path Content :=
  Function.update files path none

/-- Move a file over whatever is at the target. -/
def move (files : Files Path Content) (source target : Path) : Files Path Content :=
  match files source with
  | some content => put (remove files source) target content
  | none => files

@[simp] theorem put_self (files : Files Path Content) (path : Path) (content : Content) :
    put files path content path = some content :=
  Function.update_self ..

@[simp] theorem put_of_ne (files : Files Path Content) {path other : Path} (ne : other ≠ path)
    (content : Content) : put files path content other = files other :=
  Function.update_of_ne ne ..

@[simp] theorem remove_self (files : Files Path Content) (path : Path) :
    remove files path path = none :=
  Function.update_self ..

@[simp] theorem remove_of_ne (files : Files Path Content) {path other : Path} (ne : other ≠ path) :
    remove files path other = files other :=
  Function.update_of_ne ne ..

theorem move_target {files : Files Path Content} {source : Path} {content : Content}
    (held : files source = some content) (target : Path) :
    move files source target target = some content := by
  simp [move, held]

/-! ## Steps -/

/-- What a write comes to: the file cannot be opened, or writing stops with an error, or the writer
reports success.  The latter two leave a content behind. -/
inductive Write (Content ε : Type) where
  | notOpened (error : ε)
  | stopped (left : Content) (error : ε)
  | finished (left : Content)

/-- What the steps behind the write come to. -/
structure Renames (ε : Type) where
  first : Except ε Unit
  removal : Except ε Unit
  second : Except ε Unit

/-- Write a file where it stands. -/
def overwrite (path : Path) (write : Write Content ε) (files : Files Path Content) :
    Except ε Unit × Files Path Content :=
  match write with
  | .notOpened error => (.error error, files)
  | .stopped left error => (.error error, put files path left)
  | .finished left => (.ok (), put files path left)

/-- Rename as the outcome says; a missing source cannot be renamed. -/
def tryRename (missing : ε) (outcome : Except ε Unit) (files : Files Path Content)
    (source target : Path) : Except ε Unit × Files Path Content :=
  match outcome, files source with
  | .error error, _ => (.error error, files)
  | .ok (), none => (.error missing, files)
  | .ok (), some _ => (.ok (), move files source target)

/-- Remove as the outcome says; the outcome itself is ignored. -/
def tryRemove (outcome : Except ε Unit) (files : Files Path Content) (path : Path) :
    Files Path Content :=
  match outcome with
  | .ok () => remove files path
  | .error _ => files

variable (occupied : ε → Bool) (missing : ε)

/-- Rename a file, making room for it where the target is in the way. -/
def renameOver (steps : Renames ε) (files : Files Path Content) (source target : Path) :
    Except ε Unit × Files Path Content :=
  match tryRename missing steps.first files source target with
  | (.ok (), renamed) => (.ok (), renamed)
  | (.error error, files) =>
      if occupied error then
        tryRename missing steps.second (tryRemove steps.removal files target) source target
      else (.error error, files)

/-- Write a temporary file and rename it to the target. -/
def replaceVia (temporary target : Path) (directories : Except ε Unit) (write : Write Content ε)
    (steps : Renames ε) (files : Files Path Content) : Except ε Unit × Files Path Content :=
  match directories, write with
  | .error error, _ => (.error error, files)
  | .ok (), .notOpened error => (.error error, files)
  | .ok (), .stopped left error => (.error error, put files temporary left)
  | .ok (), .finished left =>
      renameOver occupied missing steps (put files temporary left) temporary target

/-- A success installs the new content, and a failure keeps the old one. -/
def Replaces {α : Type} (before : Files Path Content) (target : Path) (content : Content) :
    Except ε α × Files Path Content → Prop
  | (.ok _, after) => after target = some content
  | (.error _, after) => after target = before target

/-! ## Other files -/

theorem overwrite_frame {path other : Path} (ne : other ≠ path) (write : Write Content ε)
    (files : Files Path Content) : (overwrite path write files).2 other = files other := by
  cases write with
  | notOpened error => rfl
  | stopped left error => exact put_of_ne files ne left
  | finished left => exact put_of_ne files ne left

section Frame

variable {path source target : Path} (not_source : path ≠ source) (not_target : path ≠ target)

include not_source not_target

theorem move_frame (files : Files Path Content) : move files source target path = files path := by
  cases held : files source with
  | none => simp only [move, held]
  | some content =>
      simp only [move, held]
      rw [put_of_ne _ not_target, remove_of_ne _ not_source]

theorem tryRename_frame (outcome : Except ε Unit) (files : Files Path Content) :
    (tryRename missing outcome files source target).2 path = files path := by
  unfold tryRename
  split
  · rfl
  · rfl
  · exact move_frame not_source not_target files

theorem renameOver_frame (steps : Renames ε) (files : Files Path Content) :
    (renameOver occupied missing steps files source target).2 path = files path := by
  have first := tryRename_frame missing not_source not_target steps.first files
  rw [renameOver]
  split
  · rename_i renamed renames
    rwa [renames] at first
  · rename_i error kept fails
    rw [fails] at first
    split
    · rw [tryRename_frame missing not_source not_target]
      cases steps.removal with
      | ok _ => exact (remove_of_ne kept not_target).trans first
      | error refused => exact first
    · exact first

/-- A replacement touches the temporary file and the target, and nothing else. -/
theorem replaceVia_frame (directories : Except ε Unit) (write : Write Content ε)
    (steps : Renames ε) (files : Files Path Content) :
    (replaceVia occupied missing source target directories write steps files).2 path =
      files path := by
  rcases directories with error | -
  · rfl
  · cases write with
    | notOpened error => rfl
    | stopped left error => exact put_of_ne files not_source left
    | finished left =>
        exact (renameOver_frame occupied missing not_source not_target steps _).trans
          (put_of_ne files not_source left)

end Frame

/-! ## When a replacement is safe -/

/-- The renames succeed.  A temporary file that is the target itself survives only a removal that
fails. -/
def Renames.Installs (steps : Renames ε) (inPlace : Prop) : Prop :=
  steps.first = .ok () ∨
    ∃ error, steps.first = .error error ∧ occupied error = true ∧ steps.second = .ok () ∧
      (inPlace → ∃ refused, steps.removal = .error refused)

/-- The target is removed and nothing is put in its place. -/
def Renames.Strands (steps : Renames ε) (inPlace : Prop) : Prop :=
  ∃ error, steps.first = .error error ∧ occupied error = true ∧ steps.removal = .ok () ∧
    (inPlace ∨ ∃ later, steps.second = .error later)

/-- The outcomes under which a replacement is safe, given what the target held before. -/
structure Keeps (temporary target : Path) (before : Option Content) (content : Content)
    (write : Write Content ε) (steps : Renames ε) : Prop where
  stopped : ∀ left error, write = .stopped left error → temporary = target → before = some left
  installed : ∀ left, write = .finished left → steps.Installs occupied (temporary = target) →
    left = content
  stranded : ∀ left, write = .finished left → steps.Strands occupied (temporary = target) →
    before = none
  refused : ∀ left, write = .finished left → ¬ steps.Installs occupied (temporary = target) →
    ¬ steps.Strands occupied (temporary = target) → temporary = target → before = some left

/-- What the renames come to, and what the target holds behind them. -/
theorem renameOver_cases (steps : Renames ε) {files : Files Path Content} {source : Path}
    {left : Content} (held : files source = some left) (target : Path) :
    (steps.Installs occupied (source = target) ∧ ∃ after, after target = some left ∧
      renameOver occupied missing steps files source target = (.ok (), after)) ∨
    (steps.Strands occupied (source = target) ∧ ∃ error after, after target = none ∧
      renameOver occupied missing steps files source target = (.error error, after)) ∨
    (¬ steps.Installs occupied (source = target) ∧ ¬ steps.Strands occupied (source = target) ∧
      ∃ error, renameOver occupied missing steps files source target = (.error error, files)) := by
  obtain ⟨first, removal, second⟩ := steps
  unfold Renames.Installs Renames.Strands renameOver
  rcases first with error | - | -
  · by_cases makes_room : occupied error = true
    · rcases removal with refused | - | -
      · rcases second with later | - | -
        · refine .inr (.inr ⟨by simp, by simp, later, ?_⟩)
          simp [tryRename, tryRemove, makes_room]
        · refine .inl
            ⟨by simpa using makes_room, move files source target, move_target held target, ?_⟩
          simp [tryRename, tryRemove, makes_room, held]
      · by_cases same : source = target
        · subst same
          have gone : ∃ error, tryRename missing second (remove files source) source source =
              (.error error, remove files source) := by
            rcases second with later | - | - <;> simp [tryRename]
          obtain ⟨later, fails⟩ := gone
          refine .inr (.inl ⟨by simpa using makes_room, later, _, remove_self files source, ?_⟩)
          simpa [tryRename, tryRemove, makes_room] using fails
        · have kept : remove files target source = some left := by
            rw [remove_of_ne files same, held]
          rcases second with later | - | -
          · refine .inr (.inl ⟨by simpa using makes_room, later, _, remove_self files target, ?_⟩)
            simp [tryRename, tryRemove, makes_room]
          · refine .inl ⟨by simpa [same] using makes_room, _, move_target kept target, ?_⟩
            simp [tryRename, tryRemove, makes_room, kept]
    · refine .inr (.inr ⟨by simp [makes_room], by simp [makes_room], error, ?_⟩)
      simp [tryRename, makes_room]
  · refine .inl ⟨.inl rfl, move files source target, move_target held target, ?_⟩
    simp [tryRename, held]

omit [DecidableEq Path] in
theorem keeps_stopped_iff {temporary target : Path} {before : Option Content}
    {content left : Content} {error : ε} {steps : Renames ε} :
    Keeps occupied temporary target before content (.stopped left error) steps ↔
      (temporary = target → before = some left) := by
  constructor
  · intro keeps
    exact keeps.stopped left error rfl
  · intro same
    refine ⟨?_, by simp, by simp, by simp⟩
    rintro _ _ ⟨⟩
    exact same

omit [DecidableEq Path] in
theorem keeps_finished_iff {temporary target : Path} {before : Option Content}
    {content left : Content} {steps : Renames ε} :
    Keeps occupied temporary target before content (.finished left) steps ↔
      (steps.Installs occupied (temporary = target) → left = content) ∧
      (steps.Strands occupied (temporary = target) → before = none) ∧
      (¬ steps.Installs occupied (temporary = target) →
        ¬ steps.Strands occupied (temporary = target) → temporary = target →
        before = some left) := by
  constructor
  · intro keeps
    exact ⟨keeps.installed left rfl, keeps.stranded left rfl, keeps.refused left rfl⟩
  · rintro ⟨installed, stranded, refused⟩
    refine ⟨by simp, ?_, ?_, ?_⟩ <;> rintro _ ⟨⟩ <;> assumption

theorem Renames.Installs.not_strands {steps : Renames ε} {inPlace : Prop}
    (installs : steps.Installs occupied inPlace) : ¬ steps.Strands occupied inPlace := by
  rintro ⟨error, first, -, removed, rest⟩
  rcases installs with success | ⟨-, -, -, second, in_place⟩
  · rw [first] at success
    cases success
  · rcases rest with same | ⟨later, fails⟩
    · obtain ⟨refused, fails⟩ := in_place same
      rw [removed] at fails
      cases fails
    · rw [second] at fails
      cases fails

/-- The outcomes under which a replacement reports success. -/
def Succeeds (temporary target : Path) (directories : Except ε Unit) (write : Write Content ε)
    (steps : Renames ε) : Prop :=
  directories = .ok () ∧ (∃ left, write = .finished left) ∧
    steps.Installs occupied (temporary = target)

/-- What a replacement comes to, and what the target holds behind it. -/
theorem replaceVia_cases (temporary target : Path) (directories : Except ε Unit)
    (write : Write Content ε) (steps : Renames ε) (files : Files Path Content) :
    (Succeeds occupied temporary target directories write steps ∧
      ∃ left after, write = .finished left ∧ after target = some left ∧
        replaceVia occupied missing temporary target directories write steps files =
          (.ok (), after)) ∨
    (¬ Succeeds occupied temporary target directories write steps ∧
      ∃ error after,
        replaceVia occupied missing temporary target directories write steps files =
          (.error error, after) ∧
        (after target = files target ∨ after target = none ∨
          temporary = target ∧ ∃ left, after target = some left ∧
            (write = .finished left ∨ ∃ error, write = .stopped left error))) := by
  rcases directories with error | - | -
  · exact .inr ⟨by simp [Succeeds], error, files, rfl, .inl rfl⟩
  cases write with
  | notOpened error => exact .inr ⟨by simp [Succeeds], error, files, rfl, .inl rfl⟩
  | stopped left error =>
      refine .inr ⟨by simp [Succeeds], error, put files temporary left, rfl, ?_⟩
      by_cases same : temporary = target
      · exact .inr (.inr ⟨same, left, by simp [same], .inr ⟨error, rfl⟩⟩)
      · exact .inl (put_of_ne files (Ne.symm same) left)
  | finished left =>
      simp only [replaceVia]
      obtain ⟨installs, after, holds, ends⟩ | ⟨strands, error, after, holds, ends⟩ |
        ⟨fails, -, error, ends⟩ :=
        renameOver_cases occupied missing steps (put_self files temporary left) target
      · exact .inl ⟨⟨rfl, ⟨left, rfl⟩, installs⟩, left, after, rfl, holds, ends⟩
      · refine .inr ⟨fun succeeds => ?_, error, after, ends, .inr (.inl holds)⟩
        exact succeeds.2.2.not_strands occupied strands
      · refine .inr ⟨fun succeeds => fails succeeds.2.2, error, _, ends, ?_⟩
        by_cases same : temporary = target
        · exact .inr (.inr ⟨same, left, by simp [same], .inl rfl⟩)
        · exact .inl (put_of_ne files (Ne.symm same) left)

/-- A replacement is safe exactly under the outcomes that keep the target. -/
theorem replaceVia_replaces_iff (temporary target : Path) (directories : Except ε Unit)
    (write : Write Content ε) (steps : Renames ε) (files : Files Path Content)
    (content : Content) :
    Replaces files target content
        (replaceVia occupied missing temporary target directories write steps files) ↔
      (directories = .ok () →
        Keeps occupied temporary target (files target) content write steps) := by
  rcases directories with error | - | -
  · simp [replaceVia, Replaces]
  cases write with
  | notOpened error =>
      have keeps : Keeps occupied temporary target (files target) content
          (.notOpened error) steps :=
        ⟨by simp, by simp, by simp, by simp⟩
      simp [replaceVia, Replaces, keeps]
  | stopped left error =>
      simp only [replaceVia, Replaces, forall_const, keeps_stopped_iff]
      by_cases same : temporary = target
      · simp [same, eq_comm]
      · simp [same, Ne.symm same]
  | finished left =>
      simp only [replaceVia, forall_const, keeps_finished_iff]
      obtain ⟨installs, after, holds, ends⟩ | ⟨strands, error, after, holds, ends⟩ |
        ⟨fails, kept, error, ends⟩ :=
        renameOver_cases occupied missing steps (put_self files temporary left) target
      · have not_strands := installs.not_strands
        simp [ends, Replaces, holds, installs, not_strands]
      · have not_installs : ¬ steps.Installs occupied (temporary = target) :=
          fun installs => installs.not_strands occupied strands
        simp [ends, Replaces, holds, strands, not_installs, eq_comm]
      · simp only [ends, Replaces, fails, kept, not_false_eq_true, false_implies, true_and,
          forall_const]
        by_cases same : temporary = target
        · simp [same, eq_comm]
        · simp [same, Ne.symm same]

end FileSystem
