import PrivacyEngine.Reactive
import PrivacyEngine.Store.Receipts

/-!
# Flushing receipts

A flush clears the dirty mark, prunes the hosts, takes a snapshot and hands it to a task that writes
it in the background.  The steps of flushes, tasks and recording calls interleave.  Tasks share the
name of their temporary file, and a task that has it open keeps writing to it under whatever name it
goes by then, so files are kept apart from their names.
-/

namespace PrivacyEngine

open Wire FileSystem Reactive

/-! ## Files and names -/

/-- Files by number, and the names they go by.  No file has two names. -/
structure Volume where
  names : Files FilePath Nat
  contents : Nat → Bytes
  fresh : Nat
  below : ∀ path file, names path = some file → file < fresh
  distinct : ∀ path other file, names path = some file → names other = some file → path = other

namespace Volume

def disk (volume : Volume) : Disk := fun path => (volume.names path).map volume.contents

/-- Change the content of a file. -/
def fill (volume : Volume) (file : Nat) (content : Bytes) : Volume :=
  { volume with contents := Function.update volume.contents file content }

/-- Take a name away. -/
def remove (volume : Volume) (path : FilePath) : Volume where
  names := FileSystem.remove volume.names path
  contents := volume.contents
  fresh := volume.fresh
  below other file named := by
    by_cases here : other = path
    · simp [here] at named
    · exact volume.below other file (by simpa [here] using named)
  distinct first second file named also := by
    by_cases here : first = path
    · simp [here] at named
    by_cases there : second = path
    · simp [there] at also
    exact volume.distinct first second file (by simpa [here] using named)
      (by simpa [there] using also)

/-- Give a name, which may have belonged to another file, to a file without one. -/
def name (volume : Volume) (path : FilePath) (file : Nat) (bounded : file < volume.fresh)
    (free : ∀ other, volume.names other ≠ some file) : Volume where
  names := put volume.names path file
  contents := volume.contents
  fresh := volume.fresh
  below other found named := by
    by_cases here : other = path
    · obtain rfl : file = found := by simpa [here] using named
      exact bounded
    · exact volume.below other found (by simpa [here] using named)
  distinct first second found named also := by
    by_cases here : first = path
    · by_cases there : second = path
      · rw [here, there]
      · obtain rfl : file = found := by simpa [here] using named
        exact absurd (by simpa [there] using also) (free second)
    · by_cases there : second = path
      · obtain rfl : file = found := by simpa [there] using also
        exact absurd (by simpa [here] using named) (free first)
      · exact volume.distinct first second found (by simpa [here] using named)
          (by simpa [there] using also)

/-- One more file, without a name yet. -/
def grow (volume : Volume) : Volume :=
  { volume with
    contents := Function.update volume.contents volume.fresh []
    fresh := volume.fresh + 1
    below := fun path file named => Nat.lt_succ_of_lt (volume.below path file named) }

/-- Open a file for writing: one that is there is truncated. -/
def create (volume : Volume) (path : FilePath) : Nat × Volume :=
  match volume.names path with
  | some file => (file, volume.fill file [])
  | none =>
      (volume.fresh, volume.grow.name path volume.fresh (Nat.lt_succ_self _)
        fun other named => Nat.lt_irrefl _ (volume.below other _ named))

/-- Move a name over whatever goes by the target. -/
def rename (volume : Volume) (source target : FilePath) : Volume :=
  match named : volume.names source with
  | none => volume
  | some file =>
      (volume.remove source).name target file (volume.below source file named) fun other also => by
        by_cases here : other = source
        · simp [remove, here] at also
        · exact here (volume.distinct other source file (by simpa [remove, here] using also) named)

/-- Overwrite a content from an offset on, which may lie behind its end. -/
def overwrite (content : Bytes) (offset : Nat) (bytes : Bytes) : Bytes :=
  content.take offset ++ List.replicate (offset - content.length) 0 ++ bytes ++
    content.drop (offset + bytes.length)

/-- Write to an open file. -/
def write (volume : Volume) (file offset : Nat) (bytes : Bytes) : Volume :=
  volume.fill file (overwrite (volume.contents file) offset bytes)

/-- A file that goes by another name is not at the path. -/
theorem disk_fill_of_named {volume : Volume} {path other : FilePath} {file : Nat}
    (named : volume.names path = some file) (ne : other ≠ path) (content : Bytes) :
    (volume.fill file content).disk other = volume.disk other := by
  unfold disk fill
  rcases held : volume.names other with - | found
  · simp
  · have apart : found ≠ file := by
      rintro rfl
      exact ne (volume.distinct other path found held named)
    simp [apart]

theorem create_spec (volume : Volume) (path : FilePath) :
    (volume.create path).2.names path = some (volume.create path).1 ∧
      (volume.create path).2.contents (volume.create path).1 = [] ∧
      ∀ other, other ≠ path → (volume.create path).2.disk other = volume.disk other := by
  unfold create
  cases held : volume.names path with
  | some file =>
      refine ⟨held, Function.update_self .., fun other ne => ?_⟩
      exact disk_fill_of_named held ne []
  | none =>
      refine ⟨put_self .., Function.update_self .., fun other ne => ?_⟩
      simp only [disk, name, grow, put_of_ne _ ne]
      rcases named : volume.names other with - | found
      · rfl
      · have older : found ≠ volume.fresh := (volume.below other found named).ne
        simp [older]

theorem disk_rename_target {volume : Volume} {source : FilePath} {file : Nat}
    (named : volume.names source = some file) (target : FilePath) :
    (volume.rename source target).disk target = some (volume.contents file) := by
  unfold rename disk
  split
  · rename_i absent
    rw [named] at absent
    cases absent
  · rename_i found held
    obtain rfl : file = found := by
      rw [named] at held
      exact Option.some.inj held
    simp [name, remove]

/-- Writing on behind a prefix of a text. -/
theorem overwrite_take {text : Bytes} {written count : Nat} (fits : written + count ≤ text.length) :
    overwrite (text.take written) written ((text.drop written).take count) =
      text.take (written + count) := by
  have kept : (text.take written).length = written := by
    rw [List.length_take]
    omega
  have behind : (text.take written).drop (written + ((text.drop written).take count).length) = [] :=
    List.drop_eq_nil_of_le (by omega)
  simp only [overwrite, behind, kept, Nat.sub_self, List.replicate_zero, List.append_nil,
    List.take_take, Nat.min_self]
  exact List.take_add.symm

end Volume

/-! ## Steps -/

/-- How far a task has come: it has its snapshot, or the temporary file open with some of its text
written, or the file closed, or a first rename refused, or the destination out of the way. -/
inductive TaskStage where
  | snapshot
  | writing (file : Nat) (text : Bytes) (written : Nat)
  | closed
  | refused
  | cleared
  deriving DecidableEq

structure PersistTask where
  hosts : Receipts
  stage : TaskStage

/-- The section a flush is in front of. -/
inductive FlushPhase where
  | pruning
  | snapshotting
  deriving DecidableEq

/-- The store, the volume, the flushes under way by caller, and the tasks in the order of their
snapshots. -/
structure FlushState where
  store : ReceiptStore
  volume : Volume
  flushes : List (Nat × FlushPhase)
  tasks : List PersistTask

inductive FlushEvent where
  | record (call : RecordCall)
  /-- A flush looks at the dirty mark and clears it. -/
  | swap (caller : Nat)
  | prune (caller : Nat) (now : UInt64)
  | snapshot (caller : Nat)
  /-- A task creates the directory and opens the temporary file. -/
  | create (task : Nat) (generatedUnix : UInt64) (outcome : Except IoError Unit)
  /-- The buffer of a task writes some bytes. -/
  | write (task count : Nat) (outcome : Except Str Unit)
  /-- The serializer is done, and the writer flushes its last buffer but for what it loses. -/
  | close (task : Nat) (lost : Fin 8193)
  | rename (task : Nat) (outcome : Except IoError Unit)
  | remove (task : Nat) (outcome : Except IoError Unit)

inductive FlushOutput where
  | flushed (caller : Nat) (spawned : Bool)
  | receiptsFlushError (error : IoError)
  deriving DecidableEq

/-- The library and the path behind a store. -/
structure FlushEnv where
  serde : Serde
  path : FilePath

namespace FlushEnv

variable (env : FlushEnv)

def temporary : FilePath := env.path.withExtension (ascii "tmp")

def text (hosts : Receipts) (generatedUnix : UInt64) : Str :=
  env.serde.toStringPretty (receiptsRoot hosts generatedUnix)

def stageOf (s : FlushState) (task : Nat) : Option TaskStage := (s.tasks[task]?).map (·.stage)

def polls (s : FlushState) : FlushEvent → Bool
  | .record _ => true
  | .swap caller => (s.flushes.lookup caller).isNone
  | .prune caller _ => s.flushes.lookup caller = some .pruning
  | .snapshot caller => s.flushes.lookup caller = some .snapshotting
  | .create task _ _ =>
      match stageOf s task with
      | some .snapshot => true
      | _ => false
  | .write task count _ =>
      match stageOf s task with
      | some (.writing _ text written) => written + count ≤ text.length
      | _ => false
  | .close task lost =>
      match stageOf s task with
      | some (.writing _ text written) =>
          text.length ≤ written + 8192 && written + lost ≤ text.length
      | _ => false
  | .rename task _ =>
      match stageOf s task with
      | some .closed | some .cleared => true
      | _ => false
  | .remove task _ =>
      match stageOf s task with
      | some .refused => true
      | _ => false

def setStage (s : FlushState) (task : Nat) (stage : TaskStage) : FlushState :=
  { s with tasks := s.tasks.modify task fun entry => { entry with stage } }

/-- A task ends, with an error that is only logged or without one. -/
def endTask (s : FlushState) (task : Nat) : FlushState := { s with tasks := s.tasks.eraseIdx task }

def failTask (s : FlushState) (task : Nat) (error : IoError) :
    Reaction FlushState FlushOutput Empty :=
  ⟨[.receiptsFlushError error], .running (endTask s task)⟩

/-- A flush comes to its next section. -/
def enter (s : FlushState) (caller : Nat) (phase : FlushPhase) : FlushState :=
  { s with flushes := (caller, phase) :: s.flushes.filter fun flush => flush.1 ≠ caller }

def leave (s : FlushState) (caller : Nat) : FlushState :=
  { s with flushes := s.flushes.filter fun flush => flush.1 ≠ caller }

def onSwap (s : FlushState) (caller : Nat) : Reaction FlushState FlushOutput Empty :=
  if s.store.dirty then
    ⟨[], .running (enter { s with store := { s.store with dirty := false } } caller .pruning)⟩
  else ⟨[.flushed caller false], .running s⟩

def onCreate (s : FlushState) (task : Nat) (hosts : Receipts) (generatedUnix : UInt64) :
    Except IoError Unit → Reaction FlushState FlushOutput Empty
  | .ok () =>
      let (file, volume) := s.volume.create env.temporary
      ⟨[], .running (setStage { s with volume } task
        (.writing file (env.text hosts generatedUnix) 0))⟩
  | .error error => failTask s task error

def onWrite (s : FlushState) (task file : Nat) (text : Bytes) (written count : Nat) :
    Except Str Unit → Reaction FlushState FlushOutput Empty
  | .ok () =>
      let volume := s.volume.write file written ((text.drop written).take count)
      ⟨[], .running (setStage { s with volume } task (.writing file text (written + count)))⟩
  | .error error =>
      failTask s task (invalidData (ascii "failed to serialize receipts: " ++ error))

def onRename (s : FlushState) (task : Nat) (again : Bool) :
    Except IoError Unit → Reaction FlushState FlushOutput Empty
  | .ok () =>
      if (s.volume.names env.temporary).isSome then
        ⟨[], .running (endTask { s with volume := s.volume.rename env.temporary env.path } task)⟩
      else failTask s task missing
  | .error error =>
      if occupied error && !again then ⟨[], .running (setStage s task .refused)⟩
      else failTask s task error

def react (s : FlushState) : FlushEvent → Reaction FlushState FlushOutput Empty
  | .record call => ⟨[], .running { s with store := s.store.record call.host call.entry call.now }⟩
  | .swap caller => onSwap s caller
  | .prune caller now =>
      ⟨[], .running (enter
        { s with store :=
          { s.store with hosts := ReceiptStore.pruneStaleHosts s.store.hosts (6 * 3600) now } }
        caller .snapshotting)⟩
  | .snapshot caller =>
      ⟨[.flushed caller true],
        .running (leave { s with tasks := s.tasks ++ [⟨s.store.hosts, .snapshot⟩] } caller)⟩
  | .create task generatedUnix outcome =>
      match s.tasks[task]? with
      | some entry => env.onCreate s task entry.hosts generatedUnix outcome
      | none => ⟨[], .running s⟩
  | .write task count outcome =>
      match stageOf s task with
      | some (.writing file text written) => onWrite s task file text written count outcome
      | _ => ⟨[], .running s⟩
  | .close task lost =>
      match stageOf s task with
      | some (.writing file text written) =>
          let rest := text.drop written
          let volume := s.volume.write file written (rest.take (rest.length - lost))
          ⟨[], .running (setStage { s with volume } task .closed)⟩
      | _ => ⟨[], .running s⟩
  | .rename task outcome =>
      match stageOf s task with
      | some .cleared => env.onRename s task true outcome
      | _ => env.onRename s task false outcome
  | .remove task outcome =>
      match outcome with
      | .ok () =>
          ⟨[], .running (setStage { s with volume := s.volume.remove env.path } task .cleared)⟩
      | .error _ => ⟨[], .running (setStage s task .cleared)⟩

def machine : Machine FlushState FlushEvent FlushOutput Empty where
  polls := polls
  react := env.react

/-- The file at the path, as a restart would read it. -/
def reload (s : FlushState) : Except IoError Receipts :=
  loadReceipts env.serde env.path s.volume.disk

/-- Nothing is marked and nothing is in flight: a flush that has cleared the mark is in flight until
its task has ended. -/
def Quiet (s : FlushState) : Prop :=
  s.store.dirty = false ∧ s.flushes = [] ∧ s.tasks = []

def quiet (s : FlushState) : Bool := !s.store.dirty && s.flushes.isEmpty && s.tasks.isEmpty

theorem quiet_iff {s : FlushState} : quiet s = true ↔ Quiet s := by
  simp [quiet, Quiet, and_assoc]

/-- A store that has just been loaded. -/
def load (volume : Volume) : Except IoError FlushState := do
  let hosts ← loadReceipts env.serde env.path volume.disk
  return { store := ⟨hosts, false⟩, volume, flushes := [], tasks := [] }

/-! ## Runs in which flushes follow each other -/

/-- Hosts that are loaded have a name. -/
theorem loadReceipts_filled {serde : Serde} {path : FilePath} {disk : Disk} {hosts : Receipts}
    (reads : loadReceipts serde path disk = .ok hosts) : ∀ host ∈ hosts, host ≠ [] := by
  have kept : ∀ (members : List (Str × Json)) (filled : Receipts),
      (∀ host ∈ filled, host ≠ []) → ∀ host ∈ members.foldl insertReceipt filled, host ≠ [] := by
    intro members
    induction members with
    | nil => exact fun filled named => named
    | cons member members ih =>
        refine fun filled named => ih _ fun host mem => ?_
        simp only [insertReceipt] at mem
        split at mem
        · exact named host mem
        · rename_i some_name
          rcases Std.ExtTreeMap.mem_insert.mp mem with same | old
          · rwa [← Std.LawfulEqCmp.compare_eq_iff_eq.mp same]
          · exact named host old
  unfold loadReceipts at reads
  split at reads
  · cases reads
    simp
  · obtain ⟨raw, -, parses⟩ := bind_eq_ok_iff.mp reads
    obtain ⟨parsed, -, found⟩ := bind_eq_ok_iff.mp parses
    simp only at found
    split at found
    · rename_i members _
      cases found
      exact kept members ∅ (by simp)
    · cases found

/-- Steps that lose nothing: tasks start in the order of their snapshots and each after the one
before it has ended, none of their steps fails but for a rename that is tried again, the temporary
file is not the destination, and a snapshot has only hosts that normalizing leaves alone. -/
def Smooth (s : FlushState) : FlushEvent → Prop
  | .snapshot _ => ∀ host ∈ s.store.hosts.keys, normalizeHost host = host
  | .create task _ outcome => task = 0 ∧ outcome = .ok () ∧ ¬ env.path.InPlace
  | .write _ _ outcome => outcome = .ok ()
  | .close _ lost => lost = 0
  | .rename task outcome =>
      match outcome with
      | .ok () => True
      | .error error => occupied error = true ∧ stageOf s task = some .closed
  | .record _ | .swap _ | .prune _ _ | .remove _ _ => True

/-- The temporary file, apart from the destination, and its content. -/
structure Holds (volume : Volume) (file : Nat) (content : Bytes) : Prop where
  apart : ¬ env.path.InPlace
  named : volume.names env.temporary = some file
  content : volume.contents file = content

/-- How far the temporary file of a task is filled. -/
def Progress (volume : Volume) (hosts : Receipts) : TaskStage → Prop
  | .snapshot => True
  | .writing file text written =>
      ∃ generatedUnix, text = env.text hosts generatedUnix ∧ written ≤ text.length ∧
        env.Holds volume file (text.take written)
  | .closed | .refused | .cleared =>
      ∃ file generatedUnix, env.Holds volume file (env.text hosts generatedUnix)

/-- The last snapshot, or the file where no task is left, has what is in memory. -/
structure Current (s : FlushState) : Prop where
  installed : s.tasks = [] → env.reload s = .ok s.store.hosts
  last : ∀ task ∈ s.tasks.getLast?, task.hosts = s.store.hosts

/-- The content of a path is a given one or a whole snapshot. -/
def Whole (before : Option Bytes) (volume : Volume) : Prop :=
  ∀ content, volume.disk env.path = some content →
    before = some content ∨ ∃ hosts generatedUnix, content = env.text hosts generatedUnix

structure Sound (before : Option Bytes) (s : FlushState) : Prop where
  filled : ∀ host ∈ s.store.hosts, host ≠ []
  readable : ∀ task ∈ s.tasks, reloadedReceipts task.hosts = task.hosts
  queued : ∀ task ∈ s.tasks.tail, task.stage = .snapshot
  ahead : ∀ task ∈ s.tasks.head?, env.Progress s.volume task.hosts task.stage
  whole : env.Whole before s.volume
  current : s.store.dirty = true ∨ s.flushes ≠ [] ∨ env.Current s

variable {env} {before : Option Bytes} {s : FlushState}

/-! ### The queue of tasks -/

/-- A task that is at work is the first one. -/
theorem front_of_waiting (waiting : ∀ task ∈ s.tasks.tail, task.stage = .snapshot) {task : Nat}
    {stage : TaskStage} (held : stageOf s task = some stage) (started : stage ≠ .snapshot) :
    task = 0 ∧ ∃ hosts rest, s.tasks = ⟨hosts, stage⟩ :: rest := by
  obtain ⟨entry, found, rfl⟩ := Option.map_eq_some_iff.mp held
  cases tasks : s.tasks with
  | nil => simp [tasks] at found
  | cons first rest =>
      rw [tasks] at found
      cases task with
      | zero =>
          obtain rfl : first = entry := by simpa using found
          exact ⟨rfl, first.hosts, rest, rfl⟩
      | succ task =>
          have later : entry ∈ s.tasks.tail := by
            rw [tasks]
            exact List.mem_of_getElem? (by simpa using found)
          exact absurd (waiting entry later) started

/-- The first task of a queue that starts with one in front of its first step. -/
theorem first_of_snapshot (held : stageOf s 0 = some .snapshot) :
    ∃ hosts rest, s.tasks = ⟨hosts, .snapshot⟩ :: rest := by
  obtain ⟨entry, found, waits⟩ := Option.map_eq_some_iff.mp held
  cases tasks : s.tasks with
  | nil => simp [tasks] at found
  | cons first rest =>
      obtain rfl : first = entry := by simpa [tasks] using found
      exact ⟨first.hosts, rest, by rw [← waits]⟩

theorem tasks_setStage {hosts : Receipts} {stage next : TaskStage} {rest : List PersistTask}
    (tasks : s.tasks = ⟨hosts, stage⟩ :: rest) (volume : Volume) :
    (setStage { s with volume } 0 next).tasks = ⟨hosts, next⟩ :: rest := by
  simp [setStage, tasks]

theorem tasks_endTask {task : PersistTask} {rest : List PersistTask}
    (tasks : s.tasks = task :: rest) (volume : Volume) :
    (endTask { s with volume } 0).tasks = rest := by
  simp [endTask, tasks]

/-- Behind one more snapshot the others still wait. -/
theorem waiting_concat {tasks : List PersistTask}
    (waiting : ∀ task ∈ tasks.tail, task.stage = .snapshot) (hosts : Receipts) :
    ∀ task ∈ (tasks ++ [(⟨hosts, .snapshot⟩ : PersistTask)]).tail, task.stage = .snapshot := by
  intro task mem
  cases tasks with
  | nil => simp at mem
  | cons first rest =>
      rcases List.mem_append.mp mem with old | new
      · exact waiting task old
      · rw [List.mem_singleton.mp new]

/-- The first task behind one more snapshot waits, or it is the one that was there. -/
theorem head_concat {tasks : List PersistTask} {hosts : Receipts} {task : PersistTask}
    (mem : task ∈ (tasks ++ [(⟨hosts, .snapshot⟩ : PersistTask)]).head?) :
    task.stage = .snapshot ∨ task ∈ tasks.head? := by
  cases tasks with
  | nil =>
      simp only [List.nil_append, List.head?_cons, Option.mem_some] at mem
      rw [← mem]
      exact .inl rfl
  | cons first rest => exact .inr mem

/-! ### Steps in turn -/

/-- A task opens the temporary file only when all older tasks have ended. -/
def InTurn : FlushEvent → Prop
  | .create task _ _ => task = 0
  | _ => True

theorem Smooth.inTurn {event : FlushEvent} (smooth : env.Smooth s event) : InTurn event := by
  cases event with
  | create task generatedUnix outcome => exact smooth.1
  | _ => trivial

variable (env) in
/-- What a step in turn can do. -/
inductive Turn (s : FlushState) : FlushEvent → FlushState → Prop
  | record (call : RecordCall) :
      Turn s (.record call) { s with store := s.store.record call.host call.entry call.now }
  | swap (caller : Nat) :
      Turn s (.swap caller)
        (enter { s with store := { s.store with dirty := false } } caller .pruning)
  | clean (caller : Nat) : Turn s (.swap caller) s
  | prune (caller : Nat) (now : UInt64) :
      Turn s (.prune caller now) (enter
        { s with store :=
          { s.store with hosts := ReceiptStore.pruneStaleHosts s.store.hosts (6 * 3600) now } }
        caller .snapshotting)
  | snapshot (caller : Nat) :
      Turn s (.snapshot caller)
        (leave { s with tasks := s.tasks ++ [⟨s.store.hosts, .snapshot⟩] } caller)
  | create {hosts : Receipts} {rest : List PersistTask}
      (tasks : s.tasks = ⟨hosts, .snapshot⟩ :: rest) (generatedUnix : UInt64) :
      Turn s (.create 0 generatedUnix (.ok ()))
        (setStage { s with volume := (s.volume.create env.temporary).2 } 0
          (.writing (s.volume.create env.temporary).1 (env.text hosts generatedUnix) 0))
  | write {hosts : Receipts} {rest : List PersistTask} {file : Nat} {text : Bytes}
      {written count : Nat} (tasks : s.tasks = ⟨hosts, .writing file text written⟩ :: rest)
      (fits : written + count ≤ text.length) :
      Turn s (.write 0 count (.ok ()))
        (setStage { s with volume := s.volume.write file written ((text.drop written).take count) }
          0 (.writing file text (written + count)))
  | close {hosts : Receipts} {rest : List PersistTask} {file : Nat} {text : Bytes} {written : Nat}
      {lost : Fin 8193} (tasks : s.tasks = ⟨hosts, .writing file text written⟩ :: rest)
      (inside : written + lost ≤ text.length) :
      Turn s (.close 0 lost)
        (setStage
          { s with
            volume := s.volume.write file written
              ((text.drop written).take ((text.drop written).length - lost)) }
          0 .closed)
  | install {hosts : Receipts} {stage : TaskStage} {rest : List PersistTask}
      (tasks : s.tasks = ⟨hosts, stage⟩ :: rest) (filled : stage = .closed ∨ stage = .cleared)
      {file : Nat} (named : s.volume.names env.temporary = some file) :
      Turn s (.rename 0 (.ok ()))
        (endTask { s with volume := s.volume.rename env.temporary env.path } 0)
  | vanished {hosts : Receipts} {stage : TaskStage} {rest : List PersistTask}
      (tasks : s.tasks = ⟨hosts, stage⟩ :: rest) (filled : stage = .closed ∨ stage = .cleared)
      (absent : s.volume.names env.temporary = none) : Turn s (.rename 0 (.ok ())) (endTask s 0)
  | refuse {hosts : Receipts} {rest : List PersistTask}
      (tasks : s.tasks = ⟨hosts, .closed⟩ :: rest) (error : IoError) :
      Turn s (.rename 0 (.error error)) (setStage s 0 .refused)
  | remove {hosts : Receipts} {rest : List PersistTask}
      (tasks : s.tasks = ⟨hosts, .refused⟩ :: rest) :
      Turn s (.remove 0 (.ok ()))
        (setStage { s with volume := s.volume.remove env.path } 0 .cleared)
  | keep {hosts : Receipts} {rest : List PersistTask}
      (tasks : s.tasks = ⟨hosts, .refused⟩ :: rest) (error : IoError) :
      Turn s (.remove 0 (.error error)) (setStage s 0 .cleared)
  | fail {event : FlushEvent} {task : PersistTask} {rest : List PersistTask}
      (tasks : s.tasks = task :: rest) (rough : ¬ env.Smooth s event) : Turn s event (endTask s 0)

/-- A rename in turn: it installs the temporary file, finds none, is refused or fails. -/
theorem turn_of_onRename {hosts : Receipts} {stage : TaskStage} {rest : List PersistTask}
    (tasks : s.tasks = ⟨hosts, stage⟩ :: rest) {again : Bool}
    (filled : stage = .closed ∧ again = false ∨ stage = .cleared ∧ again = true)
    {outcome : Except IoError Unit} {now : List FlushOutput} {next : FlushState}
    (reacts : onRename env s 0 again outcome = ⟨now, .running next⟩) :
    env.Turn s (.rename 0 outcome) next := by
  have front : stageOf s 0 = some stage := by simp [stageOf, tasks]
  cases outcome with
  | ok done =>
      have ready : stage = .closed ∨ stage = .cleared := filled.imp And.left And.left
      simp only [onRename] at reacts
      split at reacts
      · rename_i some_file
        cases reacts
        obtain ⟨file, named⟩ := Option.isSome_iff_exists.mp some_file
        exact .install tasks ready named
      · rename_i no_file
        cases reacts
        exact .vanished tasks ready (by simpa using no_file)
  | error error =>
      simp only [onRename] at reacts
      split at reacts
      · rename_i once
        cases reacts
        rcases filled with ⟨rfl, rfl⟩ | ⟨rfl, rfl⟩
        · exact .refuse tasks error
        · simp at once
      · rename_i final
        cases reacts
        refine .fail tasks fun ⟨refused, closed⟩ => ?_
        rcases filled with ⟨rfl, rfl⟩ | ⟨rfl, rfl⟩
        · simp [refused] at final
        · rw [front] at closed
          cases closed

theorem turn_of_react (waiting : ∀ task ∈ s.tasks.tail, task.stage = .snapshot)
    {event : FlushEvent} (inTurn : InTurn event) (polled : polls s event = true)
    {now : List FlushOutput} {next : FlushState}
    (reacts : env.react s event = ⟨now, .running next⟩) : env.Turn s event next := by
  cases event with
  | record call =>
      cases reacts
      exact .record call
  | swap caller =>
      simp only [react, onSwap] at reacts
      split at reacts
      · cases reacts
        exact .swap caller
      · cases reacts
        exact .clean caller
  | prune caller time =>
      cases reacts
      exact .prune caller time
  | snapshot caller =>
      cases reacts
      exact .snapshot caller
  | create task generatedUnix outcome =>
      obtain rfl : task = 0 := inTurn
      simp only [polls] at polled
      split at polled
      · rename_i held
        obtain ⟨hosts, rest, tasks⟩ := first_of_snapshot held
        have found : s.tasks[0]? = some ⟨hosts, .snapshot⟩ := by simp [tasks]
        simp only [react, found] at reacts
        cases outcome with
        | ok done =>
            cases reacts
            exact .create tasks generatedUnix
        | error error =>
            cases reacts
            exact .fail tasks fun ⟨_, succeeds, _⟩ => nomatch succeeds
      · cases polled
  | write task count outcome =>
      simp only [polls] at polled
      split at polled
      · rename_i file text written held
        obtain ⟨rfl, hosts, rest, tasks⟩ := front_of_waiting waiting held (by simp)
        simp only [react, held] at reacts
        cases outcome with
        | ok done =>
            cases reacts
            exact .write tasks (of_decide_eq_true polled)
        | error error =>
            cases reacts
            exact .fail tasks fun smooth => nomatch smooth
      · cases polled
  | close task lost =>
      simp only [polls] at polled
      split at polled
      · rename_i file text written held
        obtain ⟨rfl, hosts, rest, tasks⟩ := front_of_waiting waiting held (by simp)
        obtain ⟨-, inside⟩ := Bool.and_eq_true_iff.mp polled
        simp only [react, held] at reacts
        cases reacts
        exact .close tasks (of_decide_eq_true inside)
      · cases polled
  | rename task outcome =>
      simp only [polls] at polled
      split at polled
      · rename_i held
        obtain ⟨rfl, hosts, rest, tasks⟩ := front_of_waiting waiting held (by simp)
        simp only [react, held] at reacts
        exact turn_of_onRename tasks (.inl ⟨rfl, rfl⟩) reacts
      · rename_i held
        obtain ⟨rfl, hosts, rest, tasks⟩ := front_of_waiting waiting held (by simp)
        simp only [react, held] at reacts
        exact turn_of_onRename tasks (.inr ⟨rfl, rfl⟩) reacts
      · cases polled
  | remove task outcome =>
      simp only [polls] at polled
      split at polled
      · rename_i held
        obtain ⟨rfl, hosts, rest, tasks⟩ := front_of_waiting waiting held (by simp)
        cases outcome with
        | ok done =>
            cases reacts
            exact .remove tasks
        | error error =>
            cases reacts
            exact .keep tasks error
      · cases polled

/-! ### Nothing is lost -/

/-- The first task goes on. -/
theorem Sound.advance (sound : env.Sound before s) {hosts : Receipts} {stage next : TaskStage}
    {rest : List PersistTask} (tasks : s.tasks = ⟨hosts, stage⟩ :: rest) {volume : Volume}
    (progress : env.Progress volume hosts next) (whole : env.Whole before volume) :
    env.Sound before (setStage { s with volume } 0 next) := by
  have tasks' : (setStage { s with volume } 0 next).tasks = ⟨hosts, next⟩ :: rest :=
    tasks_setStage tasks volume
  constructor
  case filled => exact sound.filled
  case readable =>
    rw [tasks']
    intro task mem
    rcases List.mem_cons.mp mem with rfl | mem
    · exact sound.readable ⟨hosts, stage⟩ (by simp [tasks])
    · exact sound.readable task (by simp [tasks, mem])
  case queued =>
    rw [tasks']
    intro task mem
    exact sound.queued task (by simpa [tasks] using mem)
  case ahead =>
    rw [tasks']
    rintro task ⟨⟩
    exact progress
  case whole => exact whole
  case current =>
    refine sound.current.imp_right (.imp_right fun current => ⟨fun none_left => ?_, fun task => ?_⟩)
    · rw [tasks'] at none_left
      cases none_left
    · have last := current.last
      rw [tasks] at last
      rw [tasks']
      cases rest with
      | nil =>
          intro mem
          obtain rfl : ⟨hosts, next⟩ = task := by simpa using mem
          exact last ⟨hosts, stage⟩ rfl
      | cons second rest =>
          rw [List.getLast?_cons_cons] at last ⊢
          exact last task

/-- The first task has renamed its file. -/
theorem Sound.finish (sound : env.Sound before s) {hosts : Receipts} {stage : TaskStage}
    {rest : List PersistTask} (tasks : s.tasks = ⟨hosts, stage⟩ :: rest) {volume : Volume}
    {generatedUnix : UInt64}
    (holds : volume.disk env.path = some (env.text hosts generatedUnix)) :
    env.Sound before (endTask { s with volume } 0) := by
  have tasks' : (endTask { s with volume } 0).tasks = rest := tasks_endTask tasks volume
  constructor
  case filled => exact sound.filled
  case readable =>
    rw [tasks']
    intro task mem
    exact sound.readable task (by simp [tasks, mem])
  case queued =>
    rw [tasks']
    intro task mem
    exact sound.queued task (by simpa [tasks] using List.mem_of_mem_tail mem)
  case ahead =>
    rw [tasks']
    intro task mem
    have waiting := sound.queued task (by simpa [tasks] using List.mem_of_mem_head? mem)
    rw [waiting]
    trivial
  case whole =>
    intro content held
    have same : env.text hosts generatedUnix = content := by
      simpa [endTask, holds] using held
    exact .inr ⟨hosts, generatedUnix, same.symm⟩
  case current =>
    refine sound.current.imp_right (.imp_right fun current => ⟨fun none_left => ?_, fun task => ?_⟩)
    · rw [tasks'] at none_left
      subst none_left
      have last : hosts = s.store.hosts := current.last ⟨hosts, stage⟩ (by simp [tasks])
      have readable := sound.readable ⟨hosts, stage⟩ (by simp [tasks])
      calc env.reload (endTask { s with volume } 0)
          = .ok (reloadedReceipts hosts) := loadReceipts_of_text holds
        _ = .ok hosts := by rw [readable]
        _ = .ok s.store.hosts := by rw [last]
    · rw [tasks']
      intro mem
      refine current.last task ?_
      rw [tasks]
      cases rest with
      | nil => cases mem
      | cons second rest => simpa [List.getLast?_cons_cons] using mem

/-- A flush or a recording call leaves tasks and files alone. -/
theorem Sound.of_store (sound : env.Sound before s) {store : ReceiptStore}
    {flushes : List (Nat × FlushPhase)} (filled : ∀ host ∈ store.hosts, host ≠ [])
    (pending : store.dirty = true ∨ flushes ≠ []) :
    env.Sound before { s with store, flushes } :=
  ⟨filled, sound.readable, sound.queued, sound.ahead, sound.whole,
    pending.imp_right .inl⟩

theorem Sound.snapshot (sound : env.Sound before s) (caller : Nat)
    (fixed : ∀ host ∈ s.store.hosts.keys, normalizeHost host = host) :
    env.Sound before
      (leave { s with tasks := s.tasks ++ [⟨s.store.hosts, .snapshot⟩] } caller) := by
  constructor
  case filled => exact sound.filled
  case readable =>
    intro task mem
    rcases List.mem_append.mp mem with old | new
    · exact sound.readable task old
    · obtain rfl := List.mem_singleton.mp new
      exact (reloadedReceipts_eq_iff sound.filled).mpr fun host mem =>
        fixed host (by simpa using mem)
  case queued => exact waiting_concat sound.queued s.store.hosts
  case ahead =>
    intro task mem
    rcases head_concat mem with waits | old
    · rw [waits]
      trivial
    · exact sound.ahead task old
  case whole => exact sound.whole
  case current =>
    refine .inr (.inr ⟨fun none_left => ?_, fun task mem => ?_⟩)
    · simp [leave] at none_left
    · simp only [leave, List.getLast?_append, List.getLast?_singleton, Option.some_or,
        Option.mem_some] at mem
      rw [← mem]
      rfl

theorem Sound.record (sound : env.Sound before s) (call : RecordCall) :
    env.Sound before { s with store := s.store.record call.host call.entry call.now } := by
  by_cases skipped : normalizeHost call.host = []
  · have same : s.store.record call.host call.entry call.now = s.store := if_pos skipped
    rw [same]
    exact sound
  · refine sound.of_store (fun host mem => ?_) (.inl ?_)
    · rcases ReceiptStore.mem_record.mp mem with old | ⟨filled, -⟩
      · exact sound.filled host old
      · exact filled
    · simp [ReceiptStore.record, skipped]

theorem Sound.prune (sound : env.Sound before s) (caller : Nat) (now : UInt64) :
    env.Sound before (enter
      { s with store :=
        { s.store with hosts := ReceiptStore.pruneStaleHosts s.store.hosts (6 * 3600) now } }
      caller .snapshotting) := by
  refine sound.of_store (fun host mem => ?_) (.inr (List.cons_ne_nil _ _))
  exact sound.filled host (Std.ExtTreeMap.mem_of_mem_filter mem)

theorem Whole.of_disk {volume volume' : Volume} (whole : env.Whole before volume)
    (same : volume'.disk env.path = volume.disk env.path) : env.Whole before volume' :=
  fun content held => whole content (same ▸ held)

/-- What a file other than the temporary one holds is not written to. -/
theorem Holds.whole_fill {volume : Volume} {file : Nat} {content : Bytes}
    (holds : env.Holds volume file content) (whole : env.Whole before volume) (filled : Bytes) :
    env.Whole before (volume.fill file filled) :=
  whole.of_disk (Volume.disk_fill_of_named holds.named (Ne.symm holds.apart) filled)

theorem Holds.fill {volume : Volume} {file : Nat} {content : Bytes}
    (holds : env.Holds volume file content) (filled : Bytes) :
    env.Holds (volume.fill file filled) file filled :=
  ⟨holds.apart, holds.named, Function.update_self ..⟩

/-- The text written so far grows. -/
theorem Sound.write (sound : env.Sound before s) {hosts : Receipts} {rest : List PersistTask}
    {file : Nat} {text : Bytes} {written count : Nat}
    (tasks : s.tasks = ⟨hosts, .writing file text written⟩ :: rest)
    (fits : written + count ≤ text.length) :
    ∃ generatedUnix, text = env.text hosts generatedUnix ∧
      env.Holds (s.volume.write file written ((text.drop written).take count)) file
        (text.take (written + count)) ∧
      env.Whole before (s.volume.write file written ((text.drop written).take count)) := by
  obtain ⟨generatedUnix, printed, -, holds⟩ := sound.ahead ⟨hosts, .writing file text written⟩
    (by simp [tasks])
  refine ⟨generatedUnix, printed, ?_, holds.whole_fill sound.whole _⟩
  have content := Volume.overwrite_take fits
  rw [← holds.content] at content
  have filled := holds.fill (Volume.overwrite (s.volume.contents file) written
    ((text.drop written).take count))
  rw [content] at filled
  unfold Volume.write
  rw [content]
  exact filled

theorem Sound.create (sound : env.Sound before s) {hosts : Receipts} {rest : List PersistTask}
    (tasks : s.tasks = ⟨hosts, .snapshot⟩ :: rest) (apart : ¬ env.path.InPlace)
    (generatedUnix : UInt64) :
    env.Sound before (setStage { s with volume := (s.volume.create env.temporary).2 } 0
      (.writing (s.volume.create env.temporary).1 (env.text hosts generatedUnix) 0)) := by
  obtain ⟨named, empty, others⟩ := s.volume.create_spec env.temporary
  refine sound.advance tasks ⟨generatedUnix, rfl, Nat.zero_le _, apart, named, empty⟩ ?_
  exact sound.whole.of_disk (others env.path (Ne.symm apart))

theorem Sound.remove (sound : env.Sound before s) {hosts : Receipts} {rest : List PersistTask}
    (tasks : s.tasks = ⟨hosts, .refused⟩ :: rest) :
    env.Sound before (setStage { s with volume := s.volume.remove env.path } 0 .cleared) := by
  obtain ⟨file, generatedUnix, holds⟩ := sound.ahead ⟨hosts, .refused⟩ (by simp [tasks])
  refine sound.advance tasks ⟨file, generatedUnix, holds.apart, ?_, holds.content⟩ ?_
  · exact (remove_of_ne _ holds.apart).trans holds.named
  · intro content held
    simp [Volume.disk, Volume.remove] at held

/-- A refused rename, and a removal that fails, change nothing but the stage. -/
theorem Sound.restage (sound : env.Sound before s) {hosts : Receipts} {stage : TaskStage}
    {rest : List PersistTask} (tasks : s.tasks = ⟨hosts, stage⟩ :: rest) (next : TaskStage)
    (kept : env.Progress s.volume hosts stage → env.Progress s.volume hosts next) :
    env.Sound before (setStage s 0 next) :=
  sound.advance tasks (kept (sound.ahead ⟨hosts, stage⟩ (by simp [tasks]))) sound.whole

/-- The temporary file of a task that only has to rename it. -/
theorem Sound.holds (sound : env.Sound before s) {hosts : Receipts} {stage : TaskStage}
    {rest : List PersistTask} (tasks : s.tasks = ⟨hosts, stage⟩ :: rest)
    (filled : stage = .closed ∨ stage = .cleared) :
    ∃ file generatedUnix, env.Holds s.volume file (env.text hosts generatedUnix) := by
  have ahead := sound.ahead ⟨hosts, stage⟩ (by simp [tasks])
  rcases filled with rfl | rfl <;> exact ahead

theorem Sound.install (sound : env.Sound before s) {hosts : Receipts} {stage : TaskStage}
    {rest : List PersistTask} (tasks : s.tasks = ⟨hosts, stage⟩ :: rest)
    (filled : stage = .closed ∨ stage = .cleared) :
    env.Sound before (endTask { s with volume := s.volume.rename env.temporary env.path } 0) := by
  obtain ⟨file, generatedUnix, holds⟩ := sound.holds tasks filled
  have installed : (s.volume.rename env.temporary env.path).disk env.path =
      some (env.text hosts generatedUnix) := by
    rw [Volume.disk_rename_target holds.named, holds.content]
  exact sound.finish tasks installed

/-- The writer loses nothing when it is dropped. -/
theorem Sound.close (sound : env.Sound before s) {hosts : Receipts} {rest : List PersistTask}
    {file : Nat} {text : Bytes} {written : Nat}
    (tasks : s.tasks = ⟨hosts, .writing file text written⟩ :: rest)
    (inside : written ≤ text.length) :
    env.Sound before (setStage
      { s with
        volume := s.volume.write file written
          ((text.drop written).take (text.drop written).length) }
      0 .closed) := by
  have fits : written + (text.drop written).length ≤ text.length := by
    rw [List.length_drop]
    omega
  have all : text.take (written + (text.drop written).length) = text :=
    List.take_of_length_le (by rw [List.length_drop]; omega)
  obtain ⟨generatedUnix, printed, holds, whole⟩ := sound.write tasks fits
  rw [all] at holds
  exact sound.advance tasks ⟨file, generatedUnix, printed ▸ holds⟩ whole

/-- A smooth step keeps the invariant. -/
theorem Sound.step (sound : env.Sound before s) {event : FlushEvent} {next : FlushState}
    (smooth : env.Smooth s event) (turn : env.Turn s event next) : env.Sound before next := by
  cases turn with
  | record call => exact sound.record call
  | swap caller => exact sound.of_store sound.filled (.inr (List.cons_ne_nil _ _))
  | clean caller => exact sound
  | prune caller time => exact sound.prune caller time
  | snapshot caller => exact sound.snapshot caller smooth
  | create tasks generatedUnix =>
      obtain ⟨-, -, apart⟩ := smooth
      exact sound.create tasks apart generatedUnix
  | write tasks fits =>
      obtain ⟨generatedUnix, printed, holds, whole⟩ := sound.write tasks fits
      exact sound.advance tasks ⟨generatedUnix, printed, fits, holds⟩ whole
  | close tasks inside =>
      obtain rfl := smooth
      exact sound.close tasks inside
  | install tasks filled named => exact sound.install tasks filled
  | vanished tasks filled absent =>
      obtain ⟨file, generatedUnix, holds⟩ := sound.holds tasks filled
      rw [holds.named] at absent
      cases absent
  | refuse tasks error => exact sound.restage tasks .refused id
  | remove tasks => exact sound.remove tasks
  | keep tasks error => exact sound.restage tasks .cleared id
  | fail tasks rough => exact absurd smooth rough

theorem Sound.of_load {volume : Volume} {initial : FlushState}
    (loaded : env.load volume = .ok initial) :
    env.Sound (volume.disk env.path) initial := by
  obtain ⟨hosts, reads, made⟩ := bind_eq_ok_iff.mp loaded
  cases made
  exact
    { filled := fun host mem => loadReceipts_filled reads host mem
      readable := by simp
      queued := by simp
      ahead := by simp
      whole := fun content held => .inl held
      current := .inr (.inr ⟨fun _ => reads, by simp⟩) }

/-- In a run of smooth steps nothing is lost: whenever all is quiet the file is read back as what is
in memory, and the path never has anything but what it had at first or a whole snapshot. -/
theorem flushes_lose_nothing (env : FlushEnv) {volume : Volume} {initial final : FlushState}
    {events : List FlushEvent} {outputs : List FlushOutput}
    (loaded : env.load volume = .ok initial)
    (execution : env.machine.Run initial events outputs (.running final))
    (each : env.machine.EachStep env.Smooth initial events) :
    (Quiet final → env.reload final = .ok final.store.hosts) ∧
      ∀ content, final.volume.disk env.path = some content →
        volume.disk env.path = some content ∨
          ∃ hosts generatedUnix, content = env.text hosts generatedUnix := by
  have sound : env.Sound (volume.disk env.path) final := by
    refine execution.history (fun events _ s => env.machine.EachStep env.Smooth initial events →
      env.Sound (volume.disk env.path) s) (fun _ => .of_load loaded) ?_ each
    intro events outputs state event now next front kept polled reacts each
    have sound := kept each.front
    have smooth := each.last front
    exact sound.step smooth (turn_of_react sound.queued smooth.inTurn polled reacts)
  refine ⟨fun ⟨clean, idle, none_left⟩ => ?_, sound.whole⟩
  rcases sound.current with dirty | pending | current
  · rw [clean] at dirty
    cases dirty
  · exact absurd idle pending
  · exact current.installed none_left

instance (s : FlushState) (event : FlushEvent) : Decidable (env.Smooth s event) :=
  match event with
  | .snapshot _ =>
      inferInstanceAs (Decidable (∀ host ∈ s.store.hosts.keys, normalizeHost host = host))
  | .create task _ outcome =>
      inferInstanceAs (Decidable (task = 0 ∧ outcome = .ok () ∧ ¬ (_ : FilePath) = env.path))
  | .write _ _ outcome => inferInstanceAs (Decidable (outcome = .ok ()))
  | .close _ lost => inferInstanceAs (Decidable (lost = 0))
  | .rename _ (.ok ()) => isTrue trivial
  | .rename task (.error error) =>
      inferInstanceAs (Decidable (occupied error = true ∧ stageOf s task = some .closed))
  | .record _ | .swap _ | .prune _ _ | .remove _ _ => isTrue trivial

/-! ### One flush, a flush without a file, and two flushes at once -/

def sampleFlushEnv : FlushEnv := ⟨sampleReceiptSerde, sampleReceiptPath⟩

def sampleVolume : Volume := ⟨fun _ => none, fun _ => [], 0, by simp, by simp⟩

def sampleStart : FlushState := ⟨⟨∅, false⟩, sampleVolume, [], []⟩

/-- A call and the flush behind it. -/
def sampleSnapshot : List FlushEvent :=
  [.record ⟨ascii "B.", .mitmAttempt, 10⟩, .swap 0, .prune 0 11, .snapshot 0]

def sampleFlush : List FlushEvent :=
  sampleSnapshot ++ [.create 0 12 (.ok ()), .write 0 100 (.ok ()), .close 0 0, .rename 0 (.ok ())]

def sampleNoSpace : IoError := ⟨.other, ascii "No space left on device (os error 28)"⟩

def sampleLostFlush : List FlushEvent := sampleSnapshot ++ [.create 0 12 (.error sampleNoSpace)]

/-- The second task opens the temporary file that the first one is about to rename. -/
def sampleTwoFlushes : List FlushEvent :=
  sampleSnapshot ++ sampleSnapshot ++
    [.create 0 12 (.ok ()), .close 0 0, .create 1 12 (.ok ()), .rename 0 (.ok ())]

/-- A task that fails leaves a clean store and no file, and a task that starts too early leaves an
empty file. -/
theorem failed_and_early_tasks_lose :
    (∃ outputs final, sampleFlushEnv.machine.Run sampleStart sampleLostFlush outputs
        (.running final) ∧ Quiet final ∧ final.store.hosts.keys = [ascii "b"] ∧
      sampleFlushEnv.reload final = .ok ∅ ∧
      sampleFlushEnv.reload final ≠ .ok final.store.hosts) ∧
    ∃ outputs final, sampleFlushEnv.machine.Run sampleStart sampleTwoFlushes outputs
        (.running final) ∧ sampleVolume.disk sampleFlushEnv.path = none ∧
      final.volume.disk sampleFlushEnv.path = some [] := by
  constructor
  · obtain ⟨outputs, status, execution, seen⟩ := Machine.exists_run sampleFlushEnv.machine
      sampleStart sampleLostFlush
      (fun reaction => reaction.status.state?.map fun s =>
        (quiet s, (s.volume.disk sampleFlushEnv.path).isNone, s.store.hosts.keys))
      (show _ = some (some (true, true, [ascii "b"])) by decide +kernel)
    obtain ⟨final, reached, fields⟩ := Option.map_eq_some_iff.mp seen
    obtain rfl := Status.eq_running reached
    simp only [Prod.mk.injEq] at fields
    obtain ⟨still, absent, keys⟩ := fields
    have reads : sampleFlushEnv.reload final = .ok ∅ := if_pos absent
    refine ⟨outputs, final, execution, quiet_iff.mp still, keys, reads, fun same => ?_⟩
    rw [reads] at same
    rw [← Except.ok.inj same] at keys
    cases keys
  · obtain ⟨outputs, status, execution, seen⟩ := Machine.exists_run sampleFlushEnv.machine
      sampleStart sampleTwoFlushes
      (fun reaction => reaction.status.state?.map fun s => s.volume.disk sampleFlushEnv.path)
      (show _ = some (some (some [])) by decide +kernel)
    obtain ⟨final, reached, left⟩ := Option.map_eq_some_iff.mp seen
    obtain rfl := Status.eq_running reached
    exact ⟨outputs, final, execution, rfl, left⟩

theorem sampleFlush_kept :
    ∃ outputs final, sampleFlushEnv.machine.Run sampleStart sampleFlush outputs (.running final) ∧
      Quiet final ∧ sampleFlushEnv.reload final = .ok final.store.hosts := by
  obtain ⟨outputs, status, execution, seen⟩ := Machine.exists_run sampleFlushEnv.machine
    sampleStart sampleFlush
    (fun reaction => reaction.status.state?.map quiet)
    (show _ = some (some true) by decide +kernel)
  obtain ⟨final, reached, still⟩ := Option.map_eq_some_iff.mp seen
  obtain rfl := Status.eq_running reached
  have loaded : sampleFlushEnv.load sampleVolume = .ok sampleStart := rfl
  have each : sampleFlushEnv.machine.EachStep sampleFlushEnv.Smooth sampleStart sampleFlush :=
    .of_checkEach (by decide +kernel)
  exact ⟨outputs, final, execution, quiet_iff.mp still,
    (flushes_lose_nothing sampleFlushEnv loaded execution each).1 (quiet_iff.mp still)⟩

end FlushEnv

end PrivacyEngine
