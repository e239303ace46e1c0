import PrivacyEngine.Store.ReceiptFlush

/-!
# The receipts on disk

Writing to the temporary file may fail or lose its last bytes at any time, and the temporary file
may even be the destination.  As long as a task opens it only behind all older tasks, the
destination has nothing but pieces of whole snapshots, and a reader that takes no text cut short
finds a snapshot again.  So what holds of every receipt of every snapshot holds of every receipt
that a restart reads.
-/

namespace PrivacyEngine

open Wire FileSystem Reactive

/-- A property of every receipt. -/
def EachReceipt (good : HostReceipt → Prop) (hosts : Receipts) : Prop :=
  ∀ (host : Str) (receipt : HostReceipt), hosts[host]? = some receipt → good receipt

theorem eachReceipt_empty (good : HostReceipt → Prop) : EachReceipt good ∅ := by
  intro host receipt held
  simp at held

theorem EachReceipt.insert {good : HostReceipt → Prop} {hosts : Receipts}
    (each : EachReceipt good hosts) {receipt : HostReceipt} (holds : good receipt) (host : Str) :
    EachReceipt good (hosts.insert host receipt) := by
  intro other found held
  rw [Std.ExtTreeMap.getElem?_insert] at held
  split at held
  · cases held
    exact holds
  · exact each other found held

theorem EachReceipt.reloaded {good : HostReceipt → Prop} {hosts : Receipts}
    (each : EachReceipt good hosts) : EachReceipt good (reloadedReceipts hosts) := by
  suffices kept : ∀ (entries : List (Str × HostReceipt)) (filled : Receipts),
      (∀ entry ∈ entries, good entry.2) → EachReceipt good filled →
      EachReceipt good (entries.foldl (fun filled entry =>
        if normalizeHost entry.1 = [] then filled
        else filled.insert (normalizeHost entry.1) entry.2) filled) by
    refine kept hosts.toList ∅ (fun entry mem => ?_) (eachReceipt_empty good)
    exact each entry.1 entry.2 (Std.ExtTreeMap.mem_toList_iff_getElem?_eq_some.mp mem)
  intro entries
  induction entries with
  | nil => exact fun filled _ each => each
  | cons entry entries ih =>
      intro filled holds each
      refine ih _ (fun other mem => holds other (List.mem_cons_of_mem _ mem)) ?_
      simp only
      split
      · exact each
      · exact each.insert (holds entry List.mem_cons_self) _

namespace Volume

theorem disk_fill (volume : Volume) (file : Nat) (content : Bytes) (path : FilePath) :
    (volume.fill file content).disk path =
      if volume.names path = some file then some content else volume.disk path := by
  unfold disk fill
  cases named : volume.names path with
  | none => simp
  | some found =>
      by_cases same : found = file
      · simp [same]
      · simp [same]

theorem disk_remove (volume : Volume) (path other : FilePath) :
    (volume.remove path).disk other = if other = path then none else volume.disk other := by
  by_cases here : other = path
  · simp [disk, remove, here]
  · simp [disk, remove, here]

end Volume

namespace FlushEnv

variable (env : FlushEnv) (good : HostReceipt → Prop)

/-- The text of a snapshot, up to where it has been cut short. -/
def Piece (content : Bytes) : Prop :=
  ∃ hosts generatedUnix count, EachReceipt good hosts ∧
    content = (env.text hosts generatedUnix).take count

/-- What the first task has made of the temporary file. -/
def Fills (volume : Volume) (hosts : Receipts) : TaskStage → Prop
  | .snapshot => True
  | .writing file text written =>
      ∃ generatedUnix, text = env.text hosts generatedUnix ∧ written ≤ text.length ∧
        volume.names env.temporary = some file ∧ volume.contents file = text.take written
  | .closed | .refused | .cleared =>
      ∀ content, volume.disk env.temporary = some content → env.Piece good content

structure Orderly (s : FlushState) : Prop where
  snapshots : ∀ task ∈ s.tasks, EachReceipt good task.hosts
  waiting : ∀ task ∈ s.tasks.tail, task.stage = .snapshot
  ahead : ∀ task ∈ s.tasks.head?, env.Fills good s.volume task.hosts task.stage
  file : ∀ content, s.volume.disk env.path = some content → env.Piece good content

variable {env} {good} {s : FlushState}

theorem Orderly.advance (orderly : env.Orderly good s) {hosts : Receipts} {stage next : TaskStage}
    {rest : List PersistTask} (tasks : s.tasks = ⟨hosts, stage⟩ :: rest) {volume : Volume}
    (fills : env.Fills good volume hosts next)
    (file : ∀ content, volume.disk env.path = some content → env.Piece good content) :
    env.Orderly good (setStage { s with volume } 0 next) := by
  have tasks' : (setStage { s with volume } 0 next).tasks = ⟨hosts, next⟩ :: rest :=
    tasks_setStage tasks volume
  constructor
  case snapshots =>
    rw [tasks']
    intro task mem
    rcases List.mem_cons.mp mem with rfl | mem
    · exact orderly.snapshots ⟨hosts, stage⟩ (by simp [tasks])
    · exact orderly.snapshots task (by simp [tasks, mem])
  case waiting =>
    rw [tasks']
    intro task mem
    exact orderly.waiting task (by simpa [tasks] using mem)
  case ahead =>
    rw [tasks']
    rintro task ⟨⟩
    exact fills
  case file => exact file

/-- The first task has ended, with its text installed or not. -/
theorem Orderly.finish (orderly : env.Orderly good s) {task : PersistTask}
    {rest : List PersistTask} (tasks : s.tasks = task :: rest) {volume : Volume}
    (file : ∀ content, volume.disk env.path = some content → env.Piece good content) :
    env.Orderly good (endTask { s with volume } 0) := by
  have tasks' : (endTask { s with volume } 0).tasks = rest := tasks_endTask tasks volume
  constructor
  case snapshots =>
    rw [tasks']
    intro task mem
    exact orderly.snapshots task (by simp [tasks, mem])
  case waiting =>
    rw [tasks']
    intro task mem
    exact orderly.waiting task (by simpa [tasks] using List.mem_of_mem_tail mem)
  case ahead =>
    rw [tasks']
    intro task mem
    have waits := orderly.waiting task (by simpa [tasks] using List.mem_of_mem_head? mem)
    rw [waits]
    trivial
  case file => exact file

theorem Orderly.fail (orderly : env.Orderly good s) {task : PersistTask}
    {rest : List PersistTask} (tasks : s.tasks = task :: rest) : env.Orderly good (endTask s 0) :=
  orderly.finish tasks orderly.file

theorem Orderly.of_store (orderly : env.Orderly good s) (store : ReceiptStore)
    (flushes : List (Nat × FlushPhase)) : env.Orderly good { s with store, flushes } :=
  ⟨orderly.snapshots, orderly.waiting, orderly.ahead, orderly.file⟩

theorem Orderly.snapshot (orderly : env.Orderly good s) (caller : Nat)
    (each : EachReceipt good s.store.hosts) :
    env.Orderly good
      (leave { s with tasks := s.tasks ++ [⟨s.store.hosts, .snapshot⟩] } caller) := by
  constructor
  case snapshots =>
    intro task mem
    rcases List.mem_append.mp mem with old | new
    · exact orderly.snapshots task old
    · rw [List.mem_singleton.mp new]
      exact each
  case waiting => exact waiting_concat orderly.waiting s.store.hosts
  case ahead =>
    intro task mem
    rcases head_concat mem with waits | old
    · rw [waits]
      trivial
    · exact orderly.ahead task old
  case file => exact orderly.file

/-- Filling the temporary file with a piece leaves pieces only. -/
theorem piece_of_fill {volume : Volume}
    (file : ∀ content, volume.disk env.path = some content → env.Piece good content) {number : Nat}
    {filled : Bytes} (piece : env.Piece good filled) :
    ∀ content, (volume.fill number filled).disk env.path = some content →
      env.Piece good content := by
  intro content held
  rw [Volume.disk_fill] at held
  split at held
  · cases held
    exact piece
  · exact file content held

theorem Orderly.create (orderly : env.Orderly good s) {hosts : Receipts} {rest : List PersistTask}
    (tasks : s.tasks = ⟨hosts, .snapshot⟩ :: rest) (generatedUnix : UInt64) :
    env.Orderly good (setStage { s with volume := (s.volume.create env.temporary).2 } 0
      (.writing (s.volume.create env.temporary).1 (env.text hosts generatedUnix) 0)) := by
  obtain ⟨named, empty, others⟩ := s.volume.create_spec env.temporary
  refine orderly.advance tasks ⟨generatedUnix, rfl, Nat.zero_le _, named, empty⟩ ?_
  intro content held
  by_cases here : env.path = env.temporary
  · rw [here, Volume.disk, named, Option.map_some, empty] at held
    have each := orderly.snapshots ⟨hosts, .snapshot⟩ (by simp [tasks])
    exact ⟨hosts, generatedUnix, 0, each, (Option.some.inj held).symm⟩
  · rw [others _ here] at held
    exact orderly.file content held

/-- The first task has written some more of its text. -/
theorem Orderly.write (orderly : env.Orderly good s) {hosts : Receipts} {rest : List PersistTask}
    {file : Nat} {text : Bytes} {written count : Nat}
    (tasks : s.tasks = ⟨hosts, .writing file text written⟩ :: rest)
    (fits : written + count ≤ text.length) {volume : Volume}
    (volume_eq : volume = s.volume.write file written ((text.drop written).take count)) :
    env.Fills good volume hosts (.writing file text (written + count)) ∧
      env.Fills good volume hosts .closed ∧
      ∀ content, volume.disk env.path = some content → env.Piece good content := by
  obtain ⟨generatedUnix, printed, -, named, content⟩ :=
    orderly.ahead ⟨hosts, .writing file text written⟩ (by simp [tasks])
  have each := orderly.snapshots ⟨hosts, .writing file text written⟩ (by simp [tasks])
  have filled : volume = s.volume.fill file (text.take (written + count)) := by
    rw [volume_eq, Volume.write, content, Volume.overwrite_take fits]
  have piece : env.Piece good (text.take (written + count)) :=
    ⟨hosts, generatedUnix, written + count, each, by rw [printed]⟩
  subst filled
  refine ⟨⟨generatedUnix, printed, fits, named, Function.update_self ..⟩, ?_, ?_⟩
  · intro content held
    rw [Volume.disk_fill, if_pos named] at held
    cases held
    exact piece
  · exact piece_of_fill orderly.file piece

theorem Orderly.pieces (orderly : env.Orderly good s) {hosts : Receipts} {stage : TaskStage}
    {rest : List PersistTask} (tasks : s.tasks = ⟨hosts, stage⟩ :: rest)
    (filled : stage = .closed ∨ stage = .cleared) :
    ∀ content, s.volume.disk env.temporary = some content → env.Piece good content := by
  have ahead := orderly.ahead ⟨hosts, stage⟩ (by simp [tasks])
  rcases filled with rfl | rfl <;> exact ahead

theorem Orderly.install (orderly : env.Orderly good s) {hosts : Receipts} {stage : TaskStage}
    {rest : List PersistTask} (tasks : s.tasks = ⟨hosts, stage⟩ :: rest)
    (filled : stage = .closed ∨ stage = .cleared) {file : Nat}
    (named : s.volume.names env.temporary = some file) :
    env.Orderly good (endTask { s with volume := s.volume.rename env.temporary env.path } 0) := by
  refine orderly.finish tasks fun content held => orderly.pieces tasks filled content ?_
  rw [Volume.disk_rename_target named] at held
  rw [Volume.disk, named]
  exact held

/-- The writer may lose what is in its last buffer. -/
theorem Orderly.close (orderly : env.Orderly good s) {hosts : Receipts} {rest : List PersistTask}
    {file : Nat} {text : Bytes} {written lost : Nat}
    (tasks : s.tasks = ⟨hosts, .writing file text written⟩ :: rest)
    (inside : written + lost ≤ text.length) :
    env.Orderly good (setStage
      { s with
        volume := s.volume.write file written
          ((text.drop written).take ((text.drop written).length - lost)) }
      0 .closed) := by
  have fits : written + ((text.drop written).length - lost) ≤ text.length := by
    rw [List.length_drop]
    omega
  obtain ⟨-, closed, pieces⟩ := orderly.write tasks fits rfl
  exact orderly.advance tasks closed pieces

theorem Orderly.remove (orderly : env.Orderly good s) {hosts : Receipts} {rest : List PersistTask}
    (tasks : s.tasks = ⟨hosts, .refused⟩ :: rest) :
    env.Orderly good (setStage { s with volume := s.volume.remove env.path } 0 .cleared) := by
  have ahead : ∀ content, s.volume.disk env.temporary = some content → env.Piece good content :=
    orderly.ahead ⟨hosts, .refused⟩ (by simp [tasks])
  refine orderly.advance tasks (fun content held => ?_) fun content held => ?_
  · rw [Volume.disk_remove] at held
    split at held
    · cases held
    · exact ahead content held
  · rw [Volume.disk_remove, if_pos rfl] at held
    cases held

/-- A step in turn keeps the order, whatever else goes wrong. -/
theorem Orderly.step (orderly : env.Orderly good s) (each : EachReceipt good s.store.hosts)
    {event : FlushEvent} {next : FlushState} (turn : env.Turn s event next) :
    env.Orderly good next := by
  cases turn with
  | record call => exact orderly.of_store _ _
  | swap caller => exact orderly.of_store _ _
  | clean caller => exact orderly
  | prune caller time => exact orderly.of_store _ _
  | snapshot caller => exact orderly.snapshot caller each
  | create tasks generatedUnix => exact orderly.create tasks generatedUnix
  | write tasks fits =>
      obtain ⟨fills, -, pieces⟩ := orderly.write tasks fits rfl
      exact orderly.advance tasks fills pieces
  | close tasks inside => exact orderly.close tasks inside
  | install tasks filled named => exact orderly.install tasks filled named
  | vanished tasks => exact orderly.fail tasks
  | refuse tasks error =>
      exact orderly.advance tasks (orderly.pieces tasks (.inl rfl)) orderly.file
  | remove tasks => exact orderly.remove tasks
  | @keep hosts rest tasks error =>
      have pieces : env.Fills good s.volume hosts .refused :=
        orderly.ahead ⟨hosts, .refused⟩ (by simp [tasks])
      exact orderly.advance tasks pieces orderly.file
  | fail tasks => exact orderly.fail tasks

/-- A restart reads good receipts. -/
theorem Orderly.load (orderly : env.Orderly good s) (rejects : env.serde.RejectsCut)
    {fresh : FlushState} (loaded : env.load s.volume = .ok fresh) :
    EachReceipt good fresh.store.hosts ∧ env.Orderly good fresh := by
  obtain ⟨hosts, reads, made⟩ := bind_eq_ok_iff.mp loaded
  cases made
  refine ⟨?_, by simp, by simp, by simp, orderly.file⟩
  unfold loadReceipts at reads
  split at reads
  · cases reads
    exact eachReceipt_empty good
  · rename_i there
    obtain ⟨content, held⟩ : ∃ content, s.volume.disk env.path = some content :=
      Option.ne_none_iff_exists'.mp (by simpa using there)
    obtain ⟨written, generatedUnix, count, each, rfl⟩ := orderly.file content held
    by_cases whole : (env.text written generatedUnix).length ≤ count
    · rw [List.take_of_length_le whole] at held
      have same := loadReceipts_of_text held
      rw [loadReceipts, if_neg there] at same
      rw [same] at reads
      cases reads
      exact each.reloaded
    · obtain ⟨raw, read, parses⟩ := bind_eq_ok_iff.mp reads
      obtain ⟨parsed, found, -⟩ := bind_eq_ok_iff.mp parses
      simp only [readDisk, held, readToString] at read
      split at read
      · rename_i valid
        cases read
        have cut := rejects _ count parsed (Nat.lt_of_not_le whole) valid
        cases text : env.serde.fromStr ((env.text written generatedUnix).take count) with
        | ok value =>
            rw [text] at found
            cases found
            exact absurd text cut
        | error error =>
            rw [text] at found
            cases found
      · cases read

end FlushEnv

end PrivacyEngine
