import PrivacyEngine.Lists.Cache
import PrivacyEngine.Policy.Reload

/-!
# The refresh task

The sources are loaded one after the other, at start-up and then in intervals, and the merged rules
replace the active ones when the last source is through.  In between the policy file is reloaded
into the same engine.  However the two tasks interleave, the configuration is that of the last good
file and the rules are those of the last refresh that found a list.
-/

namespace PrivacyEngine

open Wire Reactive FileSystem

namespace FilterList

deriving instance DecidableEq for FilterListSource

/-- The sources and the cache directory; whether there is an interval to refresh in. -/
structure RefreshTask where
  isSelector : Str → Bool
  cacheDir : List Str
  sources : List FilterListSource
  repeats : Bool

/-- Results of the sources that are through. -/
abbrev Results := List (List ParsedRule × ParseStats)

/-- Where the task is: a refresh has results, and sources that are still to be loaded. -/
inductive RefreshPhase where
  | starting
  | loading (initial : Bool) (allResults : Results) (pending : List FilterListSource)
  | waiting
  | stopped

structure RefreshState where
  phase : RefreshPhase := .starting
  rules : FilterListRules := {}
  disk : Disk

inductive RefreshEvent where
  | start
  | tick
  | loaded (load : SourceLoad)

inductive RefreshEffect where
  | incFilterListRefreshTotal
  | incFilterListRefreshFailedTotal
  | setFilterListRulesActive (activeCount : Nat)
  deriving DecidableEq

def activeCount (rules : FilterListRules) : Nat :=
  rules.blockDomains.length + rules.trackerScriptPatterns.length + rules.cosmeticSelectors.length

namespace RefreshTask

variable (task : RefreshTask)

/-- What a refresh answers. -/
def settle (s : RefreshState) (initial : Bool) :
    Except IoError FilterListRules → Reaction RefreshState RefreshEffect Empty
  | .ok newRules =>
      ⟨[.setFilterListRulesActive (activeCount newRules)],
        .running { s with
          rules := newRules
          phase := if initial && !task.repeats then .stopped else .waiting }⟩
  | .error _ =>
      -- without initial rules there is no task to try again
      ⟨[.incFilterListRefreshFailedTotal],
        .running { s with phase := if initial then .stopped else .waiting }⟩

/-- A refresh with some results and sources left. -/
def advance (s : RefreshState) (initial : Bool) (allResults : Results)
    (pending : List FilterListSource) : Reaction RefreshState RefreshEffect Empty :=
  match pending with
  | [] =>
      task.settle s initial
        (if allResults = [] then .error ⟨.other, ascii "all filter list sources failed"⟩
          else .ok (aggregateRules allResults))
  | _ => ⟨[], .running { s with phase := .loading initial allResults pending }⟩

/-- The beginning of a refresh, which has nothing to do without sources. -/
def begin (s : RefreshState) (initial : Bool) : Reaction RefreshState RefreshEffect Empty :=
  let reaction :=
    if task.sources = [] then task.settle s initial (.ok {})
    else ⟨[], .running { s with phase := .loading initial [] task.sources }⟩
  { reaction with outputs := .incFilterListRefreshTotal :: reaction.outputs }

def pollsEvent (s : RefreshState) : RefreshEvent → Bool
  | .start =>
      match s.phase with
      | .starting => true
      | _ => false
  | .tick =>
      match s.phase with
      | .waiting => true
      | _ => false
  | .loaded load =>
      match s.phase with
      | .loading _ _ (source :: _) => load.source = source
      | _ => false

def reactEvent (s : RefreshState) : RefreshEvent → Reaction RefreshState RefreshEffect Empty
  | .start =>
      if task.sources = [] then ⟨[], .running { s with phase := .stopped }⟩ else task.begin s true
  | .tick => task.begin s false
  | .loaded load =>
      match s.phase with
      | .loading initial allResults (_ :: pending) =>
          let (result, disk) := loadSource task.isSelector task.cacheDir load s.disk
          task.advance { s with disk } initial (allResults ++ result.toList) pending
      | _ => ⟨[], .running s⟩

/-- The start-up of the lists and the task behind it. -/
def refresh : Machine RefreshState RefreshEvent RefreshEffect Empty where
  polls := pollsEvent
  react := task.reactEvent

end RefreshTask

end FilterList

/-! ## The engine that two tasks share -/

/-- The tasks that write to the policy engine. -/
structure PolicyTasks where
  policy : ReloadTask
  lists : FilterList.RefreshTask

structure PolicyTasksState where
  engine : PolicyEngine
  lastMtime : Option Nat := none
  phase : FilterList.RefreshPhase := .starting
  disk : Disk

inductive PolicyTasksEvent where
  | policy (event : ReloadEvent)
  | lists (event : FilterList.RefreshEvent)

inductive PolicyTasksOutput where
  | policy (log : ReloadLog)
  | lists (effect : FilterList.RefreshEffect)
  deriving DecidableEq

namespace PolicyTasksState

def policy (s : PolicyTasksState) : ReloadState := ⟨s.engine, s.lastMtime⟩

def lists (s : PolicyTasksState) : FilterList.RefreshState :=
  ⟨s.phase, s.engine.filterListRules, s.disk⟩

end PolicyTasksState

namespace PolicyTasks

variable (tasks : PolicyTasks)

/-- A reaction of one task, with its outputs and the state it is a part of. -/
def embed {σ ω : Type} (output : ω → PolicyTasksOutput) (state : σ → PolicyTasksState)
    (reaction : Reaction σ ω Empty) : Reaction PolicyTasksState PolicyTasksOutput Empty where
  outputs := reaction.outputs.map output
  status :=
    match reaction.status with
    | .running s => .running (state s)
    | .halted verdict => .halted verdict

/-- Both tasks over one engine. -/
def service : Machine PolicyTasksState PolicyTasksEvent PolicyTasksOutput Empty where
  polls s
    | .policy event => tasks.policy.reload.polls s.policy event
    | .lists event => tasks.lists.refresh.polls s.lists event
  react s
    | .policy event =>
        embed .policy (fun t => { s with engine := t.engine, lastMtime := t.lastMtime })
          (tasks.policy.reload.react s.policy event)
    | .lists event =>
        embed .lists
          (fun t =>
            { s with
              engine := s.engine.replaceFilterListRules t.rules
              phase := t.phase
              disk := t.disk })
          (tasks.lists.refresh.react s.lists event)

end PolicyTasks

namespace FilterList

/-! ## Refreshes one at a time -/

/-- The load that an event tells of. -/
def RefreshEvent.load? : RefreshEvent → Option SourceLoad
  | .loaded load => some load
  | _ => none

/-- Refreshes that have begun but are not through. -/
def RefreshPhase.begun : RefreshPhase → Nat
  | .loading .. => 1
  | _ => 0

/-- The last value that the gauge of the active rules is set to. -/
def rulesActive (outputs : List RefreshEffect) : Nat :=
  (outputs.filterMap fun
    | .setFilterListRulesActive count => some count
    | _ => none).getLast?.getD 0

/-- What refreshes leave behind. -/
structure Refreshed where
  rules : FilterListRules := {}
  disk : Disk
  failures : Nat := 0

namespace RefreshTask

variable (task : RefreshTask)

/-- A refresh all at once. -/
def after (held : Refreshed) (loads : List SourceLoad) : Refreshed :=
  match refreshFilterLists task.isSelector task.cacheDir loads held.disk with
  | (.ok rules, disk) => { held with rules, disk }
  | (.error _, disk) => { held with disk, failures := held.failures + 1 }

def afterAll (disk : Disk) (rounds : List (List SourceLoad)) : Refreshed :=
  rounds.foldl task.after { disk }

/-- The phase fits what has been loaded since the last refresh, over the disk behind it. -/
def Fits (disk : Disk) (current : List SourceLoad) (s : RefreshState) : Prop :=
  match s.phase with
  | .loading _ allResults pending =>
      loadSources task.isSelector task.cacheDir current disk = (allResults, s.disk) ∧
        current.map SourceLoad.source ++ pending = task.sources ∧ pending ≠ []
  | _ => current = [] ∧ s.disk = disk

/-- The task after some complete refreshes and the loads behind them: rules, counters and gauge are
those of the refreshes taken one at a time. -/
structure Progress (disk : Disk) (rounds : List (List SourceLoad)) (current : List SourceLoad)
    (outputs : List RefreshEffect) (s : RefreshState) : Prop where
  complete : ∀ round ∈ rounds, round.map SourceLoad.source = task.sources
  fits : task.Fits (task.afterAll disk rounds).disk current s
  rules : s.rules = (task.afterAll disk rounds).rules
  total : outputs.count .incFilterListRefreshTotal = rounds.length + s.phase.begun
  failed : outputs.count .incFilterListRefreshFailedTotal = (task.afterAll disk rounds).failures
  active : rulesActive outputs = activeCount s.rules

section Steps

variable {task} {disk : Disk} {rounds : List (List SourceLoad)} {current : List SourceLoad}
  {outputs now : List RefreshEffect} {s t : RefreshState} {initial : Bool} {allResults : Results}
  {pending : List FilterListSource}

theorem afterAll_snoc (disk : Disk) (rounds : List (List SourceLoad)) (loads : List SourceLoad) :
    task.afterAll disk (rounds ++ [loads]) = task.after (task.afterAll disk rounds) loads := by
  rw [afterAll, List.foldl_append]
  rfl

theorem rulesActive_append (outputs now : List RefreshEffect) :
    rulesActive (outputs ++ now) =
      ((now.filterMap fun
        | .setFilterListRulesActive count => some count
        | _ => none).getLast?).getD (rulesActive outputs) := by
  rw [rulesActive, List.filterMap_append, List.getLast?_append]
  cases (now.filterMap fun
    | .setFilterListRulesActive count => some count
    | _ => none).getLast? <;> rfl

theorem loadSources_snoc (isSelector : Str → Bool) (cacheDir : List Str) (loads : List SourceLoad)
    (load : SourceLoad) (disk : Disk) :
    loadSources isSelector cacheDir (loads ++ [load]) disk =
      let (allResults, disk) := loadSources isSelector cacheDir loads disk
      let (result, disk) := loadSource isSelector cacheDir load disk
      (allResults ++ result.toList, disk) := by
  induction loads generalizing disk with
  | nil => simp [loadSources]
  | cons first loads ih => simp only [List.cons_append, loadSources, ih, List.append_assoc]

/-- A refresh that begins is counted, and one that ends is one refresh more. -/
theorem Progress.settle (complete : ∀ round ∈ rounds, round.map SourceLoad.source = task.sources)
    (all : current.map SourceLoad.source = task.sources)
    (loaded : loadSources task.isSelector task.cacheDir current (task.afterAll disk rounds).disk =
      (allResults, s.disk))
    (rules : s.rules = (task.afterAll disk rounds).rules)
    (total : outputs.count .incFilterListRefreshTotal = rounds.length + 1)
    (failed : outputs.count .incFilterListRefreshFailedTotal =
      (task.afterAll disk rounds).failures)
    (active : rulesActive outputs = activeCount s.rules)
    (settles : task.settle s initial (refreshResult current allResults) = ⟨now, .running t⟩) :
    task.Progress disk (rounds ++ [current]) [] (outputs ++ now) t := by
  have refreshed : refreshFilterLists task.isSelector task.cacheDir current
      (task.afterAll disk rounds).disk = (refreshResult current allResults, s.disk) := by
    rw [refreshFilterLists, loaded]
  have complete' : ∀ round ∈ rounds ++ [current], round.map SourceLoad.source = task.sources :=
    List.forall_mem_append.mpr ⟨complete, List.forall_mem_singleton.mpr all⟩
  cases answer : refreshResult current allResults with
  | ok newRules =>
      rw [answer] at refreshed settles
      have held : task.afterAll disk (rounds ++ [current]) =
          { task.afterAll disk rounds with rules := newRules, disk := s.disk } := by
        rw [afterAll_snoc, after, refreshed]
      cases settles
      refine ⟨complete', ?_, by rw [held], ?_, ?_, ?_⟩
      · rw [held, Fits]
        cases initial && !task.repeats <;> exact ⟨rfl, rfl⟩
      · rw [List.count_append, total, List.length_append]
        cases initial && !task.repeats <;> rfl
      · rw [List.count_append, failed, held]
        rfl
      · rw [rulesActive_append]
        rfl
  | error error =>
      rw [answer] at refreshed settles
      have held : task.afterAll disk (rounds ++ [current]) =
          { task.afterAll disk rounds with
            disk := s.disk
            failures := (task.afterAll disk rounds).failures + 1 } := by
        rw [afterAll_snoc, after, refreshed]
      cases settles
      refine ⟨complete', ?_, by rw [held, rules], ?_, ?_, ?_⟩
      · rw [held, Fits]
        cases initial <;> exact ⟨rfl, rfl⟩
      · rw [List.count_append, total, List.length_append]
        cases initial <;> rfl
      · rw [List.count_append, failed, held]
        rfl
      · rw [rulesActive_append]
        exact active

/-- A refresh begins where another one has ended. -/
theorem Progress.begins (progress : task.Progress disk rounds [] outputs s)
    (idle : s.phase.begun = 0)
    (held : s.disk = (task.afterAll disk rounds).disk)
    (begins : task.begin s initial = ⟨now, .running t⟩) :
    ∃ rounds', rounds'.flatten = rounds.flatten ∧
      task.Progress disk rounds' [] (outputs ++ now) t := by
  have total : (outputs ++ [RefreshEffect.incFilterListRefreshTotal]).count
      .incFilterListRefreshTotal = rounds.length + 1 := by
    rw [List.count_append, progress.total, idle]
    rfl
  have failed : (outputs ++ [RefreshEffect.incFilterListRefreshTotal]).count
      .incFilterListRefreshFailedTotal = (task.afterAll disk rounds).failures := by
    rw [List.count_append, progress.failed]
    rfl
  have active : rulesActive (outputs ++ [.incFilterListRefreshTotal]) = activeCount s.rules := by
    rw [rulesActive_append]
    exact progress.active
  by_cases nothing : task.sources = []
  · rw [begin, if_pos nothing] at begins
    rcases settled : task.settle s initial (.ok {}) with ⟨later, status⟩
    rw [settled] at begins
    cases begins
    refine ⟨rounds ++ [[]], by simp, ?_⟩
    rw [List.append_cons outputs]
    have all : ([] : List SourceLoad).map SourceLoad.source = task.sources := nothing.symm
    have loaded : loadSources task.isSelector task.cacheDir [] (task.afterAll disk rounds).disk =
        ([], s.disk) := Prod.ext rfl held.symm
    exact .settle progress.complete all loaded progress.rules total failed active settled
  · rw [begin, if_neg nothing] at begins
    cases begins
    refine ⟨rounds, rfl, progress.complete, ?_, progress.rules, total, failed, active⟩
    exact ⟨Prod.ext rfl held.symm, rfl, nothing⟩

/-- One event. -/
theorem Progress.react {event : RefreshEvent}
    (progress : task.Progress disk rounds current outputs s)
    (polled : task.refresh.polls s event = true)
    (reacts : task.refresh.react s event = ⟨now, .running t⟩) :
    ∃ rounds' current',
      rounds'.flatten ++ current' = rounds.flatten ++ current ++ event.load?.toList ∧
        task.Progress disk rounds' current' (outputs ++ now) t := by
  obtain ⟨phase, rules, held⟩ := s
  cases event with
  | start =>
      cases phase with
      | starting =>
          obtain ⟨rfl, same⟩ := progress.fits
          by_cases nothing : task.sources = []
          · have stops : task.refresh.react ⟨.starting, rules, held⟩ .start =
                ⟨[], .running ⟨.stopped, rules, held⟩⟩ := if_pos nothing
            rw [stops] at reacts
            cases reacts
            refine ⟨rounds, [], by simp [RefreshEvent.load?], ?_⟩
            rw [List.append_nil]
            exact ⟨progress.complete, ⟨rfl, same⟩, progress.rules, progress.total, progress.failed,
              progress.active⟩
          · have begins : task.refresh.react ⟨.starting, rules, held⟩ .start =
                task.begin ⟨.starting, rules, held⟩ true := if_neg nothing
            rw [begins] at reacts
            obtain ⟨rounds', all, later⟩ := progress.begins rfl same reacts
            exact ⟨rounds', [], by rw [all]; simp [RefreshEvent.load?], later⟩
      | _ => cases polled
  | tick =>
      cases phase with
      | waiting =>
          obtain ⟨rfl, same⟩ := progress.fits
          obtain ⟨rounds', all, later⟩ := progress.begins rfl same reacts
          exact ⟨rounds', [], by rw [all]; simp [RefreshEvent.load?], later⟩
      | _ => cases polled
  | loaded load =>
      cases phase with
      | loading initial allResults pending =>
          cases pending with
          | nil => cases polled
          | cons source pending =>
              obtain ⟨loaded, all, -⟩ := progress.fits
              obtain rfl : load.source = source := of_decide_eq_true polled
              have loaded' := loadSources_snoc task.isSelector task.cacheDir current load
                (task.afterAll disk rounds).disk
              rw [loaded] at loaded'
              have all' : (current ++ [load]).map SourceLoad.source ++ pending = task.sources := by
                rw [← all, List.map_append, List.append_assoc]
                rfl
              rcases result : loadSource task.isSelector task.cacheDir load held with ⟨found, next⟩
              simp only [result] at loaded'
              simp only [refresh, reactEvent, result] at reacts
              cases pending with
              | nil =>
                  rw [List.append_nil] at all'
                  have filled : current ++ [load] ≠ [] := by simp
                  have settles : task.settle
                      ⟨.loading initial allResults [load.source], rules, next⟩ initial
                      (refreshResult (current ++ [load]) (allResults ++ found.toList)) =
                        ⟨now, .running t⟩ := by
                    rw [refreshResult, if_neg filled]
                    exact reacts
                  refine ⟨rounds ++ [current ++ [load]], [], by simp [RefreshEvent.load?], ?_⟩
                  exact Progress.settle
                    (s := ⟨.loading initial allResults [load.source], rules, next⟩)
                    progress.complete all' loaded' progress.rules progress.total progress.failed
                    progress.active settles
              | cons source pending =>
                  cases reacts
                  refine ⟨rounds, current ++ [load], by simp [RefreshEvent.load?], ?_⟩
                  rw [List.append_nil]
                  exact ⟨progress.complete, ⟨loaded', all', List.cons_ne_nil _ _⟩, progress.rules,
                    progress.total, progress.failed, progress.active⟩
      | _ => cases polled

/-- Events of other tasks between the loads of a refresh change nothing in what it comes to. -/
theorem progress_of_run {events : List RefreshEvent}
    (execution : task.refresh.Run { disk } events outputs (.running s)) :
    ∃ rounds current, rounds.flatten ++ current = events.filterMap RefreshEvent.load? ∧
      task.Progress disk rounds current outputs s := by
  refine execution.history (fun events outputs s => ∃ rounds current,
    rounds.flatten ++ current = events.filterMap RefreshEvent.load? ∧
      task.Progress disk rounds current outputs s) ?_ ?_
  · exact ⟨[], [], rfl, nofun, ⟨rfl, rfl⟩, rfl, rfl, rfl, rfl⟩
  · rintro events outputs s event now t - ⟨rounds, current, all, progress⟩ polled reacts
    obtain ⟨rounds', current', all', later⟩ := progress.react polled reacts
    refine ⟨rounds', current', ?_, later⟩
    rw [all', all, List.filterMap_append]
    cases event <;> rfl

end Steps

end RefreshTask

end FilterList

namespace FilterList

/-! ## Texts of the sources themselves -/

/-- The text that a load reads or downloads. -/
def SourceLoad.fresh (load : SourceLoad) : Option Str :=
  match load.source.kind, load.localFile, load.download with
  | .localFile, .ok text, _ => some text
  | .url, _, .ok body => some (Utf8.lossy body)
  | _, _, _ => none

namespace RefreshTask

variable (task : RefreshTask)

/-- Sources that are downloaded. -/
def urls (url : Str) : Prop := ⟨url, .url⟩ ∈ task.sources

/-- A text was read or downloaded for a source in some loads, or cached for it at the beginning. -/
def Given (disk : Disk) (past : List SourceLoad) (source : FilterListSource) (text : Str) : Prop :=
  (∃ load ∈ past, load.source = source ∧ load.fresh = some text) ∨
    source.kind = .url ∧ disk (.join task.cacheDir (cacheFilename source.origin)) = some text

/-- Every cached list was given for its source. -/
def CacheOwn (initial : Disk) (past : List SourceLoad) (disk : Disk) : Prop :=
  ∀ url, task.urls url → ∀ text, disk (.join task.cacheDir (cacheFilename url)) = some text →
    task.Given initial past ⟨url, .url⟩ text

/-- Results are parsed from texts that were given for configured sources. -/
def ResultsOwn (initial : Disk) (past : List SourceLoad) (allResults : Results) : Prop :=
  ∃ texts : List (FilterListSource × Str),
    (∀ entry ∈ texts, entry.1 ∈ task.sources ∧ task.Given initial past entry.1 entry.2) ∧
      allResults = texts.map fun entry => parseFilterList task.isSelector entry.2

section Own

variable {task} {initial disk : Disk} {past more : List SourceLoad}

theorem Given.mono {source : FilterListSource} {text : Str}
    (given : task.Given initial past source text) (more : List SourceLoad) :
    task.Given initial (past ++ more) source text := by
  rcases given with ⟨load, mem, same, fresh⟩ | cached
  · exact .inl ⟨load, List.mem_append_left _ mem, same, fresh⟩
  · exact .inr cached

theorem ResultsOwn.mono {allResults : Results} (own : task.ResultsOwn initial past allResults)
    (more : List SourceLoad) : task.ResultsOwn initial (past ++ more) allResults := by
  obtain ⟨texts, given, same⟩ := own
  exact ⟨texts, fun entry mem => ⟨(given entry mem).1, (given entry mem).2.mono more⟩, same⟩

theorem ResultsOwn.append {left right : Results} (first : task.ResultsOwn initial past left)
    (second : task.ResultsOwn initial past right) :
    task.ResultsOwn initial past (left ++ right) := by
  obtain ⟨texts, given, rfl⟩ := first
  obtain ⟨texts', given', rfl⟩ := second
  exact ⟨texts ++ texts', List.forall_mem_append.mpr ⟨given, given'⟩, (List.map_append ..).symm⟩

theorem file_of_readDisk {path : FilePath} {text : Str} (reads : readDisk disk path = .ok text) :
    disk path = some text := by
  unfold readDisk at reads
  split at reads
  · rename_i content file
    unfold readToString at reads
    split at reads
    · exact file.trans (congrArg some (Except.ok.inj reads))
    · cases reads
  · cases reads

/-- Whatever fails while a list is cached, the file of a URL keeps its list, or is gone, or holds
the new list, if it is the URL of that list. -/
theorem cacheToDisk_file {url other : Str} (apart : Apart task.urls) (here : task.urls url)
    (there : task.urls other) (body : Bytes) (outcomes : Outcomes FsWrite) {text : Str}
    (held : (cacheToDisk task.cacheDir other body outcomes disk).2
      (.join task.cacheDir (cacheFilename url)) = some text) :
    disk (.join task.cacheDir (cacheFilename url)) = some text ∨ url = other ∧ text = body := by
  have files : (cacheToDisk task.cacheDir other body outcomes disk).2 =
      (replaceVia occupied missing (.join task.cacheDir (tmpFilename other))
        (.join task.cacheDir (cacheFilename other)) outcomes.createDirAll
        (outcomes.write.step body) outcomes.renames disk).2 := by
    unfold cacheToDisk
    dsimp only
    split
    · rename_i replaced
      rw [replaced]
    · rename_i replaced
      rw [replaced]
  rw [files] at held
  have not_tmp : FilePath.join task.cacheDir (cacheFilename url) ≠
      .join task.cacheDir (tmpFilename other) :=
    fun same => apart.tmp url other here there (join_inj.mp same)
  by_cases same : url = other
  · subst same
    rcases replaceVia_cases occupied missing (.join task.cacheDir (tmpFilename url))
      (.join task.cacheDir (cacheFilename url)) outcomes.createDirAll (outcomes.write.step body)
      outcomes.renames disk with
      ⟨-, left, after, finished, target, replaced⟩ | ⟨-, error, after, replaced, target⟩
    · rw [replaced] at held
      obtain rfl := Option.some.inj (target.symm.trans held)
      cases written : outcomes.write with
      | done =>
          rw [written] at finished
          cases finished
          exact .inr ⟨rfl, rfl⟩
      | _ =>
          rw [written] at finished
          cases finished
    · rw [replaced] at held
      rcases target with kept | gone | ⟨in_place, -⟩
      · exact .inl (kept.symm.trans held)
      · cases gone.symm.trans held
      · exact absurd in_place.symm not_tmp
  · have not_target : FilePath.join task.cacheDir (cacheFilename url) ≠
        .join task.cacheDir (cacheFilename other) :=
      fun collide => apart.target url other here there same (join_inj.mp collide)
    rw [replaceVia_frame occupied missing not_tmp not_target] at held
    exact .inl held

/-- What a load finds was given for its source. -/
theorem loadSource_given (apart : Apart task.urls) {load : SourceLoad}
    (configured : load.source ∈ task.sources) (cache : task.CacheOwn initial past disk) :
    task.ResultsOwn initial (past ++ [load])
        (loadSource task.isSelector task.cacheDir load disk).1.toList ∧
      task.CacheOwn initial (past ++ [load])
        (loadSource task.isSelector task.cacheDir load disk).2 := by
  have kept : task.CacheOwn initial (past ++ [load]) disk :=
    fun url here text held => (cache url here text held).mono [load]
  have nothing : task.ResultsOwn initial (past ++ [load]) [] := ⟨[], nofun, rfl⟩
  have fresh_given : ∀ text, load.fresh = some text →
      task.Given initial (past ++ [load]) load.source text :=
    fun text fresh => .inl ⟨load, by simp, rfl, fresh⟩
  have one : ∀ text, task.Given initial (past ++ [load]) load.source text →
      task.ResultsOwn initial (past ++ [load]) [parseFilterList task.isSelector text] :=
    fun text given => ⟨[(load.source, text)], by simpa using ⟨configured, given⟩, rfl⟩
  obtain ⟨⟨origin, kind⟩, localFile, download, caching⟩ := load
  cases kind with
  | localFile =>
      cases localFile with
      | ok text => exact ⟨one text (fresh_given text rfl), kept⟩
      | error error => exact ⟨nothing, kept⟩
  | url =>
      cases download with
      | ok body =>
          refine ⟨one _ (fresh_given _ rfl), fun url here text held => ?_⟩
          rcases cacheToDisk_file apart here configured _ caching held with before | ⟨rfl, rfl⟩
          · exact kept url here text before
          · exact fresh_given _ rfl
      | error error =>
          simp only [loadSource]
          rcases found : loadFromCache task.cacheDir origin disk with refused | (_ | text)
          · exact ⟨nothing, kept⟩
          · exact ⟨nothing, kept⟩
          · refine ⟨one text (kept origin configured text ?_), kept⟩
            unfold loadFromCache at found
            split at found
            · cases found
            · split at found
              · rename_i content reads
                cases found
                exact file_of_readDisk reads
              · split at found <;> cases found

theorem loadSources_given (apart : Apart task.urls) {loads : List SourceLoad}
    (configured : ∀ load ∈ loads, load.source ∈ task.sources)
    (cache : task.CacheOwn initial past disk) :
    task.ResultsOwn initial (past ++ loads)
        (loadSources task.isSelector task.cacheDir loads disk).1 ∧
      task.CacheOwn initial (past ++ loads)
        (loadSources task.isSelector task.cacheDir loads disk).2 := by
  induction loads generalizing past disk with
  | nil =>
      rw [List.append_nil]
      exact ⟨⟨[], nofun, rfl⟩, cache⟩
  | cons load loads ih =>
      obtain ⟨here, rest⟩ := List.forall_mem_cons.mp configured
      obtain ⟨found, cached⟩ := loadSource_given apart here cache
      obtain ⟨later, cached'⟩ := ih rest cached
      rw [List.append_assoc, List.singleton_append] at later cached'
      have found' := found.mono loads
      rw [List.append_assoc, List.singleton_append] at found'
      exact ⟨found'.append later, cached'⟩

theorem aggregateRules_nil : aggregateRules [] = {} := by
  simp [aggregateRules, sortDedup]

/-- A refresh that succeeds merges the results of its sources. -/
theorem rules_of_refreshFilterLists {isSelector : Str → Bool} {cacheDir : List Str}
    {loads : List SourceLoad} {newRules : FilterListRules}
    (refreshed : (refreshFilterLists isSelector cacheDir loads disk).1 = .ok newRules) :
    newRules = aggregateRules (loadSources isSelector cacheDir loads disk).1 := by
  cases loads with
  | nil =>
      cases refreshed
      exact aggregateRules_nil.symm
  | cons load loads =>
      have answer : refreshResult (load :: loads)
          (loadSources isSelector cacheDir (load :: loads) disk).1 = .ok newRules := refreshed
      rw [refreshResult, if_neg (List.cons_ne_nil load loads)] at answer
      split at answer
      · cases answer
      · exact (Except.ok.inj answer).symm

/-- Rules come from texts that their own sources gave. -/
theorem afterAll_given (apart : Apart task.urls) {rounds : List (List SourceLoad)}
    (complete : ∀ round ∈ rounds, round.map SourceLoad.source = task.sources) :
    (∃ allResults, task.ResultsOwn disk rounds.flatten allResults ∧
        (task.afterAll disk rounds).rules = aggregateRules allResults) ∧
      task.CacheOwn disk rounds.flatten (task.afterAll disk rounds).disk := by
  induction rounds using List.reverseRecOn with
  | nil =>
      exact ⟨⟨[], ⟨[], nofun, rfl⟩, aggregateRules_nil.symm⟩,
        fun url here text held => .inr ⟨rfl, held⟩⟩
  | append_singleton rounds loads ih =>
      obtain ⟨before, last⟩ := List.forall_mem_append.mp complete
      obtain ⟨⟨allResults, own, rules⟩, cache⟩ := ih before
      have all := last loads List.mem_cons_self
      have configured : ∀ load ∈ loads, load.source ∈ task.sources := by
        intro load mem
        rw [← all]
        exact List.mem_map_of_mem mem
      obtain ⟨found, cached⟩ := loadSources_given apart configured cache
      rw [afterAll_snoc, after, List.flatten_concat]
      rcases refreshed : refreshFilterLists task.isSelector task.cacheDir loads
        (task.afterAll disk rounds).disk with ⟨error | newRules, next⟩
      · cases congrArg Prod.snd refreshed
        exact ⟨⟨allResults, own.mono loads, rules⟩, cached⟩
      · cases congrArg Prod.snd refreshed
        exact ⟨⟨_, found, rules_of_refreshFilterLists (congrArg Prod.fst refreshed)⟩, cached⟩

end Own

end RefreshTask

end FilterList

/-! ## Both tasks -/

namespace PolicyTasks

variable (tasks : PolicyTasks)

/-- The reload task without the rules, which it does not touch. -/
def policyView : Machine.View PolicyTasksState PolicyTasksEvent PolicyTasksOutput
    ReloadState ReloadEvent ReloadLog where
  state s := ⟨{ cfg := s.engine.cfg }, s.lastMtime⟩
  event
    | .policy event => some event
    | .lists _ => none
  output
    | .policy log => some log
    | .lists _ => none

def listsView : Machine.View PolicyTasksState PolicyTasksEvent PolicyTasksOutput
    FilterList.RefreshState FilterList.RefreshEvent FilterList.RefreshEffect where
  state := PolicyTasksState.lists
  event
    | .policy _ => none
    | .lists event => some event
  output
    | .policy _ => none
    | .lists effect => some effect

section Parts

variable {tasks} {s t : PolicyTasksState} {now : List PolicyTasksOutput}

theorem embed_running {σ ω : Type} {output : ω → PolicyTasksOutput} {state : σ → PolicyTasksState}
    {reaction : Reaction σ ω Empty} (reacts : embed output state reaction = ⟨now, .running t⟩) :
    ∃ own next, reaction = ⟨own, .running next⟩ ∧ now = own.map output ∧ t = state next := by
  obtain ⟨own, status⟩ := reaction
  cases status with
  | running next =>
      cases reacts
      exact ⟨own, next, rfl, rfl, rfl⟩
  | halted verdict => cases verdict

/-- The reload task does the same whatever the rules are, and keeps them. -/
theorem reload_react (task : ReloadTask) (engine : PolicyEngine) (lastMtime : Option Nat)
    (event : ReloadEvent) :
    ∃ logs cfg mtime, task.reload.react ⟨engine, lastMtime⟩ event =
        ⟨logs, .running ⟨{ engine with cfg }, mtime⟩⟩ ∧
      task.reload.react ⟨{ cfg := engine.cfg }, lastMtime⟩ event =
        ⟨logs, .running ⟨{ cfg }, mtime⟩⟩ := by
  cases event with
  | taskFails error => exact ⟨_, engine.cfg, lastMtime, rfl, rfl⟩
  | tick file =>
      simp only [ReloadTask.reload, ReloadTask.onTick]
      rcases task.checkFile lastMtime file with error | ⟨mtime, cfg | cfg⟩
      · exact ⟨_, engine.cfg, lastMtime, rfl, rfl⟩
      · exact ⟨_, engine.cfg, mtime, rfl, rfl⟩
      · exact ⟨_, cfg, mtime, rfl, rfl⟩

theorem policy_part : tasks.service.Part tasks.policy.reload policyView where
  polls _ _ := rfl
  reacts {s t event own now} belongs _ reacts := by
    cases event with
    | lists event => cases belongs
    | policy event =>
        obtain rfl := Option.some.inj belongs
        obtain ⟨logs, next, embedded, rfl, rfl⟩ := embed_running reacts
        obtain ⟨logs', cfg, mtime, whole, alone⟩ :=
          reload_react tasks.policy s.engine s.lastMtime event
        cases embedded.symm.trans whole
        refine alone.trans ?_
        rw [List.filterMap_map]
        exact congrArg (Reaction.mk · _) (List.filterMap_some ..).symm
  silent {s t event now} other _ reacts := by
    cases event with
    | policy event => cases other
    | lists event =>
        obtain ⟨effects, next, -, rfl, rfl⟩ := embed_running reacts
        refine ⟨rfl, ?_⟩
        rw [List.filterMap_map]
        exact List.filterMap_eq_nil_iff.mpr fun _ _ => rfl

theorem lists_part : tasks.service.Part tasks.lists.refresh listsView where
  polls {s event own} belongs polled := by
    cases event with
    | policy event => cases belongs
    | lists event =>
        obtain rfl := Option.some.inj belongs
        exact polled
  reacts {s t event own now} belongs _ reacts := by
    cases event with
    | policy event => cases belongs
    | lists event =>
        obtain rfl := Option.some.inj belongs
        obtain ⟨effects, next, embedded, rfl, rfl⟩ := embed_running reacts
        refine embedded.trans ?_
        rw [List.filterMap_map]
        exact congrArg (Reaction.mk · _) (List.filterMap_some ..).symm
  silent {s t event now} other _ reacts := by
    cases event with
    | lists event => cases other
    | policy event =>
        obtain ⟨logs, next, embedded, rfl, rfl⟩ := embed_running reacts
        obtain ⟨logs', cfg, mtime, whole, -⟩ :=
          reload_react tasks.policy s.engine s.lastMtime event
        cases embedded.symm.trans whole
        refine ⟨rfl, ?_⟩
        rw [List.filterMap_map]
        exact List.filterMap_eq_nil_iff.mpr fun _ _ => rfl

end Parts

/-- The reload events among the events of both tasks. -/
def policyEvents (events : List PolicyTasksEvent) : List ReloadEvent :=
  events.filterMap policyView.event

/-- The loads of filter lists among them. -/
def loads (events : List PolicyTasksEvent) : List FilterList.SourceLoad :=
  (events.filterMap listsView.event).filterMap FilterList.RefreshEvent.load?

def listEffects (outputs : List PolicyTasksOutput) : List FilterList.RefreshEffect :=
  outputs.filterMap listsView.output

/-- However the two tasks interleave, and whatever fails, the configuration is that of the last good
policy file, the rules are those of the refreshes taken one at a time, and the metrics count the
refreshes, the failures and the active rules. -/
theorem engine_of_run {cfg : PolicyConfig} {disk : Disk} {events : List PolicyTasksEvent}
    {outputs : List PolicyTasksOutput} {s : PolicyTasksState}
    (tells : tasks.policy.MtimeTells (policyEvents events))
    (execution : tasks.service.Run { engine := { cfg }, disk } events outputs (.running s)) :
    ∃ rounds current, rounds.flatten ++ current = loads events ∧
      (∀ round ∈ rounds, round.map FilterList.SourceLoad.source = tasks.lists.sources) ∧
      s.engine = ⟨tasks.policy.lastGood cfg (policyEvents events),
        (tasks.lists.afterAll disk rounds).rules⟩ ∧
      (listEffects outputs).count .incFilterListRefreshTotal =
        rounds.length + s.phase.begun ∧
      (listEffects outputs).count .incFilterListRefreshFailedTotal =
        (tasks.lists.afterAll disk rounds).failures ∧
      FilterList.rulesActive (listEffects outputs) =
        FilterList.activeCount s.engine.filterListRules := by
  have knows := ReloadTask.Knows.of_run tells (execution.part policy_part)
  obtain ⟨rounds, current, all, progress⟩ :=
    FilterList.RefreshTask.progress_of_run (execution.part lists_part)
  refine ⟨rounds, current, all, progress.complete, ?_, progress.total, progress.failed,
    progress.active⟩
  have cfg_eq : s.engine.cfg = _ := knows.cfg_eq
  have rules_eq : s.engine.filterListRules = _ := progress.rules
  rw [← cfg_eq, ← rules_eq]

/-- If no file of the cache serves two URLs, the engine blocks at every moment what the last good
policy file says and what the lists of the configured sources say: lists that were read or
downloaded for the source itself, or cached for it at the beginning.  Writes to the cache may fail
in any way. -/
theorem engine_has_own_lists {cfg : PolicyConfig} {disk : Disk} {events : List PolicyTasksEvent}
    {outputs : List PolicyTasksOutput} {s : PolicyTasksState}
    (apart : FilterList.Apart tasks.lists.urls)
    (tells : tasks.policy.MtimeTells (policyEvents events))
    (execution : tasks.service.Run { engine := { cfg }, disk } events outputs (.running s)) :
    ∃ texts : List (FilterList.FilterListSource × Str),
      (∀ entry ∈ texts, entry.1 ∈ tasks.lists.sources ∧
        tasks.lists.Given disk (loads events) entry.1 entry.2) ∧
      s.engine = PolicyEngine.withLists { cfg := tasks.policy.lastGood cfg (policyEvents events) }
        tasks.lists.isSelector (texts.map Prod.snd) := by
  obtain ⟨rounds, current, all, complete, engine, -⟩ := tasks.engine_of_run tells execution
  have sequential : (∃ allResults, tasks.lists.ResultsOwn disk rounds.flatten allResults ∧
      (tasks.lists.afterAll disk rounds).rules = FilterList.aggregateRules allResults) ∧ _ :=
    FilterList.RefreshTask.afterAll_given apart complete
  obtain ⟨⟨allResults, ⟨texts, given, rfl⟩, rules⟩, -⟩ := sequential
  refine ⟨texts, fun entry mem => ?_, ?_⟩
  · rw [← all]
    exact ⟨(given entry mem).1, (given entry mem).2.mono current⟩
  · rw [engine, rules, PolicyEngine.withLists, List.map_map]
    rfl

/-! ### Two sources and a new policy -/

def sampleFile : FilterList.FilterListSource := ⟨ascii "lists/own.txt", .localFile⟩

def sampleUrl : FilterList.FilterListSource := ⟨ascii "https://lists.example/ads.txt", .url⟩

/-- A file and a URL, refreshed in intervals. -/
def sampleTasks : PolicyTasks where
  policy := ReloadTask.sampleTask
  lists :=
    { isSelector := fun _ => true
      cacheDir := [ascii "cache"]
      sources := [sampleFile, sampleUrl]
      repeats := true }

def unreachable : IoError := ⟨.other, ascii "Network is unreachable (os error 101)"⟩

def sampleLoad (source : FilterList.FilterListSource) (content : Except IoError Str) :
    FilterList.SourceLoad := ⟨source, content, content, .smooth⟩

/-- The policy changes while the first refresh loads its sources, and the network fails in the
second one. -/
def sampleEvents : List PolicyTasksEvent :=
  [.lists .start, .lists (.loaded (sampleLoad sampleFile (.ok (ascii "||a.example^")))),
    .policy (.tick (ReloadTask.samplePolicyFile 2
      (ReloadTask.samplePolicyText (ascii "disabled")))),
    .lists (.loaded (sampleLoad sampleUrl (.ok (ascii "||b.example^")))), .lists .tick,
    .lists (.loaded (sampleLoad sampleFile (.ok (ascii "||c.example^")))),
    .lists (.loaded (sampleLoad sampleUrl (.error unreachable)))]

/-- What is observed of the engine. -/
def observed (reaction : Reaction PolicyTasksState PolicyTasksOutput Empty) :
    Option (PolicyMode × List Str) :=
  reaction.status.state?.map fun s =>
    (s.engine.cfg.mode, s.engine.filterListRules.blockDomains)

theorem sampleEvents_run :
    ∃ outputs s, sampleTasks.service.Run
        { engine := { cfg := ReloadTask.sampleEngine.cfg }, disk := fun _ => none } sampleEvents
        outputs (.running s) ∧
      s.engine.cfg.mode = .disabled ∧
      s.engine.filterListRules.blockDomains = [ascii "b.example", ascii "c.example"] := by
  have executes : (sampleTasks.service.run
      { engine := { cfg := ReloadTask.sampleEngine.cfg }, disk := fun _ => none }
      sampleEvents).map observed =
        some (some (.disabled, [ascii "b.example", ascii "c.example"])) := by
    decide +kernel
  obtain ⟨outputs, status, execution, shown⟩ := Machine.exists_run _ _ _ _ executes
  obtain ⟨s, goes_on, same⟩ := Option.map_eq_some_iff.mp shown
  obtain rfl := Status.eq_running goes_on
  obtain ⟨mode, domains⟩ := Prod.mk.inj same
  exact ⟨outputs, s, execution, mode, domains⟩

theorem sampleEvents_tell : sampleTasks.policy.MtimeTells (policyEvents sampleEvents) :=
  .of_unloaded (by decide +kernel)

/-- The metrics behind the two refreshes. -/
theorem sampleEvents_engine :
    ∃ outputs s, sampleTasks.service.Run
        { engine := { cfg := ReloadTask.sampleEngine.cfg }, disk := fun _ => none } sampleEvents
        outputs (.running s) ∧
      FilterList.rulesActive (listEffects outputs) =
        FilterList.activeCount s.engine.filterListRules := by
  obtain ⟨outputs, s, execution, -⟩ := sampleEvents_run
  obtain ⟨rounds, current, -, -, -, -, -, active⟩ :=
    sampleTasks.engine_of_run sampleEvents_tell execution
  exact ⟨outputs, s, execution, active⟩

/-- The second refresh falls back to the list that the first one has cached for the URL. -/
theorem sampleEvents_own_lists :
    ∃ outputs s, sampleTasks.service.Run
        { engine := { cfg := ReloadTask.sampleEngine.cfg }, disk := fun _ => none } sampleEvents
        outputs (.running s) ∧
      s.engine.filterListRules.blockDomains = [ascii "b.example", ascii "c.example"] ∧
      ∃ texts : List (FilterList.FilterListSource × Str),
        (∀ entry ∈ texts, entry.1 ∈ sampleTasks.lists.sources ∧
          sampleTasks.lists.Given (fun _ => none) (loads sampleEvents) entry.1 entry.2) ∧
        s.engine = PolicyEngine.withLists
          { cfg := sampleTasks.policy.lastGood ReloadTask.sampleEngine.cfg
              (policyEvents sampleEvents) }
          sampleTasks.lists.isSelector (texts.map Prod.snd) := by
  obtain ⟨outputs, s, execution, -, domains⟩ := sampleEvents_run
  have only : ∀ url, sampleTasks.lists.urls url → url = sampleUrl.origin := by
    intro url configured
    rcases List.mem_pair.mp configured with file | same
    · cases file
    · exact congrArg FilterList.FilterListSource.origin same
  have apart : FilterList.Apart sampleTasks.lists.urls := by
    refine ⟨fun url here => ?_, fun url other here there differ => ?_,
      fun url other here there => ?_⟩
    · rw [only url here]
      decide +kernel
    · exact absurd ((only url here).trans (only other there).symm) differ
    · rw [only url here, only other there]
      decide +kernel
  exact ⟨outputs, s, execution, domains,
    sampleTasks.engine_has_own_lists apart sampleEvents_tell execution⟩

end PolicyTasks

end PrivacyEngine
