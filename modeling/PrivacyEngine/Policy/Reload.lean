import PrivacyEngine.Reactive
import PrivacyEngine.Policy.Parse
import PrivacyEngine.Wire.JsonText

/-!
# Reloading the policy file

The reload task looks at the policy file on every tick.  It skips a file whose modification time is
that of the last load, and otherwise replaces the active configuration if the file can be read,
parsed and validated.  A tick that fails leaves everything as it is.
-/

namespace PrivacyEngine

open Wire Reactive

structure PolicyConfigSummary where
  version : Nat
  mode : PolicyMode
  trackerRuleEnabled : Bool
  trackerDomainCount : Nat
  dnsBlockEnabled : Bool
  dnsBlockDomainCount : Nat
  consentEnforcementEnabled : Bool
  consentDefaultConsent : Str
  consentAnalyticsDomainCount : Nat
  consentUserProfileCount : Nat
  deriving DecidableEq

def PolicyConfig.describeForLogs (cfg : PolicyConfig) : PolicyConfigSummary where
  version := cfg.version
  mode := cfg.mode
  trackerRuleEnabled := cfg.trackerSetCookie.enabled && cfg.mode != .disabled
  trackerDomainCount := cfg.trackerSetCookie.domains.length
  dnsBlockEnabled := cfg.dnsBlock.enabled && cfg.mode != .disabled
  dnsBlockDomainCount := cfg.dnsBlock.domains.length
  consentEnforcementEnabled := cfg.consentEnforcement.enabled && cfg.mode != .disabled
  consentDefaultConsent :=
    if cfg.consentEnforcement.enabled then cfg.consentEnforcement.defaultConsent.asStr
    else ascii "disabled"
  consentAnalyticsDomainCount := cfg.consentEnforcement.analyticsDomains.length
  consentUserProfileCount := cfg.consentEnforcement.userProfiles.length

/-- What the task finds at its path during one tick: the modification time, where the platform
knows one, and the content. -/
structure PolicyFile where
  metadata : Except IoError (Option Nat)
  read : Except IoError Bytes

structure ReloadState where
  engine : PolicyEngine
  lastMtime : Option Nat := none
  deriving DecidableEq

inductive ReloadEvent where
  | tick (file : PolicyFile)
  | taskFails (error : Str)

inductive ReloadLog where
  | policyReloadApplied (summary : PolicyConfigSummary)
  | policyReloadFailed (error : IoError)
  | policyReloadTaskFailed (error : Str)
  deriving DecidableEq

/-- The libraries behind a load and the mode given on the command line. -/
structure ReloadTask where
  serde : Serde
  selectorParses : Str → Bool
  modeOverride : Option PolicyMode

namespace ReloadTask

variable (task : ReloadTask)

/-- A configuration with the mode given on the command line. -/
def overridden (cfg : PolicyConfig) : PolicyConfig :=
  match task.modeOverride with
  | some mode => { cfg with mode }
  | none => cfg

/-- The configuration that a content stands for. -/
def configOf (content : Bytes) : Except IoError PolicyConfig := do
  let raw ← readToString content
  let parsed ← (task.serde.fromStr raw).mapError fun error =>
    invalidData (ascii "invalid policy config JSON: " ++ error)
  let cfg ← PolicyConfig.fromJsonValue task.selectorParses parsed
  (task.overridden cfg).validate task.selectorParses
  return task.overridden cfg

def loadPolicyConfigFromFile (file : PolicyFile) : Except IoError PolicyConfig := do
  let content ← file.read
  task.configOf content

/-- The engine at start-up. -/
def loadFromFile (file : PolicyFile) : Except IoError PolicyEngine := do
  let cfg ← task.loadPolicyConfigFromFile file
  return { cfg, filterListRules := {} }

/-- The blocking part of a tick: the modification time to remember and the configuration to
install, if there is a new one. -/
def checkFile (lastMtime : Option Nat) (file : PolicyFile) :
    Except IoError (Option Nat × Option PolicyConfig) := do
  let mtime ← file.metadata
  if mtime.isSome && mtime == lastMtime then return (lastMtime, none)
  else
    let cfg ← task.loadPolicyConfigFromFile file
    return (mtime, some cfg)

def onTick (s : ReloadState) (file : PolicyFile) : Reaction ReloadState ReloadLog Empty :=
  match task.checkFile s.lastMtime file with
  | .ok (mtime, some cfg) =>
      ⟨[.policyReloadApplied cfg.describeForLogs],
        .running { engine := { s.engine with cfg }, lastMtime := mtime }⟩
  | .ok (mtime, none) => ⟨[], .running { s with lastMtime := mtime }⟩
  | .error error => ⟨[.policyReloadFailed error], .running s⟩

def reload : Machine ReloadState ReloadEvent ReloadLog Empty where
  polls _ _ := true
  react s
    | .tick file => task.onTick s file
    | .taskFails error => ⟨[.policyReloadTaskFailed error], .running s⟩

/-- The configuration that the file passes with, if it does. -/
def passes (file : PolicyFile) : Option PolicyConfig :=
  match file.metadata, task.loadPolicyConfigFromFile file with
  | .ok _, .ok cfg => some cfg
  | _, _ => none

/-- The configuration that is good after an event, given the one that was before. -/
def goodAfter (cfg : PolicyConfig) : ReloadEvent → PolicyConfig
  | .tick file => (task.passes file).getD cfg
  | .taskFails _ => cfg

/-- The configuration of the most recent tick that passed, or the initial one. -/
def lastGood (initial : PolicyConfig) (events : List ReloadEvent) : PolicyConfig :=
  events.foldl task.goodAfter initial

/-- The load that is the last one after an event, given the one that was before. -/
def loadAfter (load : Option (Bytes × Option Nat)) : ReloadEvent → Option (Bytes × Option Nat)
  | .tick file =>
      match task.passes file, file.metadata, file.read with
      | some _, .ok mtime, .ok content => some (content, mtime)
      | _, _, _ => load
  | .taskFails _ => load

/-- Content and modification time of the most recent tick that passed. -/
def lastLoad (events : List ReloadEvent) : Option (Bytes × Option Nat) :=
  events.foldl task.loadAfter none

/-- A file with the modification time of the last load has its content. -/
def MtimeTells (events : List ReloadEvent) : Prop :=
  ∀ before file later, events = before ++ .tick file :: later →
    ∀ content mtime found, task.lastLoad before = some (content, some mtime) →
      file.metadata = .ok (some mtime) → file.read = .ok found → found = content

/-! ## One load -/

variable {task}

theorem overridden_mode {mode : PolicyMode} (given : task.modeOverride = some mode)
    (cfg : PolicyConfig) : (task.overridden cfg).mode = mode := by
  simp [overridden, given]

/-- A load ends in a validated configuration with the mode given on the command line. -/
theorem configOf_eq_ok {content : Bytes} {cfg : PolicyConfig}
    (loaded : task.configOf content = .ok cfg) :
    cfg.validate task.selectorParses = .ok () ∧
      ∀ mode, task.modeOverride = some mode → cfg.mode = mode := by
  simp only [configOf, bind_eq_ok_iff, mapError_eq_ok_iff, pure_eq_ok_iff] at loaded
  obtain ⟨-, -, -, -, parsed, -, ⟨⟩, valid, rfl⟩ := loaded
  exact ⟨valid, fun mode given => overridden_mode given parsed⟩

theorem passes_eq_some_iff {file : PolicyFile} {cfg : PolicyConfig} :
    task.passes file = some cfg ↔
      ∃ mtime content, file.metadata = .ok mtime ∧ file.read = .ok content ∧
        task.configOf content = .ok cfg := by
  unfold passes loadPolicyConfigFromFile
  cases file.metadata <;> cases file.read <;> simp [bind, Except.bind]
  rename_i content
  cases task.configOf content <;> simp

/-- What one look at the file comes to. -/
theorem checkFile_cases (lastMtime : Option Nat) (file : PolicyFile) :
    (∃ mtime, file.metadata = .ok (some mtime) ∧ lastMtime = some mtime ∧
      task.checkFile lastMtime file = .ok (lastMtime, none)) ∨
    (∃ mtime content cfg, file.metadata = .ok mtime ∧ file.read = .ok content ∧
      task.configOf content = .ok cfg ∧ task.checkFile lastMtime file = .ok (mtime, some cfg)) ∨
    (∃ error, task.checkFile lastMtime file = .error error ∧ task.passes file = none) := by
  unfold checkFile passes loadPolicyConfigFromFile
  cases found : file.metadata with
  | error error => exact .inr (.inr ⟨error, by simp [bind, Except.bind]⟩)
  | ok mtime =>
      by_cases unchanged : mtime.isSome && mtime == lastMtime
      · obtain ⟨known, same⟩ : mtime.isSome ∧ mtime = lastMtime := by simpa using unchanged
        obtain ⟨time, rfl⟩ := Option.isSome_iff_exists.mp known
        exact .inl ⟨time, rfl, same.symm, by simp [← same, bind, Except.bind, pure, Except.pure]⟩
      · cases reads : file.read with
        | error error =>
            exact .inr (.inr ⟨error, by simp [unchanged, bind, Except.bind]⟩)
        | ok content =>
            cases loads : task.configOf content with
            | error error =>
                exact .inr (.inr ⟨error, by simp [unchanged, loads, bind, Except.bind]⟩)
            | ok cfg =>
                exact .inr (.inl ⟨mtime, content, cfg, rfl, rfl, loads, by
                  simp [unchanged, loads, bind, Except.bind, pure, Except.pure]⟩)

/-! ## Whole runs -/

theorem lastGood_snoc (initial : PolicyConfig) (events : List ReloadEvent) (event : ReloadEvent) :
    task.lastGood initial (events ++ [event]) =
      task.goodAfter (task.lastGood initial events) event := by
  simp [lastGood]

theorem lastLoad_snoc (events : List ReloadEvent) (event : ReloadEvent) :
    task.lastLoad (events ++ [event]) = task.loadAfter (task.lastLoad events) event := by
  simp [lastLoad]

theorem loadAfter_tick {load : Option (Bytes × Option Nat)} {file : PolicyFile} {mtime : Option Nat}
    {content : Bytes} {cfg : PolicyConfig} (found : file.metadata = .ok mtime)
    (reads : file.read = .ok content) (loads : task.configOf content = .ok cfg) :
    task.loadAfter load (.tick file) = some (content, mtime) := by
  have passed : task.passes file = some cfg :=
    passes_eq_some_iff.mpr ⟨mtime, content, found, reads, loads⟩
  simp [loadAfter, passed, found, reads]

theorem loadAfter_of_fails {load : Option (Bytes × Option Nat)} {file : PolicyFile}
    (fails : task.passes file = none) : task.loadAfter load (.tick file) = load := by
  simp [loadAfter, fails]

theorem MtimeTells.front {events more : List ReloadEvent}
    (tells : task.MtimeTells (events ++ more)) :
    task.MtimeTells events := by
  rintro before file later rfl
  exact tells before file (later ++ more) (by simp)

/-- What the task knows after handling events: the active configuration is the last good one, and a
remembered modification time belongs to the content behind it. -/
structure Knows (initial : PolicyConfig) (events : List ReloadEvent) (s : ReloadState) : Prop where
  cfg_eq : s.engine.cfg = task.lastGood initial events
  loaded : ∀ mtime, s.lastMtime = some mtime →
    ∃ content, task.lastLoad events = some (content, some mtime) ∧
      task.configOf content = .ok s.engine.cfg

/-- A tick that finds no passing file changes nothing. -/
theorem onTick_of_fails (s : ReloadState) {file : PolicyFile} (fails : task.passes file = none) :
    (task.onTick s file).status = .running s := by
  unfold onTick
  obtain ⟨mtime, -, -, checked⟩ | ⟨mtime, content, cfg, found, reads, loads, -⟩ |
    ⟨error, checked, -⟩ := task.checkFile_cases s.lastMtime file
  · rw [checked]
  · have passed := passes_eq_some_iff.mpr ⟨mtime, content, found, reads, loads⟩
    rw [fails] at passed
    cases passed
  · rw [checked]

theorem Knows.tick {initial : PolicyConfig} {events : List ReloadEvent} {s next : ReloadState}
    {file : PolicyFile} {logs : List ReloadLog} (knows : task.Knows initial events s)
    (tells : task.MtimeTells (events ++ [.tick file]))
    (reacts : task.onTick s file = ⟨logs, .running next⟩) :
    task.Knows initial (events ++ [.tick file]) next := by
  rcases passed : task.passes file with - | cfg
  · -- Nothing to install: state, last good configuration and last load stay.
    have same := onTick_of_fails s passed
    rw [reacts] at same
    obtain rfl : next = s := by injection same
    exact
      { cfg_eq := by rw [lastGood_snoc, goodAfter, passed, Option.getD_none, knows.cfg_eq]
        loaded := by simpa only [lastLoad_snoc, loadAfter_of_fails passed] using knows.loaded }
  · obtain ⟨mtime, content, found, reads, loads⟩ := passes_eq_some_iff.mp passed
    have good : task.lastGood initial (events ++ [.tick file]) = cfg := by
      rw [lastGood_snoc, goodAfter, passed, Option.getD_some]
    have load : task.lastLoad (events ++ [.tick file]) = some (content, mtime) := by
      rw [lastLoad_snoc, loadAfter_tick found reads loads]
    unfold onTick at reacts
    obtain ⟨time, found', known, checked⟩ |
      ⟨mtime', content', cfg', found', reads', loads', checked⟩ | ⟨error, -, fails⟩ :=
      task.checkFile_cases s.lastMtime file
    · -- The file is skipped: it has the content of the last load, hence its configuration.
      obtain rfl : mtime = some time := by simpa [found] using found'
      obtain ⟨loadedContent, last, active⟩ := knows.loaded time known
      obtain rfl := tells events file [] rfl loadedContent time content last found reads
      have same : cfg = s.engine.cfg := by simpa [loads] using active
      simp only [checked] at reacts
      obtain rfl : next = s := by
        injection reacts with _ status
        injection status with same
        exact same.symm
      exact
        { cfg_eq := by rw [good, same]
          loaded := fun m h => ⟨content, by rw [load, ← known, h], active⟩ }
    · obtain rfl : mtime' = mtime := by simpa [found] using found'.symm
      obtain rfl : content' = content := by simpa [reads] using reads'.symm
      obtain rfl : cfg' = cfg := by simpa [loads] using loads'.symm
      simp only [checked] at reacts
      obtain rfl : next = { engine := { s.engine with cfg := cfg' }, lastMtime := mtime' } := by
        injection reacts with _ status
        injection status with same
        exact same.symm
      exact
        { cfg_eq := good.symm
          loaded := fun m h => ⟨content', by rw [load]; exact congrArg _ (congrArg _ h), loads⟩ }
    · rw [passed] at fails
      cases fails

theorem Knows.of_run {engine : PolicyEngine} {events : List ReloadEvent} {logs : List ReloadLog}
    {final : ReloadState} (tells : task.MtimeTells events)
    (execution : task.reload.Run { engine } events logs (.running final)) :
    task.Knows engine.cfg events final := by
  refine execution.history
    (fun events _ s => task.MtimeTells events → task.Knows engine.cfg events s) ?_ ?_ tells
  · intro _
    exact { cfg_eq := rfl, loaded := by rintro mtime ⟨⟩ }
  · intro events logs s event now next _ ih _ reacts tells
    have knows := ih tells.front
    cases event with
    | tick file => exact knows.tick tells reacts
    | taskFails error =>
        injection reacts with _ status
        injection status with same
        subst same
        exact
          { cfg_eq := by rw [lastGood_snoc]; exact knows.cfg_eq
            loaded := by rw [lastLoad_snoc]; exact knows.loaded }

variable (task)

/-- Events that find no passing file. -/
def Fails : ReloadEvent → Prop
  | .tick file => task.passes file = none
  | .taskFails _ => True

/-- What holds of the active configuration after handling events. -/
structure KeepsLastGood (initial : PolicyConfig) (events : List ReloadEvent) (s : ReloadState) :
    Prop where
  cfg_eq : s.engine.cfg = task.lastGood initial events
  mode_eq : ∀ mode, task.modeOverride = some mode → s.engine.cfg.mode = mode
  valid : s.engine.cfg.validate task.selectorParses = .ok ()
  /-- A failing event changes nothing. -/
  unchanged : ∀ event, task.Fails event → (task.reload.react s event).status = .running s
  /-- Behind any number of failing events, the next passing file is picked up. -/
  picked_up : ∀ broken file cfg, (∀ event ∈ broken, task.Fails event) →
    task.passes file = some cfg → task.MtimeTells (events ++ (broken ++ [.tick file])) →
    ∀ logs status, task.reload.Run s (broken ++ [.tick file]) logs status →
      ∃ next, status = .running next ∧ next.engine.cfg = cfg

variable {task}

theorem reload_running {s : ReloadState} {events : List ReloadEvent} {logs : List ReloadLog}
    {status : Status ReloadState Empty} (_ : task.reload.Run s events logs status) :
    ∃ final, status = .running final := by
  cases status with
  | running final => exact ⟨final, rfl⟩
  | halted verdict => cases verdict

theorem react_of_fails (s : ReloadState) {event : ReloadEvent} (fails : task.Fails event) :
    (task.reload.react s event).status = .running s := by
  cases event with
  | tick file => exact onTick_of_fails s fails
  | taskFails error => rfl

/-- The last good configuration is validated and has the mode given on the command line. -/
theorem lastGood_valid {initial : PolicyConfig} {content : Bytes}
    (loaded : task.configOf content = .ok initial) (events : List ReloadEvent) :
    ∃ content, task.configOf content = .ok (task.lastGood initial events) := by
  induction events using List.reverseRecOn with
  | nil => exact ⟨content, loaded⟩
  | append_singleton events event ih =>
      rw [lastGood_snoc]
      cases event with
      | taskFails error => exact ih
      | tick file =>
          rw [goodAfter]
          rcases passed : task.passes file with - | cfg
          · exact ih
          · obtain ⟨-, content, -, -, loads⟩ := passes_eq_some_iff.mp passed
            exact ⟨content, loads⟩

/-- The initial configuration is that of some content. -/
theorem configOf_of_loadFromFile {file : PolicyFile} {engine : PolicyEngine}
    (starts : task.loadFromFile file = .ok engine) :
    ∃ content, task.configOf content = .ok engine.cfg := by
  simp only [loadFromFile, loadPolicyConfigFromFile, bind_eq_ok_iff, pure_eq_ok_iff] at starts
  obtain ⟨cfg, ⟨content, -, loads⟩, rfl⟩ := starts
  exact ⟨content, loads⟩

/-- The reload task keeps the last good configuration. -/
theorem reload_keeps_last_good (task : ReloadTask) {file : PolicyFile} {engine : PolicyEngine}
    {events : List ReloadEvent} {logs : List ReloadLog} {status : Status ReloadState Empty}
    (starts : task.loadFromFile file = .ok engine) (tells : task.MtimeTells events)
    (execution : task.reload.Run { engine } events logs status) :
    ∃ s, status = .running s ∧ task.KeepsLastGood engine.cfg events s := by
  obtain ⟨s, rfl⟩ := reload_running execution
  have knows := Knows.of_run tells execution
  obtain ⟨initialContent, loaded⟩ := configOf_of_loadFromFile starts
  obtain ⟨content, good⟩ := lastGood_valid loaded events
  rw [← knows.cfg_eq] at good
  obtain ⟨valid, mode_eq⟩ := configOf_eq_ok good
  refine ⟨s, rfl, knows.cfg_eq, mode_eq, valid, fun event => react_of_fails s, ?_⟩
  intro broken next cfg fails passed tells logs status later
  obtain ⟨final, rfl⟩ := reload_running later
  have cfg_eq := (Knows.of_run tells (execution.append later)).cfg_eq
  refine ⟨final, rfl, ?_⟩
  rw [cfg_eq, ← List.append_assoc, lastGood_snoc, goodAfter, passed, Option.getD_some]

/-- One more look at the file tells when the load before it was of the same content. -/
theorem MtimeTells.tick {events : List ReloadEvent} {file : PolicyFile}
    (tells : task.MtimeTells events)
    (same : ∀ content mtime found, task.lastLoad events = some (content, some mtime) →
      file.metadata = .ok (some mtime) → file.read = .ok found → found = content) :
    task.MtimeTells (events ++ [.tick file]) := by
  intro before other later split
  rcases List.eq_nil_or_concat later with rfl | ⟨later, last, rfl⟩
  · obtain ⟨rfl, here⟩ := List.append_inj' split rfl
    cases here
    exact same
  · rw [List.concat_eq_append, ← List.cons_append, ← List.append_assoc] at split
    exact tells before other later (List.append_inj' split rfl).1

/-! ### A broken file and its repair -/

theorem MtimeTells.of_unloaded {events : List ReloadEvent}
    (unloaded : ∀ count < events.length, task.lastLoad (events.take count) = none) :
    task.MtimeTells events := by
  rintro before file later rfl content mtime found last - -
  have none := unloaded before.length (by simp)
  rw [List.take_left, last] at none
  cases none

def samplePolicy (mode : Str) : Json :=
  .object
    [(ascii "mode", .string mode),
      (ascii "rules", .object
        [(ascii "tracker_set_cookie", .object
          [(ascii "domains", .array []), (ascii "enabled", .bool false)])]),
      (ascii "version", .number (.posInt 1))]

def samplePolicyText (mode : Str) : Str := (samplePolicy mode).pretty 0

def samplePolicies : JsonTexts :=
  .checked [samplePolicy (ascii "enforce"), samplePolicy (ascii "disabled")]
    (by decide +kernel) (by decide +kernel) (by decide +kernel) (by decide +kernel)

def sampleTask : ReloadTask where
  serde := samplePolicies.serde
  selectorParses _ := true
  modeOverride := none

def samplePolicyFile (mtime : Nat) (content : Str) : PolicyFile where
  metadata := .ok (some mtime)
  read := .ok content

def sampleRepair : PolicyFile := samplePolicyFile 2 (samplePolicyText (ascii "disabled"))

/-- A truncated file, then a missing one, then a new valid one. -/
def sampleBreak : List ReloadEvent :=
  [.tick (samplePolicyFile 1 (ascii "\x7b\n  \"mode\"")),
    .tick ⟨.error ⟨.notFound, ascii "No such file or directory"⟩,
      .error ⟨.notFound, ascii "No such file or directory"⟩⟩,
    .tick sampleRepair]

/-- The valid file is skipped on the next look at it. -/
def sampleTicks : List ReloadEvent := sampleBreak ++ [.tick sampleRepair]

def sampleEngine : PolicyEngine where
  cfg :=
    { version := 1
      mode := .enforce
      trackerSetCookie := { enabled := false, domains := [] }
      dnsBlock := {}
      bodyRewrite := {}
      consentEnforcement := {}
      websocketBlockingEnabled := true }

theorem reload_recovers :
    ∃ logs status, sampleTask.reload.Run { engine := sampleEngine } sampleTicks logs status ∧
      ∃ s, status = .running s ∧ s.engine.cfg.mode = .disabled ∧
        sampleTask.KeepsLastGood sampleEngine.cfg sampleTicks s := by
  have starts :
      sampleTask.loadFromFile (samplePolicyFile 0 (samplePolicyText (ascii "enforce"))) =
        .ok sampleEngine := by
    decide +kernel
  have executes :
      (sampleTask.reload.run { engine := sampleEngine } sampleTicks).map
        (fun reaction => reaction.status.state?.map fun s => s.engine.cfg.mode) =
      some (some .disabled) := by
    decide +kernel
  have loaded : sampleTask.lastLoad sampleBreak =
      some (samplePolicyText (ascii "disabled"), some 2) := by
    decide +kernel
  have tells : sampleTask.MtimeTells sampleTicks := by
    apply MtimeTells.tick (.of_unloaded (by decide +kernel))
    intro content mtime found load _ reads
    cases load.symm.trans loaded
    exact (Except.ok.inj reads).symm
  obtain ⟨logs, status, execution, reached⟩ := Machine.exists_run _ _ _ _ executes
  obtain ⟨s, rfl, keeps⟩ := reload_keeps_last_good sampleTask starts tells execution
  exact ⟨logs, _, execution, s, rfl, by simpa [Status.state?] using reached, keeps⟩

end ReloadTask

end PrivacyEngine
