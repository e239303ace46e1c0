import PrivacyEngine.Mitm.Tunnel
import PrivacyEngine.Shared
import PrivacyEngine.Store.Persist

/-!
# Certificates of the client leg, under concurrent tunnels

`server_config_for_host` holds the lock of its cache while it looks a configuration up and while it
inserts one, and not in between: tunnels that look up the same host before one of them has inserted
each generate a certificate of their own.  Whatever the order of their turns, a tunnel is only ever
handed a certificate for the host it asked for that the log has been told of, whether or not a line
has been written, and none is generated any more for a host that a tunnel has been served for.  A
tunnel that takes its turns in a row does what the cache of `Mitm.Tunnel` says.
-/

namespace PrivacyEngine

open Wire Interaction Reactive

/-- A server configuration with the certificate behind it. -/
structure LeafConfig (Cert : Type) extends ServerConfig where
  leaf : Cert

/-- What the log is told of a certificate. -/
structure CertLogEntry where
  host : Str
  serialHex : Str
  fingerprintSha256 : Str
  deriving DecidableEq

/-- What the log has been told, and what stands in its file: a line that cannot be written is
dropped without a word. -/
structure CertLog where
  told : List CertLogEntry := []
  lines : List CertLogEntry := []

def CertLog.record (log : CertLog) (entry : CertLogEntry) (written : Bool) : CertLog :=
  ⟨log.told ++ [entry], if written then log.lines ++ [entry] else log.lines⟩

inductive LeafOp (Cert : Type) where
  /-- Look a configuration up under the lock. -/
  | lookup (key : Str)
  /-- Make up the parameters and a key, and have the authority sign a certificate. -/
  | generate (host : Str)
  | record (entry : CertLogEntry)
  /-- Build the configuration of the server from a certificate. -/
  | build (config : LeafConfig Cert)
  /-- Insert a configuration under the lock. -/
  | insert (key : Str) (config : LeafConfig Cert)

variable {Cert : Type}

def LeafOp.Answer : LeafOp Cert → Type
  | lookup _ => Option (LeafConfig Cert)
  | generate _ => Except Str Cert
  | record _ => Unit
  | build _ => Except Str Unit
  | insert _ _ => Unit

abbrev LeafProgram (Cert : Type) : Type :=
  Program (LeafOp Cert) LeafOp.Answer (Except MitmError (LeafConfig Cert))

/-- What the surroundings of a turn decide. -/
structure LeafOutcomes (Cert : Type) where
  generated : Except Str Cert
  built : Except Str Unit
  /-- Whether the lock of the log is sound and the line can be written. -/
  written : Bool

/-- Cached configurations and the log. -/
structure LeafState (Cert : Type) where
  cache : StrMap (LeafConfig Cert) := ∅
  log : CertLog := {}

structure LeafEnv (Cert : Type) where
  certLog : Bool
  /-- The serial number as the log shows it. -/
  serialHex : Cert → Str
  fingerprint : Cert → Str

/-- What a tunnel asks for. -/
structure LeafTask where
  targetHost : Str
  forceHttp1 : Bool
  deriving DecidableEq

namespace LeafTask

def normalizedHost (task : LeafTask) : Str := toAsciiLowercase (trim task.targetHost)

def cacheKey (task : LeafTask) : Str := PrivacyEngine.cacheKey task.normalizedHost task.forceHttp1

def issuedConfig (task : LeafTask) : ServerConfig :=
  PrivacyEngine.issuedConfig task.normalizedHost task.forceHttp1

/-- Build a configuration from a certificate and cache it. -/
def configure (task : LeafTask) (leaf : Cert) : LeafProgram Cert :=
  .act (.build ⟨task.issuedConfig, leaf⟩) fun
    | .error reason => .done (.error (.certGeneration reason))
    | .ok () => .act (.insert task.cacheKey ⟨task.issuedConfig, leaf⟩) fun _ =>
        .done (.ok ⟨task.issuedConfig, leaf⟩)

end LeafTask

namespace LeafEnv

variable (env : LeafEnv Cert)

def entry (host : Str) (leaf : Cert) : CertLogEntry :=
  ⟨host, env.serialHex leaf, env.fingerprint leaf⟩

/-- Generate a certificate, tell the log of it and configure it. -/
def issue (task : LeafTask) : LeafProgram Cert :=
  .act (.generate task.normalizedHost) fun
    | .error reason => .done (.error (.certGeneration reason))
    | .ok leaf =>
        if env.certLog then
          .act (.record (env.entry task.normalizedHost leaf)) fun _ => task.configure leaf
        else task.configure leaf

def serverConfigForHost (task : LeafTask) : LeafProgram Cert :=
  if task.normalizedHost = [] then .done (.error (.certGeneration (ascii "empty target host")))
  else
    .act (.lookup task.cacheKey) fun
      | some config => .done (.ok config)
      | none => env.issue task

end LeafEnv

/-- The operations on the cache and the log. -/
def leafStore : Shared (LeafOp Cert) LeafOp.Answer (LeafState Cert) (LeafOutcomes Cert) where
  answer s outcomes
    | .lookup key => s.cache[key]?
    | .generate _ => outcomes.generated
    | .record _ => ()
    | .build _ => outcomes.built
    | .insert _ _ => ()
  after s outcomes
    | .record entry => { s with log := s.log.record entry outcomes.written }
    | .insert key config => { s with cache := s.cache.insert key config }
    | _ => s

abbrev LeafCrew (Cert : Type) : Type :=
  Crew (LeafOp Cert) LeafOp.Answer (Except MitmError (LeafConfig Cert)) LeafTask (LeafState Cert)

/-- All tunnels that ask for a configuration. -/
def LeafEnv.issuing (env : LeafEnv Cert) :
    Machine (LeafCrew Cert) (CrewEvent LeafTask (LeafOutcomes Cert)) Empty Empty :=
  leafStore.crew env.serverConfigForHost

namespace LeafEnv

variable {env : LeafEnv Cert} {s : LeafState Cert} {task : LeafTask}

/-! ## What a tunnel may do -/

/-- A configuration is cached under its key and for its key, and the log has been told of its
certificate. -/
structure Kept (env : LeafEnv Cert) (s : LeafState Cert) (key : Str) (config : LeafConfig Cert) :
    Prop where
  cached : (s.cache[key]?).isSome = true
  issued : ∃ task : LeafTask, key = task.cacheKey ∧ config.toServerConfig = task.issuedConfig ∧
    (env.certLog = true → env.entry task.normalizedHost config.leaf ∈ s.log.told)

/-- The log is told of certificates that have been generated, and what is inserted stands under its
key and has been told to the log. -/
def Allows (env : LeafEnv Cert) (past : List (Event (LeafOp Cert) LeafOp.Answer)) :
    Event (LeafOp Cert) LeafOp.Answer → Prop
  | ⟨.record entry, _⟩ => ∃ host leaf, ⟨.generate host, .ok leaf⟩ ∈ past ∧
      entry = env.entry host leaf
  | ⟨.insert key config, _⟩ => ∃ task : LeafTask, key = task.cacheKey ∧
      config.toServerConfig = task.issuedConfig ∧ (env.certLog = true →
        ⟨.record (env.entry task.normalizedHost config.leaf), ()⟩ ∈ past)
  | _ => True

/-- What an answer tells of the state, at the time and ever after. -/
def Sound (env : LeafEnv Cert) (s : LeafState Cert) : Event (LeafOp Cert) LeafOp.Answer → Prop
  | ⟨.lookup key, found⟩ => ∀ config : LeafConfig Cert, found = some config → env.Kept s key config
  | ⟨.record entry, _⟩ => entry ∈ s.log.told
  | ⟨.insert key config, _⟩ => env.Kept s key config
  | _ => True

/-- What a tunnel ends with. -/
def Post (task : LeafTask) (past : List (Event (LeafOp Cert) LeafOp.Answer))
    (result : Except MitmError (LeafConfig Cert)) : Prop :=
  ∀ config, result = .ok config → task.normalizedHost ≠ [] ∧
    (⟨.lookup task.cacheKey, some config⟩ ∈ past ∨ ⟨.insert task.cacheKey config, ()⟩ ∈ past)

/-! ## What an operation does -/

/-- A key is cached for good. -/
theorem cached_after {key : Str} (cached : (s.cache[key]?).isSome = true)
    (outcomes : LeafOutcomes Cert) (op : LeafOp Cert) :
    ((leafStore.after s outcomes op).cache[key]?).isSome = true := by
  cases op with
  | insert other config =>
      change ((s.cache.insert other config)[key]?).isSome = true
      rw [StrMap.getElem?_insert]
      split
      · rfl
      · exact cached
  | _ => exact cached

/-- What the log has been told stays told. -/
theorem logged_after {entry : CertLogEntry} (logged : entry ∈ s.log.told)
    (outcomes : LeafOutcomes Cert) (op : LeafOp Cert) :
    entry ∈ (leafStore.after s outcomes op).log.told := by
  cases op with
  | record other => exact List.mem_append_left _ logged
  | _ => exact logged

theorem Kept.after {key : Str} {config : LeafConfig Cert} (kept : env.Kept s key config)
    (outcomes : LeafOutcomes Cert) (op : LeafOp Cert) :
    env.Kept (leafStore.after s outcomes op) key config := by
  obtain ⟨cached, task, same, issued, told⟩ := kept
  exact ⟨cached_after cached outcomes op, task, same, issued,
    fun logs => logged_after (told logs) outcomes op⟩

/-- Every cached configuration is one that is kept. -/
def CacheKept (env : LeafEnv Cert) (s : LeafState Cert) : Prop :=
  ∀ key config, s.cache[key]? = some config → env.Kept s key config

theorem guarantees (env : LeafEnv Cert) :
    leafStore.Guarantees env.CacheKept env.Allows env.Sound where
  kept s outcomes op past kept sound allowed := by
    cases op with
    | lookup key => exact ⟨kept, fun config found => kept key config found⟩
    | generate host => exact ⟨kept, trivial⟩
    | build config => exact ⟨kept, trivial⟩
    | record entry =>
        refine ⟨fun key config found => (kept key config found).after outcomes (.record entry), ?_⟩
        exact List.mem_append_right _ (List.mem_singleton_self _)
    | insert key config =>
        obtain ⟨task, same, issued, told⟩ := allowed
        have here : env.Kept (leafStore.after s outcomes (.insert key config)) key config := by
          refine ⟨?_, task, same, issued, fun logs => sound _ (told logs)⟩
          change ((s.cache.insert key config)[key]?).isSome = true
          rw [StrMap.getElem?_insert, if_pos rfl, Option.isSome_some]
        refine ⟨fun other old found => ?_, here⟩
        change (s.cache.insert key config)[other]? = some old at found
        rw [StrMap.getElem?_insert] at found
        split at found
        · rename_i same
          obtain rfl := Option.some.inj found
          exact same ▸ here
        · exact (kept other old found).after outcomes (.insert key config)
  stable s outcomes op event sound := by
    obtain ⟨done, answer⟩ := event
    cases done with
    | lookup key => exact fun config found => (sound config found).after outcomes op
    | insert key config => exact Kept.after sound outcomes op
    | record entry => exact logged_after sound outcomes op
    | _ => trivial

/-! ## What a tunnel does -/

section Tunnel

open Program

variable {past : List (Event (LeafOp Cert) LeafOp.Answer)}

theorem meets_configure (named : task.normalizedHost ≠ []) {leaf : Cert}
    (told : env.certLog = true → ⟨.record (env.entry task.normalizedHost leaf), ()⟩ ∈ past) :
    (task.configure leaf).Meets (remember env.Allows) (Post task) past := by
  refine meets_act (fun _ => trivial) fun built => ?_
  cases built with
  | error reason => exact fun config wrong => by cases wrong
  | ok done =>
      refine meets_act (fun _ => ⟨task, rfl, rfl, fun logs => ?_⟩) fun inserted => ?_
      · exact List.mem_append_left _ (told logs)
      · intro config same
        cases same
        exact ⟨named, .inr (List.mem_append_right _ (List.mem_singleton_self _))⟩

theorem meets_serverConfigForHost (env : LeafEnv Cert) (task : LeafTask) :
    (env.serverConfigForHost task).Meets (remember env.Allows) (Post task) [] := by
  rw [serverConfigForHost]
  split
  · exact fun config wrong => by cases wrong
  · rename_i named
    refine meets_act (fun _ => trivial) fun found => ?_
    cases found with
    | some config =>
        intro config same
        cases same
        exact ⟨named, .inl (List.mem_singleton_self _)⟩
    | none =>
        refine meets_act (fun _ => trivial) fun generated => ?_
        cases generated with
        | error reason => exact fun config wrong => by cases wrong
        | ok leaf =>
            dsimp only
            split
            · refine meets_act (fun _ => ⟨task.normalizedHost, leaf, ?_, rfl⟩) fun recorded => ?_
              · exact List.mem_append_right _ (List.mem_singleton_self _)
              · apply meets_configure named
                exact fun _ => List.mem_append_right _ (List.mem_singleton_self _)
            · rename_i silent
              exact meets_configure named fun logs => absurd logs silent

end Tunnel

/-! ## Any number of tunnels -/

variable {events : List (CrewEvent LeafTask (LeafOutcomes Cert))} {outputs : List Empty}
  {crew : LeafCrew Cert}

theorem relies_of_run (execution : env.issuing.Run ⟨{}, []⟩ events outputs (.running crew)) :
    Shared.Holds env.CacheKept (fun _ => Shared.Relies env.Allows env.Sound Post) crew := by
  refine env.guarantees.run env.meets_serverConfigForHost execution fun key config found => ?_
  change (∅ : StrMap (LeafConfig Cert))[key]? = some config at found
  rw [Std.ExtTreeMap.getElem?_empty] at found
  cases found

/-- What a tunnel has been handed is kept under its key, which names a host. -/
theorem kept_of_served (execution : env.issuing.Run ⟨{}, []⟩ events outputs (.running crew))
    {member} (mem : member ∈ crew.members) {config : LeafConfig Cert}
    (served : member.2.rest = .done (.ok config)) :
    member.1.normalizedHost ≠ [] ∧ env.Kept crew.shared member.1.cacheKey config := by
  obtain ⟨index, found⟩ := List.mem_iff_getElem?.mp mem
  have relies := (relies_of_run execution).members index member.1 member.2 found
  obtain ⟨named, looked_up | inserted⟩ := relies.ended served config rfl
  · exact ⟨named, relies.sound _ looked_up config rfl⟩
  · exact ⟨named, relies.sound _ inserted⟩

/-- Each entry of the log has been told to it by a tunnel. -/
def Recorded (crew : LeafCrew Cert) : Prop :=
  ∀ entry ∈ crew.shared.log.told, ∃ member ∈ crew.members, ⟨.record entry, ()⟩ ∈ member.2.past

theorem recorded_step {next : LeafCrew Cert} {event : CrewEvent LeafTask (LeafOutcomes Cert)}
    {now : List Empty} (recorded : Recorded crew) (polled : env.issuing.polls crew event = true)
    (reacts : env.issuing.react crew event = ⟨now, .running next⟩) : Recorded next := by
  intro entry mem
  have before : entry ∈ crew.shared.log.told →
      ∃ member ∈ next.members, ⟨.record entry, ()⟩ ∈ member.2.past := by
    intro mem
    obtain ⟨member, here, told⟩ := recorded entry mem
    obtain ⟨index, found⟩ := List.mem_iff_getElem?.mp here
    obtain ⟨later, found', more⟩ := Shared.past_step polled reacts found
    exact ⟨_, List.mem_of_getElem? found', more.subset told⟩
  rcases Shared.react_cases polled reacts with ⟨task, rfl⟩ |
    ⟨index, outcomes, task, past, op, later, -, found, rfl⟩
  · exact before mem
  · cases op with
    | record other =>
        rcases List.mem_append.mp mem with old | new
        · exact before old
        · obtain rfl := List.mem_singleton.mp new
          refine ⟨_, List.mem_of_getElem?
            (List.getElem?_set_self (List.getElem?_eq_some_iff.mp found).1), ?_⟩
          exact List.mem_append_right _ (List.mem_singleton_self _)
    | _ => exact before mem

/-- What an event does to the log. -/
theorem log_step {next : LeafCrew Cert} {event : CrewEvent LeafTask (LeafOutcomes Cert)}
    {now : List Empty} (polled : env.issuing.polls crew event = true)
    (reacts : env.issuing.react crew event = ⟨now, .running next⟩) :
    next.shared.log = crew.shared.log ∨
      ∃ index outcomes entry, event = .turn index outcomes ∧
        next.shared.log = crew.shared.log.record entry outcomes.written := by
  rcases Shared.react_cases polled reacts with ⟨task, rfl⟩ |
    ⟨index, outcomes, task, past, op, later, turns, found, rfl⟩
  · exact .inl rfl
  · cases op with
    | record entry => exact .inr ⟨index, outcomes, entry, turns, rfl⟩
    | _ => exact .inl rfl

/-- The lines of the file are entries that the log has been told of, in that order. -/
theorem lines_of_run (execution : env.issuing.Run ⟨{}, []⟩ events outputs (.running crew)) :
    crew.shared.log.lines.Sublist crew.shared.log.told := by
  refine execution.history
    (fun _ _ crew => crew.shared.log.lines.Sublist crew.shared.log.told) .slnil ?_
  intro events outputs crew event now next _ within polled reacts
  rcases log_step polled reacts with same | ⟨index, outcomes, entry, -, records⟩
  · rwa [same]
  · rw [records, CertLog.record]
    split
    · exact within.append_right [entry]
    · exact within.trans (List.sublist_append_left _ _)

/-- As long as every line can be written, the file holds what the log has been told. -/
theorem lines_eq_of_run (execution : env.issuing.Run ⟨{}, []⟩ events outputs (.running crew))
    (written : ∀ index outcomes, .turn index outcomes ∈ events → outcomes.written = true) :
    crew.shared.log.lines = crew.shared.log.told := by
  have kinds : ∀ event ∈ events, ∀ index outcomes, event = .turn index outcomes →
      outcomes.written = true :=
    fun event mem index outcomes same => written index outcomes (same ▸ mem)
  refine execution.kept (fun crew => crew.shared.log.lines = crew.shared.log.told) ?_ kinds rfl
  intro crew next event now whole writes polled reacts
  rcases log_step polled reacts with same | ⟨index, outcomes, entry, turns, records⟩
  · rwa [same]
  · rw [records, CertLog.record, writes index outcomes turns, if_pos rfl, whole]

/-- Tunnels that join when a key is cached only look it up. -/
theorem only_looks_up (env : LeafEnv Cert) (key : Str) (first : Nat) :
    leafStore.Keeps env.serverConfigForHost (fun s => (s.cache[key]?).isSome = true)
      fun index _ task process => first ≤ index → task.normalizedHost ≠ [] → task.cacheKey = key →
        process = Process.start (env.serverConfigForHost task) ∨
          ∃ config, process = ⟨[⟨.lookup key, some config⟩], .done (.ok config)⟩ where
  starts _ _ _ _ _ _ _ := .inl rfl
  turns index s outcomes task past op next cached kept := by
    refine ⟨cached_after cached outcomes op, fun joined named same => ?_⟩
    rcases kept joined named same with started | ⟨config, ended⟩
    · obtain ⟨config, found⟩ := Option.isSome_iff_exists.mp cached
      subst same
      rw [serverConfigForHost, if_neg named] at started
      cases started
      refine .inr ⟨config, ?_⟩
      have answer : leafStore.answer s outcomes (.lookup task.cacheKey) = some config := found
      simp only [answer, List.nil_append]
    · cases ended
  others _ _ _ _ _ _ _ _ _ _ _ _ kept := kept

/-- Once a tunnel has been handed a configuration, no tunnel that asks later for the same host and
protocols generates a certificate, and each of them is handed a configuration from the cache. -/
theorem certificates_are_reused (env : LeafEnv Cert) {final : LeafCrew Cert}
    {later : List (CrewEvent LeafTask (LeafOutcomes Cert))} {outputs' : List Empty}
    (first : env.issuing.Run ⟨{}, []⟩ events outputs (.running crew))
    {member} (mem : member ∈ crew.members) {config : LeafConfig Cert}
    (served : member.2.rest = .done (.ok config))
    (second : env.issuing.Run crew later outputs' (.running final)) {index : Nat}
    (joined : crew.members.length ≤ index) {task process}
    (found : final.members[index]? = some (task, process))
    (host : task.normalizedHost = member.1.normalizedHost)
    (force : task.forceHttp1 = member.1.forceHttp1) :
    (∀ host generated, ⟨.generate host, generated⟩ ∉ process.past) ∧
      (process.ended = true → ∃ config, process.rest = .done (.ok config)) := by
  obtain ⟨named, kept⟩ := kept_of_served first mem served
  have named : task.normalizedHost ≠ [] := host ▸ named
  have same : task.cacheKey = member.1.cacheKey := by
    rw [LeafTask.cacheKey, LeafTask.cacheKey, host, force]
  have holds := (only_looks_up env member.1.cacheKey crew.members.length).run second
    ⟨kept.cached, fun place other process at_place joined =>
      absurd (List.getElem?_eq_some_iff.mp at_place).1 joined.not_gt⟩
  rcases holds.members index task process found joined named same with rfl | ⟨config, rfl⟩
  · refine ⟨fun _ _ wrong => (by cases wrong), fun ended => ?_⟩
    rw [Process.start, serverConfigForHost, if_neg named] at ended
    cases ended
  · refine ⟨fun _ _ wrong => ?_, fun _ => ⟨config, rfl⟩⟩
    cases List.mem_singleton.mp wrong

/-! ## A tunnel alone -/

/-- The cache of `Mitm.Tunnel` holds the same configurations. -/
def Represents (cache : StrMap (LeafConfig Cert)) (old : CertCache) : Prop :=
  ∀ key, (cache[key]?).map LeafConfig.toServerConfig = old.get key

theorem Represents.insert {cache : StrMap (LeafConfig Cert)} {old : CertCache}
    (represents : Represents cache old) (task : LeafTask) (leaf : Cert) :
    Represents (cache.insert task.cacheKey ⟨task.issuedConfig, leaf⟩)
      (old.insert task.normalizedHost task.forceHttp1) := by
  intro key
  rw [StrMap.getElem?_insert, CertCache.get, CertCache.insert, List.lookup_cons]
  by_cases same : task.cacheKey = key
  · rw [if_pos same, ← same]
    simp [LeafTask.cacheKey, LeafTask.issuedConfig]
  · rw [if_neg same, represents key, CertCache.get]
    have other : (key == cacheKey task.normalizedHost task.forceHttp1) = false :=
      beq_eq_false_iff_ne.mpr fun equal => same equal.symm
    rw [other]

theorem serverConfigForHost_eq (cache : CertCache) (task : LeafTask) (issues : Except Str Unit) :
    PrivacyEngine.serverConfigForHost cache task.targetHost task.forceHttp1 issues =
      if task.normalizedHost = [] then
        (.error (.certGeneration (ascii "empty target host")), cache)
      else
        match cache.get task.cacheKey with
        | some config => (.ok config, cache)
        | none =>
            match issues with
            | .error reason => (.error (.certGeneration reason), cache)
            | .ok _ => (.ok task.issuedConfig, cache.insert task.normalizedHost task.forceHttp1) :=
  rfl

/-- What a new certificate comes to, alone. -/
theorem alone_issue (env : LeafEnv Cert) (outcomes : LeafOutcomes Cert) (task : LeafTask)
    (s : LeafState Cert) :
    (∃ reason log, (outcomes.generated >>= fun _ => outcomes.built) = .error reason ∧
      leafStore.alone outcomes (env.issue task) s =
        (.error (.certGeneration reason), ⟨s.cache, log⟩)) ∨
    ∃ leaf log, (outcomes.generated >>= fun _ => outcomes.built) = .ok () ∧
      leafStore.alone outcomes (env.issue task) s = (.ok ⟨task.issuedConfig, leaf⟩,
        ⟨s.cache.insert task.cacheKey ⟨task.issuedConfig, leaf⟩, log⟩) := by
  obtain ⟨reason | leaf, built, written⟩ := outcomes
  · exact .inl ⟨reason, s.log, rfl, rfl⟩
  · have logged : ∃ log, leafStore.alone ⟨.ok leaf, built, written⟩ (env.issue task) s =
        leafStore.alone ⟨.ok leaf, built, written⟩ (task.configure leaf) ⟨s.cache, log⟩ := by
      obtain ⟨certLog, serialHex, fingerprint⟩ := env
      cases certLog with
      | false => exact ⟨s.log, rfl⟩
      | true =>
          exact ⟨s.log.record ⟨task.normalizedHost, serialHex leaf, fingerprint leaf⟩ written, rfl⟩
    obtain ⟨log, same⟩ := logged
    rw [same]
    cases built with
    | error reason => exact .inl ⟨reason, log, rfl, rfl⟩
    | ok done => exact .inr ⟨leaf, log, rfl, rfl⟩

/-- A tunnel that takes its turns in a row does what is done under one lock. -/
theorem alone_eq_serverConfigForHost (env : LeafEnv Cert) (task : LeafTask) {s : LeafState Cert}
    {cache : CertCache} (represents : Represents s.cache cache) (outcomes : LeafOutcomes Cert) :
    (leafStore.alone outcomes (env.serverConfigForHost task) s).1.map LeafConfig.toServerConfig =
        (PrivacyEngine.serverConfigForHost cache task.targetHost task.forceHttp1
          (outcomes.generated >>= fun _ => outcomes.built)).1 ∧
      Represents (leafStore.alone outcomes (env.serverConfigForHost task) s).2.cache
        (PrivacyEngine.serverConfigForHost cache task.targetHost task.forceHttp1
          (outcomes.generated >>= fun _ => outcomes.built)).2 := by
  rw [serverConfigForHost_eq, serverConfigForHost]
  by_cases named : task.normalizedHost = []
  · rw [if_pos named, if_pos named]
    exact ⟨rfl, represents⟩
  · rw [if_neg named, if_neg named, ← represents task.cacheKey, Shared.alone]
    cases found : s.cache[task.cacheKey]? with
    | some config =>
        have answer : leafStore.answer s outcomes (.lookup task.cacheKey) = some config := found
        rw [answer]
        exact ⟨rfl, represents⟩
    | none =>
        have answer : leafStore.answer s outcomes (.lookup task.cacheKey) = none := found
        have kept : leafStore.after s outcomes (.lookup task.cacheKey) = s := rfl
        rw [answer, kept]
        rcases alone_issue env outcomes task s with ⟨reason, log, fails, ends⟩ |
          ⟨leaf, log, works, ends⟩
        · simp only [ends, fails]
          exact ⟨rfl, represents⟩
        · simp only [ends, works]
          exact ⟨rfl, represents.insert task leaf⟩

/-- So it does among other tunnels, as long as none of them takes a turn in between. -/
theorem in_a_row_eq_serverConfigForHost (env : LeafEnv Cert) {task : LeafTask} {index : Nat}
    (found : crew.members[index]? = some (task, ⟨[], env.serverConfigForHost task⟩))
    {cache : CertCache} (represents : Represents crew.shared.cache cache)
    (outcomes : LeafOutcomes Cert) :
    ∃ events outputs final past result, env.issuing.Run crew events outputs (.running final) ∧
      final.members[index]? = some (task, ⟨past, .done result⟩) ∧
      result.map LeafConfig.toServerConfig =
        (PrivacyEngine.serverConfigForHost cache task.targetHost task.forceHttp1
          (outcomes.generated >>= fun _ => outcomes.built)).1 ∧
      Represents final.shared.cache
        (PrivacyEngine.serverConfigForHost cache task.targetHost task.forceHttp1
          (outcomes.generated >>= fun _ => outcomes.built)).2 := by
  obtain ⟨result, after⟩ := env.alone_eq_serverConfigForHost task represents outcomes
  obtain ⟨events, outputs, past, execution⟩ := Shared.alone_run outcomes found
  exact ⟨events, outputs, _, past, _, execution,
    List.getElem?_set_self (List.getElem?_eq_some_iff.mp found).1, result, after⟩

/-! ### Two tunnels -/

/-- Certificates that are numbers. -/
def sampleEnv : LeafEnv Nat := ⟨true, decimal, decimal⟩

def sampleTask : LeafTask := ⟨ascii "Example.com", true⟩

/-- A turn for which a given certificate would be generated; the first one cannot be logged. -/
def sampleTurn (index leaf : Nat) : CrewEvent LeafTask (LeafOutcomes Nat) :=
  .turn index ⟨.ok leaf, .ok (), leaf ≠ 1⟩

/-- Two tunnels look the same host up before either has inserted. -/
def sampleRace : List (CrewEvent LeafTask (LeafOutcomes Nat)) :=
  [.join sampleTask, .join sampleTask, sampleTurn 0 1, sampleTurn 1 2, sampleTurn 0 1,
    sampleTurn 1 2, sampleTurn 1 2, sampleTurn 0 1, sampleTurn 0 1, sampleTurn 1 2, sampleTurn 1 2,
    sampleTurn 0 1]

/-- A later tunnel to the host. -/
def sampleLater : List (CrewEvent LeafTask (LeafOutcomes Nat)) :=
  [.join ⟨ascii " EXAMPLE.com", true⟩, sampleTurn 2 3]

/-- What a tunnel has asked for, and the certificate it has been handed. -/
def handed (member : LeafTask × Process (LeafOp Nat) LeafOp.Answer
    (Except MitmError (LeafConfig Nat))) : LeafTask × Option Nat :=
  (member.1, match member.2.rest with
    | .done (.ok config) => some config.leaf
    | _ => none)

def allHanded (reaction : Reaction (LeafCrew Nat) Empty Empty) :
    Option (List (LeafTask × Option Nat)) :=
  reaction.status.state?.map fun crew => crew.members.map handed

theorem member_of_handed {crew : LeafCrew Nat} {seen : List (LeafTask × Option Nat)}
    (same : crew.members.map handed = seen) (index : Nat) {task : LeafTask} {leaf : Nat}
    (served : seen[index]? = some (task, some leaf)) :
    ∃ process config, crew.members[index]? = some (task, process) ∧
      process.rest = .done (.ok config) ∧ config.leaf = leaf := by
  subst same
  rw [List.getElem?_map] at served
  obtain ⟨⟨task', process⟩, found, ends⟩ := Option.map_eq_some_iff.mp served
  obtain ⟨rfl, leaf_eq⟩ := Prod.mk.inj ends
  split at leaf_eq
  · rename_i config ended
    exact ⟨process, config, found, ended, Option.some.inj leaf_eq⟩
  · cases leaf_eq

/-- The later tunnel generates none. -/
theorem sampleLater_reuses :
    ∃ outputs crew outputs' final,
      sampleEnv.issuing.Run ⟨{}, []⟩ sampleRace outputs (.running crew) ∧
      sampleEnv.issuing.Run crew sampleLater outputs' (.running final) ∧
      ∃ member, final.members[2]? = some member ∧
        ∀ host generated, ⟨.generate host, generated⟩ ∉ member.2.past := by
  obtain ⟨outputs, status, first, seen⟩ := Machine.exists_run sampleEnv.issuing ⟨{}, []⟩
    sampleRace allHanded
    (show _ = some (some [(sampleTask, some 1), (sampleTask, some 2)]) by decide +kernel)
  obtain ⟨_, status', whole, seen'⟩ := Machine.exists_run sampleEnv.issuing ⟨{}, []⟩
    (sampleRace ++ sampleLater) allHanded
    (show _ = some (some [(sampleTask, some 1), (sampleTask, some 2),
      (⟨ascii " EXAMPLE.com", true⟩, some 1)]) by decide +kernel)
  obtain ⟨crew, reached, same⟩ := Option.map_eq_some_iff.mp seen
  obtain ⟨final, reached', same'⟩ := Option.map_eq_some_iff.mp seen'
  cases Status.eq_running reached
  cases Status.eq_running reached'
  obtain ⟨outputs', second, -⟩ := whole.split first
  obtain ⟨process, config, found, ended, -⟩ := member_of_handed same 0 rfl
  obtain ⟨later, config', found', -⟩ := member_of_handed same' 2 rfl
  have two : crew.members.length = 2 := by
    have lengths := congrArg List.length same
    rwa [List.length_map] at lengths
  have host : LeafTask.normalizedHost ⟨ascii " EXAMPLE.com", true⟩ = sampleTask.normalizedHost := by
    decide
  have reuses := certificates_are_reused sampleEnv first (List.mem_of_getElem? found) ended second
    two.le found' host rfl
  exact ⟨outputs, crew, outputs', final, first, second, _, found', reuses.1⟩

end LeafEnv

end PrivacyEngine
