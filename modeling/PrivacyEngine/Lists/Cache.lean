import PrivacyEngine.Lists.Rules
import PrivacyEngine.Store.Persist

/-!
# Cached filter lists

A downloaded list is kept in a file named after its URL, and used when a later download fails.  The
name keeps letters, digits and dots and nothing else, so two URLs can share a file, or one can use
the file of the other on the way to its own.  URLs that do neither each get their own list back.
-/

namespace PrivacyEngine

open Wire FileSystem

namespace FilterList

/-! ## The files of the cache -/

def isAsciiAlphanumeric (b : UInt8) : Bool :=
  (48 ≤ b && b ≤ 57) || (65 ≤ b && b ≤ 90) || (97 ≤ b && b ≤ 122)

/-- The name of a cache file: one character for every character of the URL. -/
def cacheFilename (url : Str) : Str :=
  url.filterMap fun b =>
    -- bytes that continue a character
    if 0x80 ≤ b ∧ b < 0xC0 then none
    else if isAsciiAlphanumeric b || b == 46 then some b
    else some 95

def tmpFilename (url : Str) : Str := cacheFilename url ++ ascii ".tmp"

/-- Names that do not stand for a file of the directory they are joined to. -/
def directoryNames : List Str := [[], ascii ".", ascii ".."]

def isADirectory : IoError := ⟨.other, ascii "Is a directory (os error 21)"⟩

def cacheToDisk (cacheDir : List Str) (url : Str) (body : Bytes) (outcomes : Outcomes FsWrite)
    (disk : Disk) : Except IoError FilePath × Disk :=
  let target := FilePath.join cacheDir (cacheFilename url)
  match replaceVia occupied missing (.join cacheDir (tmpFilename url)) target
      outcomes.createDirAll (outcomes.write.step body) outcomes.renames disk with
  | (.ok _, disk) => (.ok target, disk)
  | (.error error, disk) => (.error error, disk)

def loadFromCache (cacheDir : List Str) (url : Str) (disk : Disk) : Except IoError (Option Str) :=
  if cacheFilename url ∈ directoryNames then .error isADirectory
  else
    match readDisk disk (.join cacheDir (cacheFilename url)) with
    | .ok content => .ok (some content)
    | .error error => if error.kind = .notFound then .ok none else .error error

/-- A list to cache; its body is a text. -/
structure CacheCall where
  url : Str
  body : Str
  valid : Utf8.valid body = true

/-- The disk behind calls whose steps all work. -/
def cacheAll (cacheDir : List Str) (calls : List CacheCall) (disk : Disk) : Disk :=
  calls.foldl (fun disk call => (cacheToDisk cacheDir call.url call.body .smooth disk).2) disk

/-- The body most recently cached for a URL. -/
def lastCached (calls : List CacheCall) (url : Str) (before : Option Str) : Option Str :=
  calls.foldl (fun last call => if call.url = url then some call.body else last) before

/-- Calls with some URLs, in any order and number, leave each of them its own list. -/
def ReturnsOwn (cacheDir : List Str) (urls : Str → Prop) : Prop :=
  ∀ calls : List CacheCall, (∀ call ∈ calls, urls call.url) → ∀ url, urls url →
    loadFromCache cacheDir url (cacheAll cacheDir calls fun _ => none) =
      .ok (lastCached calls url none)

/-- Every URL has a file, and no other one has the same file or passes through it. -/
structure Apart (urls : Str → Prop) : Prop where
  named : ∀ url, urls url → cacheFilename url ∉ directoryNames
  target : ∀ url other, urls url → urls other → url ≠ other →
    cacheFilename url ≠ cacheFilename other
  tmp : ∀ url other, urls url → urls other → cacheFilename url ≠ tmpFilename other

/-! ## Refreshing -/

inductive FilterListSourceKind where
  | localFile
  | url
  deriving DecidableEq

structure FilterListSource where
  origin : Str
  kind : FilterListSourceKind

/-- One attempt at a source: what reading its file, downloading it and caching it come to. -/
structure SourceLoad where
  source : FilterListSource
  localFile : Except IoError Str
  download : Except IoError Bytes
  caching : Outcomes FsWrite

section Refresh

variable (isSelector : Str → Bool) (cacheDir : List Str)

/-- Load and parse a single source: URLs are downloaded, with the cache as fallback. -/
def loadSource (load : SourceLoad) (disk : Disk) : Option (List ParsedRule × ParseStats) × Disk :=
  match load.source.kind with
  | .localFile =>
      match load.localFile with
      | .ok text => (some (parseFilterList isSelector text), disk)
      | .error _ => (none, disk)
  | .url =>
      match load.download with
      | .ok body =>
          let text := Utf8.lossy body
          -- a list that cannot be cached is used all the same
          (some (parseFilterList isSelector text),
            (cacheToDisk cacheDir load.source.origin text load.caching disk).2)
      | .error _ =>
          match loadFromCache cacheDir load.source.origin disk with
          | .ok (some text) => (some (parseFilterList isSelector text), disk)
          | .ok none => (none, disk)
          | .error _ => (none, disk)

/-- The loop over the sources, which keeps the results that are there. -/
def loadSources : List SourceLoad → Disk → List (List ParsedRule × ParseStats) × Disk
  | [], disk => ([], disk)
  | load :: loads, disk =>
      let (result, disk) := loadSource isSelector cacheDir load disk
      let (results, disk) := loadSources loads disk
      (result.toList ++ results, disk)

/-- What a refresh answers from the results of its sources. -/
def refreshResult (loads : List SourceLoad) (allResults : List (List ParsedRule × ParseStats)) :
    Except IoError FilterListRules :=
  if loads = [] then .ok {}
  else if allResults = [] then .error ⟨.other, ascii "all filter list sources failed"⟩
  else .ok (aggregateRules allResults)

/-- Load and aggregate all filter list sources. -/
def refreshFilterLists (loads : List SourceLoad) (disk : Disk) :
    Except IoError FilterListRules × Disk :=
  let (allResults, disk) := loadSources isSelector cacheDir loads disk
  (refreshResult loads allResults, disk)

/-- The disk behind refreshes. -/
def refreshAll (rounds : List (List SourceLoad)) (disk : Disk) : Disk :=
  rounds.foldl (fun disk loads => (refreshFilterLists isSelector cacheDir loads disk).2) disk

end Refresh

namespace SourceLoad

/-- The list that a load caches. -/
def cached (load : SourceLoad) : Option CacheCall :=
  match load.source.kind, load.download with
  | .url, .ok body => some ⟨load.source.origin, Utf8.lossy body, Utf8.valid_lossy body⟩
  | _, _ => none

/-- A source is a local file or one of some URLs, and its list can be cached. -/
def Within (urls : Str → Prop) (load : SourceLoad) : Prop :=
  (load.source.kind = .url → urls load.source.origin) ∧ load.caching = .smooth

/-- The text that is a source's own: what was read or downloaded now, or else the last download of
exactly this URL in the loads before. -/
def ownText (past : List SourceLoad) (load : SourceLoad) : Option Str :=
  match load.source.kind, load.localFile, load.download with
  | .localFile, .ok text, _ => some text
  | .localFile, .error _, _ => none
  | .url, _, .ok body => some (Utf8.lossy body)
  | .url, _, .error _ => lastCached (past.filterMap cached) load.source.origin none

end SourceLoad

/-- The results of the own texts of sources that are loaded one by one. -/
def ownResults (isSelector : Str → Bool) (past : List SourceLoad) :
    List SourceLoad → List (List ParsedRule × ParseStats)
  | [] => []
  | load :: loads =>
      ((load.ownText past).map (parseFilterList isSelector)).toList ++
        ownResults isSelector (past ++ [load]) loads

/-- Refreshes with some URLs use every source's own text, whatever the other sources are. -/
def FallsBackToOwn (isSelector : Str → Bool) (cacheDir : List Str) (urls : Str → Prop) : Prop :=
  ∀ (rounds : List (List SourceLoad)) (loads : List SourceLoad),
    (∀ load ∈ rounds.flatten ++ loads, load.Within urls) →
    (refreshFilterLists isSelector cacheDir loads
        (refreshAll isSelector cacheDir rounds fun _ => none)).1 =
      refreshResult loads (ownResults isSelector rounds.flatten loads)

/-! ## One call -/

section Calls

variable {cacheDir : List Str} {url other : Str}

theorem join_inj {name name' : Str} :
    FilePath.join cacheDir name = .join cacheDir name' ↔ name = name' := by
  simp [FilePath.join]

theorem tmpFilename_ne (url : Str) : tmpFilename url ≠ cacheFilename url := by
  intro same
  have longer := congrArg List.length same
  rw [tmpFilename, List.length_append, Nat.add_eq_left] at longer
  cases longer

/-- A call whose steps all work puts the body in its file and leaves no temporary file. -/
theorem cacheToDisk_smooth (cacheDir : List Str) (url : Str) (body : Bytes) (disk : Disk)
    (path : FilePath) :
    (cacheToDisk cacheDir url body .smooth disk).2 path =
      if path = .join cacheDir (cacheFilename url) then some body
      else if path = .join cacheDir (tmpFilename url) then none
      else disk path := by
  have apart : FilePath.join cacheDir (cacheFilename url) ≠ .join cacheDir (tmpFilename url) :=
    fun same => tmpFilename_ne url (join_inj.mp same).symm
  simp only [cacheToDisk, Outcomes.smooth, FsWrite.step, replaceVia, renameOver, tryRename,
    put_self, move]
  by_cases target : path = .join cacheDir (cacheFilename url)
  · rw [if_pos target, target, put_self]
  · rw [if_neg target, put_of_ne _ target]
    by_cases tmp : path = .join cacheDir (tmpFilename url)
    · rw [if_pos tmp, tmp, remove_self]
    · rw [if_neg tmp, remove_of_ne _ tmp, put_of_ne _ tmp]

theorem loadFromCache_of_file (named : cacheFilename url ∉ directoryNames) {disk : Disk}
    {held : Option Str} (file : disk (.join cacheDir (cacheFilename url)) = held)
    (valid : ∀ body, held = some body → Utf8.valid body = true) :
    loadFromCache cacheDir url disk = .ok held := by
  rw [loadFromCache, if_neg named, readDisk, file]
  cases held with
  | none => rfl
  | some body =>
      have reads : readToString body = .ok body := if_pos (valid body rfl)
      simp only [reads]

/-- The file of a URL holds the body that was last cached for it. -/
theorem cacheAll_file {urls : Str → Prop} (apart : Apart urls) (here : urls url)
    {calls : List CacheCall} (within : ∀ call ∈ calls, urls call.url) (disk : Disk) :
    cacheAll cacheDir calls disk (.join cacheDir (cacheFilename url)) =
      lastCached calls url (disk (.join cacheDir (cacheFilename url))) := by
  induction calls generalizing disk with
  | nil => rfl
  | cons call calls ih =>
      obtain ⟨called, rest⟩ := List.forall_mem_cons.mp within
      have cached : (cacheToDisk cacheDir call.url call.body .smooth disk).2
          (.join cacheDir (cacheFilename url)) =
            if call.url = url then some call.body
            else disk (.join cacheDir (cacheFilename url)) := by
        simp only [cacheToDisk_smooth, join_inj, if_neg (apart.tmp url call.url here called)]
        by_cases same : call.url = url
        · rw [if_pos same, same, if_pos rfl]
        · rw [if_neg same, if_neg (apart.target url call.url here called (Ne.symm same))]
      rw [cacheAll, List.foldl_cons, ← cacheAll, ih rest, cached]
      rfl

theorem lastCached_valid {calls : List CacheCall} {before : Option Str}
    (valid : ∀ body, before = some body → Utf8.valid body = true) {body : Str}
    (last : lastCached calls url before = some body) : Utf8.valid body = true := by
  induction calls generalizing before with
  | nil => exact valid body last
  | cons call calls ih =>
      refine ih (fun body' found => ?_) last
      dsimp only at found
      split at found
      · cases found
        exact call.valid
      · exact valid body' found

theorem returnsOwn_of_apart {urls : Str → Prop} (apart : Apart urls) :
    ReturnsOwn cacheDir urls := by
  intro calls within url here
  exact loadFromCache_of_file (apart.named url here) (cacheAll_file apart here within _)
    fun body last => lastCached_valid (by simp) last

/-! ## Colliding URLs -/

def oneRule : Str := ascii "||a.example^"

/-- A list of one rule is cached for a URL, and then the empty list for another one. -/
def twoCalls (url other : Str) : List CacheCall :=
  [⟨url, oneRule, by decide +kernel⟩, ⟨other, [], rfl⟩]

/-- What a URL gets back when another one has been cached behind it. -/
theorem loadFromCache_twoCalls (named : cacheFilename url ∉ directoryNames) :
    loadFromCache cacheDir url (cacheAll cacheDir (twoCalls url other) fun _ => none) =
      .ok (if cacheFilename url = cacheFilename other then some []
        else if cacheFilename url = tmpFilename other then none else some oneRule) := by
  refine loadFromCache_of_file named ?_ fun body held => ?_
  · simp only [cacheAll, twoCalls, List.foldl_cons, List.foldl_nil, cacheToDisk_smooth, join_inj,
      if_true]
  · split at held
    · cases held
      rfl
    · split at held
      · cases held
      · cases held
        decide +kernel

/-- The law of the cache holds exactly of URLs that keep apart. -/
theorem returnsOwn_iff_apart {urls : Str → Prop} :
    ReturnsOwn cacheDir urls ↔ Apart urls := by
  refine ⟨fun law => ?_, returnsOwn_of_apart⟩
  have named : ∀ url, urls url → cacheFilename url ∉ directoryNames := by
    intro url here directory
    have load := law [] (by simp) url here
    rw [loadFromCache, if_pos directory] at load
    cases load
  have last : ∀ url other, url ≠ other →
      lastCached (twoCalls url other) url none = some oneRule := by
    intro url other differ
    simp [lastCached, twoCalls, Ne.symm differ]
  have load : ∀ url other, urls url → urls other → url ≠ other →
      (if cacheFilename url = cacheFilename other then some []
        else if cacheFilename url = tmpFilename other then none else some oneRule) =
        some oneRule := by
    intro url other here there differ
    have answer := law (twoCalls url other) (by simp [twoCalls, here, there]) url here
    rw [loadFromCache_twoCalls (named url here), last url other differ] at answer
    exact Except.ok.inj answer
  refine ⟨named, fun url other here there differ same => ?_, fun url other here there tmp => ?_⟩
  · have answer := load url other here there differ
    rw [if_pos same] at answer
    exact absurd answer (by decide)
  · by_cases same : url = other
    · subst same
      exact tmpFilename_ne url tmp.symm
    · have answer := load url other here there same
      rw [if_neg fun collide => tmpFilename_ne other (tmp.symm.trans collide), if_pos tmp] at answer
      cases answer

end Calls

/-! ## The fallback -/

section Fallback

variable {isSelector : Str → Bool} {cacheDir : List Str} {urls : Str → Prop}

theorem cacheAll_append (calls calls' : List CacheCall) (disk : Disk) :
    cacheAll cacheDir (calls ++ calls') disk =
      cacheAll cacheDir calls' (cacheAll cacheDir calls disk) :=
  List.foldl_append

/-- A load leaves its download in the cache and nothing else. -/
theorem loadSource_disk {load : SourceLoad} (smooth : load.caching = .smooth) (disk : Disk) :
    (loadSource isSelector cacheDir load disk).2 = cacheAll cacheDir load.cached.toList disk := by
  obtain ⟨⟨origin, kind⟩, text, download, caching⟩ := load
  obtain rfl : caching = .smooth := smooth
  cases kind with
  | localFile => cases text <;> rfl
  | url =>
      cases download with
      | ok body => rfl
      | error error =>
          simp only [loadSource]
          split <;> rfl

theorem loadSources_disk {loads : List SourceLoad} (within : ∀ load ∈ loads, load.Within urls)
    (disk : Disk) :
    (loadSources isSelector cacheDir loads disk).2 =
      cacheAll cacheDir (loads.filterMap SourceLoad.cached) disk := by
  induction loads generalizing disk with
  | nil => rfl
  | cons load loads ih =>
      obtain ⟨⟨-, smooth⟩, rest⟩ := List.forall_mem_cons.mp within
      simp only [loadSources, ih rest, loadSource_disk smooth, ← cacheAll_append,
        List.filterMap_cons]
      cases load.cached <;> rfl

theorem refreshAll_disk {rounds : List (List SourceLoad)}
    (within : ∀ load ∈ rounds.flatten, load.Within urls) (disk : Disk) :
    refreshAll isSelector cacheDir rounds disk =
      cacheAll cacheDir (rounds.flatten.filterMap SourceLoad.cached) disk := by
  induction rounds generalizing disk with
  | nil => rfl
  | cons loads rounds ih =>
      rw [List.flatten_cons, List.forall_mem_append] at within
      rw [refreshAll, List.foldl_cons, ← refreshAll, ih within.2, List.flatten_cons,
        List.filterMap_append, cacheAll_append]
      congr 1
      exact loadSources_disk within.1 disk

/-- What loads have cached are lists of their URLs. -/
theorem cached_within {past : List SourceLoad} (within : ∀ load ∈ past, load.Within urls) :
    ∀ call ∈ past.filterMap SourceLoad.cached, urls call.url := by
  intro call mem
  obtain ⟨load, loaded, caches⟩ := List.mem_filterMap.mp mem
  have source := (within load loaded).1
  obtain ⟨⟨origin, kind⟩, text, download, caching⟩ := load
  cases kind with
  | localFile => cases caches
  | url =>
      cases download with
      | error error => cases caches
      | ok body =>
          cases caches
          exact source rfl

/-- Behind any loads, a source gives its own text. -/
theorem loadSource_own (returns : ReturnsOwn cacheDir urls) {past : List SourceLoad}
    (past_within : ∀ load ∈ past, load.Within urls) {load : SourceLoad}
    (within : load.Within urls) :
    (loadSource isSelector cacheDir load
        (cacheAll cacheDir (past.filterMap SourceLoad.cached) fun _ => none)).1 =
      (load.ownText past).map (parseFilterList isSelector) := by
  have own := returns _ (cached_within past_within) load.source.origin
  have source := within.1
  obtain ⟨⟨origin, kind⟩, text, download, caching⟩ := load
  cases kind with
  | localFile => cases text <;> rfl
  | url =>
      cases download with
      | ok body => rfl
      | error error =>
          simp only [loadSource, SourceLoad.ownText, own (source rfl)]
          split
          · rename_i found
            rw [Except.ok.inj found]
            rfl
          · rename_i nothing
            rw [Except.ok.inj nothing]
            rfl
          · rename_i fails
            cases fails

theorem loadSources_own (returns : ReturnsOwn cacheDir urls) {past loads : List SourceLoad}
    (past_within : ∀ load ∈ past, load.Within urls) (within : ∀ load ∈ loads, load.Within urls) :
    (loadSources isSelector cacheDir loads
        (cacheAll cacheDir (past.filterMap SourceLoad.cached) fun _ => none)).1 =
      ownResults isSelector past loads := by
  induction loads generalizing past with
  | nil => rfl
  | cons load loads ih =>
      obtain ⟨here, rest⟩ := List.forall_mem_cons.mp within
      have past_within' : ∀ other ∈ past ++ [load], other.Within urls :=
        List.forall_mem_append.mpr ⟨past_within, by simpa using here⟩
      have later := ih past_within' rest
      rw [List.filterMap_append, cacheAll_append] at later
      simp only [loadSources, ownResults, loadSource_own returns past_within here,
        loadSource_disk here.2]
      rw [← later]
      rfl

theorem fallsBackToOwn_of_returnsOwn (returns : ReturnsOwn cacheDir urls) :
    FallsBackToOwn isSelector cacheDir urls := by
  intro rounds loads within
  obtain ⟨past_within, now_within⟩ := List.forall_mem_append.mp within
  have results : (loadSources isSelector cacheDir loads _).1 =
      ownResults isSelector rounds.flatten loads :=
    loadSources_own returns past_within now_within
  simp only [refreshFilterLists, refreshAll_disk past_within, results]

/-- The cache keeps the lists of some URLs apart, and with them the fallbacks of a refresh, exactly
when each of them has a file that no other one uses. -/
theorem cache_returns_own_iff :
    ReturnsOwn cacheDir urls ∧ FallsBackToOwn isSelector cacheDir urls ↔ Apart urls :=
  ⟨fun own => returnsOwn_iff_apart.mp own.1,
    fun apart =>
      ⟨returnsOwn_iff_apart.mpr apart,
        fallsBackToOwn_of_returnsOwn (returnsOwn_iff_apart.mpr apart)⟩⟩

/-- A dash and an underscore collide: the first URL gets the list of the second one. -/
theorem colliding_url_returns_other_list :
    cacheFilename (ascii "https://a.example/my-list") =
        cacheFilename (ascii "https://a.example/my_list") ∧
      ¬ ReturnsOwn [ascii "cache"] fun _ => True := by
  have collide : cacheFilename (ascii "https://a.example/my-list") =
      cacheFilename (ascii "https://a.example/my_list") := by
    decide +kernel
  refine ⟨collide, fun returns => ?_⟩
  have own := returns
    (twoCalls (ascii "https://a.example/my-list") (ascii "https://a.example/my_list"))
    (fun _ _ => trivial) (ascii "https://a.example/my-list") trivial
  rw [loadFromCache_twoCalls (by decide +kernel), if_pos collide] at own
  exact absurd (Except.ok.inj own) (by decide +kernel)

end Fallback

end FilterList

end PrivacyEngine
