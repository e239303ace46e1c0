import PrivacyEngine.Engine.Config
import PrivacyEngine.Policy.Accepted
import PrivacyEngine.Wire.JsonText
import PrivacyEngine.Wire.Strict

/-!
# What a configuration file says

A file describes a configuration when every key that it has is set to what its value means and
every other key is left at its default.  Exactly the files whose keys are all known and whose values
all mean something are accepted, every configuration is described by a file, and a file that is
refused is told which of its keys is at fault.
-/

namespace PrivacyEngine

open Wire

/-! ## Values -/

/-- What a value sets a key of a kind to. -/
def SettingKind.Means : (kind : SettingKind) → Json → kind.Value → Prop
  | .string, value, text => value = .string text
  | .bool, value, flag => value = .bool flag
  | .u16, value, n => value = .number (.posInt n.toUInt64)
  | .u64, value, n => value = .number (.posInt n)
  | .strings, value, texts => value = .array (texts.map .string)
  | .optionalString, value, text => ∃ given, value = .string given ∧ text = some given
  | .nullableString, value, text => value = (text.map .string).getD .null
  | .nullableU16, value, n => value = (n.map fun n => .number (.posInt n.toUInt64)).getD .null
  | .tlsProfile, value, profile =>
      ∃ word, value = .string word ∧ parseTlsProfileStr word = some profile
  | .policyMode, value, mode =>
      ∃ word given, value = .string word ∧ parsePolicyModeStr word = some given ∧ mode = some given

/-- A reader finds what a value means, or refuses a value without a meaning and names its key. -/
def Finds {α : Type} (means : α → Prop) (key : Str) (read : Except IoError (Option α)) : Prop :=
  (∃ found, read = .ok (some found) ∧ means found) ∨
    (∀ other, ¬ means other) ∧ ∃ message, read = .error (invalidData message) ∧ key <:+: message

section Readers

variable {members : Members} {key : Str} {value : Json} {α β : Type} {means : α → Prop}

theorem keyError_names (key expected : Str) : key <:+: keyError key expected :=
  ⟨ascii "engine config key " ++ [39], [39] ++ expected, by simp [keyError, quoted, ascii]⟩

theorem getField_eq (found : members.lookup key = some value) (read : Json → Except IoError α) :
    getField read members key = (read value).map some := by
  rw [getField, found]

theorem finds_orInvalid {asked : Option α} {message : Str} (named : key <:+: message)
    (answers : ∀ {a}, asked = some a ↔ means a) :
    Finds means key ((orInvalid asked message).map some) := by
  cases asked with
  | none => exact .inr ⟨fun a meant => (by cases answers.mpr meant), message, rfl, named⟩
  | some a => exact .inl ⟨a, rfl, answers.mp rfl⟩

/-- A reader behind another reader. -/
theorem Finds.map {read : Except IoError (Option α)} {later : β → Prop} {f : α → β}
    (finds : Finds means key read) (keeps : ∀ a, means a → later (f a))
    (only : ∀ b, later b → ∃ a, means a) : Finds later key (read.map (·.map f)) := by
  rcases finds with ⟨a, rfl, meant⟩ | ⟨none, message, rfl, named⟩
  · exact .inl ⟨f a, rfl, keeps a meant⟩
  · refine .inr ⟨fun b meant => ?_, message, rfl, named⟩
    obtain ⟨a, meant⟩ := only b meant
    exact none a meant

theorem finds_string (found : members.lookup key = some value) :
    Finds (fun text => value = .string text) key (getStringField members key) := by
  rw [getStringField, getField_eq found]
  exact finds_orInvalid (keyError_names ..) asStr_eq_some_iff

/-- A number fits when it is one of sixteen bits. -/
theorem toUInt16_eq_some_iff {n : UInt64} {small : UInt16} :
    (if n.toNat < UInt16.size then some n.toUInt16 else none) = some small ↔
      n = small.toUInt64 := by
  constructor
  · intro fits
    split at fits
    · rename_i below
      cases fits
      apply UInt64.toNat_inj.mp
      rw [UInt16.toNat_toUInt64, UInt64.toNat_toUInt16, Nat.mod_eq_of_lt below]
    · cases fits
  · rintro rfl
    have below : small.toUInt64.toNat < UInt16.size := by
      rw [UInt16.toNat_toUInt64]
      exact small.toNat_lt
    rw [if_pos below, UInt16.toUInt16_toUInt64]

theorem finds_u16 (found : members.lookup key = some value) :
    Finds (fun n : UInt16 => value = .number (.posInt n.toUInt64)) key
      (getU16Field members key) := by
  rw [getU16Field, getField_eq found]
  cases asked : value.asU64 with
  | none =>
      refine .inr ⟨fun n same => ?_, _, rfl, keyError_names ..⟩
      rw [same] at asked
      cases asked
  | some n =>
      refine finds_orInvalid (keyError_names ..) fun {small} => ?_
      rw [asU64_eq_some_iff.mp asked, toUInt16_eq_some_iff, Json.number.injEq,
        JsonNumber.posInt.injEq]

/-- All entries are strings, or the first one that is not ends the reading. -/
theorem mapM_asStr (message : Str) (items : List Json) :
    (∃ texts : List Str, items = texts.map .string ∧
        (items.mapM fun item => orInvalid item.asStr message) = .ok texts) ∨
      (∀ texts : List Str, items ≠ texts.map .string) ∧
        (items.mapM fun item => orInvalid item.asStr message) = .error (invalidData message) := by
  induction items with
  | nil => exact .inl ⟨[], rfl, rfl⟩
  | cons item items ih =>
      rw [List.mapM_cons]
      cases asked : item.asStr with
      | none =>
          refine .inr ⟨fun texts same => ?_, rfl⟩
          cases texts with
          | nil => cases same
          | cons text texts =>
              rw [(List.cons.inj same).1] at asked
              cases asked
      | some text =>
          rcases ih with ⟨texts, rfl, reads⟩ | ⟨none, fails⟩
          · exact .inl ⟨text :: texts, by rw [asStr_eq_some_iff.mp asked, List.map_cons],
              by rw [reads]; rfl⟩
          · refine .inr ⟨fun texts same => ?_, by rw [fails]; rfl⟩
            cases texts with
            | nil => cases same
            | cons text texts => exact none texts (List.cons.inj same).2

theorem finds_strings (found : members.lookup key = some value) :
    Finds (fun texts => value = .array (texts.map .string)) key
      (getStringArrayField members key) := by
  rw [getStringArrayField, getField_eq found]
  cases asked : value.asArray with
  | none =>
      refine .inr ⟨fun texts same => ?_, _, rfl, keyError_names ..⟩
      rw [same] at asked
      cases asked
  | some items =>
      rw [asArray_eq_some_iff.mp asked]
      rcases mapM_asStr (keyError key (ascii " array entries must be strings")) items with
        ⟨texts, rfl, reads⟩ | ⟨none, fails⟩
      · refine .inl ⟨texts, ?_, rfl⟩
        exact congrArg (Except.map some) reads
      · exact .inr ⟨fun texts same => none texts (Json.array.inj same), _,
          congrArg (Except.map some) fails, keyError_names ..⟩

theorem finds_nullable {get : Members → Str → Except IoError (Option α)} {make : α → Json}
    (found : members.lookup key = some value)
    (finds : Finds (fun a => value = make a) key (get members key)) :
    Finds (fun a : Option α => value = (a.map make).getD .null) key
      (getNullableField members key get) := by
  have present : value ≠ .null → Finds (fun a : Option α => value = (a.map make).getD .null) key
      ((get members key).map some) := by
    intro given
    rcases finds with ⟨a, read, meant⟩ | ⟨none, message, read, named⟩
    · exact .inl ⟨some a, by rw [read]; rfl, meant⟩
    · refine .inr ⟨fun a meant => ?_, message, by rw [read]; rfl, named⟩
      cases a with
      | none => exact given meant
      | some a => exact none a meant
  rw [getNullableField, found]
  cases value with
  | null => exact .inl ⟨none, rfl, rfl⟩
  | _ => exact present fun wrong => by cases wrong

theorem finds_word {parse : Str → Option α} {expected : Str}
    (found : members.lookup key = some value) :
    Finds (fun a => ∃ word, value = .string word ∧ parse word = some a) key
      (getWordField members key parse expected) := by
  rw [getWordField]
  rcases finds_string found with ⟨word, read, rfl⟩ | ⟨none, message, read, named⟩
  · rw [read]
    refine finds_orInvalid (List.infix_append _ _ _) fun {a} => ?_
    constructor
    · exact fun parsed => ⟨word, rfl, parsed⟩
    · rintro ⟨_, ⟨⟩, parsed⟩
      exact parsed
  · rw [read]
    refine .inr ⟨fun a meant => ?_, message, rfl, named⟩
    obtain ⟨word, same, -⟩ := meant
    exact none word same

/-- Every kind of setting is read as it is meant. -/
theorem SettingKind.finds (kind : SettingKind) (found : members.lookup key = some value) :
    Finds (kind.Means value) key (kind.read members key) := by
  cases kind with
  | string => exact finds_string found
  | bool =>
      rw [SettingKind.read, getBoolField, getField_eq found]
      exact finds_orInvalid (keyError_names ..) asBool_eq_some_iff
  | u16 => exact finds_u16 found
  | u64 =>
      rw [SettingKind.read, getU64Field, getField_eq found]
      exact finds_orInvalid (keyError_names ..) asU64_eq_some_iff
  | strings => exact finds_strings found
  | optionalString =>
      refine (finds_string found).map (fun text same => ⟨text, same, rfl⟩) ?_
      rintro _ ⟨text, same, -⟩
      exact ⟨text, same⟩
  | nullableString => exact finds_nullable found (finds_string found)
  | nullableU16 => exact finds_nullable found (finds_u16 found)
  | tlsProfile => exact finds_word found
  | policyMode =>
      refine (finds_word found).map ?_ ?_
      · rintro mode ⟨word, same, parsed⟩
        exact ⟨word, mode, same, parsed, rfl⟩
      · rintro _ ⟨word, mode, same, parsed, -⟩
        exact ⟨mode, word, same, parsed⟩

theorem SettingKind.read_absent (kind : SettingKind) (absent : members.lookup key = none) :
    kind.read members key = .ok none := by
  have missing : ∀ {α : Type} (read : Json → Except IoError α),
      getField read members key = .ok none := by
    intro α read
    rw [getField, absent]
  have word : ∀ {α : Type} (parse : Str → Option α) (expected : Str),
      getWordField members key parse expected = .ok none := by
    intro α parse expected
    rw [getWordField, getStringField, missing]
    rfl
  cases kind with
  | string | bool | u16 | u64 | strings => exact missing _
  | optionalString =>
      rw [SettingKind.read, getStringField, missing]
      rfl
  | nullableString | nullableU16 => rw [SettingKind.read, getNullableField, absent]
  | tlsProfile => exact word _ _
  | policyMode =>
      rw [SettingKind.read, word]
      rfl

end Readers

theorem nullable_inj {α : Type} {make : α → Json} (solid : ∀ a, make a ≠ .null)
    (inj : ∀ a b, make a = make b → a = b) {a b : Option α}
    (same : (a.map make).getD .null = (b.map make).getD .null) : a = b := by
  cases a with
  | none =>
      cases b with
      | none => rfl
      | some b => exact absurd same.symm (solid b)
  | some a =>
      cases b with
      | none => exact absurd same (solid a)
      | some b => rw [inj a b same]

/-- A value means one thing. -/
theorem SettingKind.Means.unique {kind : SettingKind} {value : Json} {found other : kind.Value}
    (meant : kind.Means value found) (meant' : kind.Means value other) : found = other := by
  cases kind with
  | string => exact Json.string.inj (meant.symm.trans meant')
  | bool => exact Json.bool.inj (meant.symm.trans meant')
  | u16 =>
      apply UInt16.toUInt64_inj.mp
      exact JsonNumber.posInt.inj (Json.number.inj (meant.symm.trans meant'))
  | u64 => exact JsonNumber.posInt.inj (Json.number.inj (meant.symm.trans meant'))
  | strings =>
      apply List.map_injective_iff.mpr (fun _ _ => Json.string.inj)
      exact Json.array.inj (meant.symm.trans meant')
  | optionalString =>
      obtain ⟨text, rfl, rfl⟩ := meant
      obtain ⟨_, ⟨⟩, rfl⟩ := meant'
      rfl
  | nullableString =>
      exact nullable_inj (fun _ wrong => by cases wrong) (fun _ _ => Json.string.inj)
        (meant.symm.trans meant')
  | nullableU16 =>
      refine nullable_inj (fun _ wrong => by cases wrong) (fun a b same => ?_)
        (meant.symm.trans meant')
      exact UInt16.toUInt64_inj.mp (JsonNumber.posInt.inj (Json.number.inj same))
  | tlsProfile =>
      obtain ⟨word, rfl, parsed⟩ := meant
      obtain ⟨_, ⟨⟩, parsed'⟩ := meant'
      exact Option.some.inj (parsed.symm.trans parsed')
  | policyMode =>
      obtain ⟨word, mode, rfl, parsed, rfl⟩ := meant
      obtain ⟨_, mode', ⟨⟩, parsed', rfl⟩ := meant'
      rw [parsed] at parsed'
      exact parsed'

/-! ## Files -/

namespace EngineConfig

/-- A file sets its keys to what the configuration holds and leaves the others at their defaults. -/
def Describes (members : Members) (cfg : EngineConfig) : Prop :=
  ∀ key : EngineKey,
    match members.lookup key.asStr with
    | none => cfg.value key = ({} : EngineConfig).value key
    | some value => key.kind.Means value (cfg.value key)

section Files

variable {members : Members} {cfg : EngineConfig}

theorem mem_all (key : EngineKey) : key ∈ EngineKey.all := by
  cases key <;> decide

theorem nodup_all : EngineKey.all.Nodup := by decide

/-- Every key that is read is allowed, and only `meta` is allowed without being read. -/
theorem allowedKeys_eq : allowedKeys = ascii "meta" :: EngineKey.all.map EngineKey.asStr := by
  decide

/-- A key is read as the file says. -/
theorem read_iff (key : EngineKey) (value : key.kind.Value) :
    (∃ found, key.read members = .ok found ∧
        value = found.getD (({} : EngineConfig).value key)) ↔
      match members.lookup key.asStr with
      | none => value = ({} : EngineConfig).value key
      | some given => key.kind.Means given value := by
  rw [EngineKey.read]
  cases listed : members.lookup key.asStr with
  | none =>
      rw [key.kind.read_absent listed]
      simp
  | some given =>
      rcases key.kind.finds listed with ⟨found, read, meant⟩ | ⟨none, message, read, -⟩
      · rw [read]
        constructor
        · rintro ⟨_, ⟨⟩, rfl⟩
          exact meant
        · intro meant'
          exact ⟨some found, rfl, meant'.unique meant⟩
      · rw [read]
        constructor
        · rintro ⟨_, ⟨⟩, -⟩
        · exact fun meant => absurd meant (none value)

theorem fromJsonValue_eq_ok_iff {parsed : Json} :
    fromJsonValue parsed = .ok cfg ↔ ∃ members, parsed = .object members ∧
      (∀ member ∈ members, member.1 ∈ allowedKeys) ∧ cfg.Describes members := by
  simp only [fromJsonValue, bind_eq_ok_iff, orInvalid_eq_ok_iff, asObject_eq_some_iff,
    rejectUnknown_eq_ok_iff, pure_eq_ok_iff, Settings.readAll_eq_ok_iff nodup_all, mem_all,
    not_true_eq_false, true_implies, false_implies, implies_true, and_true, read_iff]
  constructor
  · rintro ⟨members, rfl, -, known, values, meant, rfl⟩
    refine ⟨members, rfl, known, fun key => ?_⟩
    rw [value_ofValues]
    exact meant key
  · rintro ⟨members, rfl, known, described⟩
    exact ⟨members, rfl, (), known, cfg.value, described, ofValues_value cfg⟩

/-- A file is accepted exactly when it holds a JSON object whose keys are all known and whose values
all mean something for their keys; every key then has what its value means, or its default. -/
theorem loadFromFile_eq_ok_iff (serde : Serde) (path : FilePath) (disk : Disk)
    (cfg : EngineConfig) :
    loadFromFile serde path disk = .ok cfg ↔
      ∃ raw members, readDisk disk path = .ok raw ∧ serde.fromStr raw = .ok (.object members) ∧
        (∀ member ∈ members, member.1 ∈ allowedKeys) ∧ cfg.Describes members := by
  simp only [loadFromFile, bind_eq_ok_iff, mapError_eq_ok_iff, fromJsonValue_eq_ok_iff]
  constructor
  · rintro ⟨raw, read, _, parses, members, rfl, described⟩
    exact ⟨raw, members, read, parses, described⟩
  · rintro ⟨raw, members, read, parses, described⟩
    exact ⟨raw, read, _, parses, members, rfl, described⟩

theorem rejectUnknown_eq_error {allowed : List Str} {message : Str → Str} {error : IoError}
    (refused : rejectUnknown allowed members message = .error error) :
    ∃ member ∈ members, member.1 ∉ allowed ∧ error = invalidData (message member.1) := by
  rw [rejectUnknown] at refused
  cases found : members.find? fun member => !allowed.contains member.1 with
  | none =>
      rw [found] at refused
      cases refused
  | some member =>
      rw [found] at refused
      cases refused
      have unknown := List.find?_some found
      exact ⟨member, List.mem_of_find?_eq_some found, by simpa using unknown, rfl⟩

/-- A key that is refused is set to something without a meaning, and named. -/
theorem read_eq_error {key : EngineKey} {error : IoError}
    (refused : key.read members = .error error) :
    ∃ given, members.lookup key.asStr = some given ∧ (∀ value, ¬ key.kind.Means given value) ∧
      error.kind = .invalidData ∧ key.asStr <:+: error.message := by
  rw [EngineKey.read] at refused
  cases listed : members.lookup key.asStr with
  | none => cases (key.kind.read_absent listed).symm.trans refused
  | some given =>
      rcases key.kind.finds listed with ⟨found, read, -⟩ | ⟨none, message, read, named⟩
      · cases read.symm.trans refused
      · cases read.symm.trans refused
        exact ⟨given, rfl, none, rfl, named⟩

/-- The error of a file that is refused names one of its keys: an unknown one, if there is any, and
otherwise one whose value means nothing. -/
theorem refusal_names_key {serde : Serde} {path : FilePath} {disk : Disk} {raw : Str}
    {error : IoError} (read : readDisk disk path = .ok raw)
    (parses : serde.fromStr raw = .ok (.object members))
    (refused : loadFromFile serde path disk = .error error) :
    error.kind = .invalidData ∧ ∃ member ∈ members, member.1 <:+: error.message ∧
      if ∃ other ∈ members, other.1 ∉ allowedKeys then member.1 ∉ allowedKeys
      else ∃ key : EngineKey, member.1 = key.asStr ∧ ∀ value, ¬ key.kind.Means member.2 value := by
  have refused : fromJsonValue (.object members) = .error error := by
    rw [← refused, loadFromFile, read]
    simp only [ok_bind, parses, Except.mapError]
  rw [fromJsonValue] at refused
  cases known : rejectUnknown allowedKeys members fun key =>
      ascii "unknown engine config key: " ++ quoted key with
  | error unknown =>
      rw [Json.asObject, orInvalid, ok_bind, known] at refused
      cases refused
      obtain ⟨member, mem, foreign, rfl⟩ := rejectUnknown_eq_error known
      refine ⟨rfl, member, mem, ?_, ?_⟩
      · exact ⟨ascii "unknown engine config key: " ++ [39], [39],
          by simp [invalidData, quoted, ascii]⟩
      · rw [if_pos ⟨member, mem, foreign⟩]
        exact foreign
  | ok done =>
      have none_foreign : ¬ ∃ other ∈ members, other.1 ∉ allowedKeys := by
        rintro ⟨other, mem, foreign⟩
        exact foreign (rejectUnknown_eq_ok_iff.mp known other mem)
      rw [Json.asObject, orInvalid, ok_bind, known, ok_bind] at refused
      cases values : Settings.readAll (EngineKey.read members) EngineKey.all
        ({} : EngineConfig).value with
      | ok values' =>
          rw [values] at refused
          cases refused
      | error first =>
          rw [values] at refused
          cases refused
          obtain ⟨front, key, back, -, -, fails⟩ := Settings.readAll_eq_error_iff.mp values
          obtain ⟨given, listed, none, kind, named⟩ := read_eq_error fails
          obtain ⟨before, behind, rfl, -⟩ := List.lookup_eq_some_iff.mp listed
          refine ⟨kind, (key.asStr, given), by simp, named, ?_⟩
          rw [if_neg none_foreign]
          exact ⟨key, rfl, none⟩

def sampleDocument : Json := .object [(ascii "nope", .bool true)]

/-- A file with an unknown key. -/
theorem sampleDocument_refused :
    ∃ error, loadFromFile Json.closedSerde (.join [] (ascii "engine.json"))
        (fun _ => some (Json.closedSerde.toStringPretty sampleDocument)) = .error error ∧
      ascii "nope" <:+: error.message := by
  have canonical : sampleDocument.Canonical 127 :=
    .object (List.pairwise_singleton ..) (List.forall_mem_singleton.mpr (.bool true))
  have parses := Json.closedSerde.fromStr_toStringPretty _ canonical
  cases loads : loadFromFile Json.closedSerde (.join [] (ascii "engine.json"))
      (fun _ => some (Json.closedSerde.toStringPretty sampleDocument)) with
  | ok cfg =>
      obtain ⟨raw, members, read, parses', known, -⟩ := (loadFromFile_eq_ok_iff ..).mp loads
      cases (readDisk_pretty rfl).symm.trans read
      cases parses.symm.trans parses'
      exact absurd (known _ (List.mem_singleton_self _)) (by decide)
  | error error =>
      obtain ⟨-, member, mem, named, -⟩ := refusal_names_key (readDisk_pretty rfl) parses loads
      cases List.mem_singleton.mp mem
      exact ⟨error, rfl, named⟩

end Files

end EngineConfig

/-! ## Writing a configuration -/

def TlsProfile.asStr : TlsProfile → Str
  | default => ascii "default"
  | chrome => ascii "chrome"

/-- The value that sets a key, unless only leaving it out does. -/
def SettingKind.write : (kind : SettingKind) → kind.Value → Option Json
  | .string, text => some (.string text)
  | .bool, flag => some (.bool flag)
  | .u16, n => some (.number (.posInt n.toUInt64))
  | .u64, n => some (.number (.posInt n))
  | .strings, texts => some (.array (texts.map .string))
  | .optionalString, text => text.map .string
  | .nullableString, text => some ((text.map .string).getD .null)
  | .nullableU16, n => some ((n.map fun n => .number (.posInt n.toUInt64)).getD .null)
  | .tlsProfile, profile => some (.string profile.asStr)
  | .policyMode, mode => mode.map fun mode => .string mode.asStr

theorem SettingKind.means_of_write {kind : SettingKind} {value : kind.Value} {json : Json}
    (writes : kind.write value = some json) : kind.Means json value := by
  cases kind with
  | string | bool | u16 | u64 | strings | nullableString | nullableU16 =>
      exact (Option.some.inj writes).symm
  | optionalString =>
      obtain ⟨text, rfl, same⟩ := Option.map_eq_some_iff.mp writes
      exact ⟨text, same.symm, rfl⟩
  | tlsProfile =>
      refine ⟨value.asStr, (Option.some.inj writes).symm, ?_⟩
      cases value <;> decide
  | policyMode =>
      obtain ⟨mode, rfl, same⟩ := Option.map_eq_some_iff.mp writes
      refine ⟨mode.asStr, mode, same.symm, ?_, rfl⟩
      cases mode <;> decide

theorem SettingKind.canonical_of_write {kind : SettingKind} {value : kind.Value} {json : Json}
    (writes : kind.write value = some json) : json.Canonical 126 := by
  cases kind with
  | string | bool | u16 | u64 | tlsProfile =>
      cases writes
      constructor
  | strings =>
      cases writes
      refine .array fun item mem => ?_
      obtain ⟨text, -, rfl⟩ := List.mem_map.mp mem
      exact .string text
  | optionalString | policyMode =>
      obtain ⟨_, -, rfl⟩ := Option.map_eq_some_iff.mp writes
      exact .string _
  | nullableString | nullableU16 =>
      cases writes
      cases value <;> constructor

theorem ne_of_compare_lt {text other : Str} (below : compare text other = .lt) : text ≠ other := by
  rintro rfl
  have self : compare text text = .eq := Std.ReflCmp.compare_self
  cases self.symm.trans below

namespace EngineKey

/-- In the order of an ordered map. -/
def sorted : List EngineKey :=
  [certLogFile, certPinFile, dashboardPort, dnsListenHost, dnsListenPort, dnsUpstream,
    dnsUpstreamDoh, dohServerCertFile, dohServerKeyFile, dohServerPort, enableDnsFilter,
    enableMitm, filterListCacheDir, filterListDownloadTimeoutSecs, filterListFile,
    filterListRefreshSecs, filterListUrl, listenHost, listenPort, metricsLogIntervalSecs,
    mitmCaCertFile, mitmCaExportCertFile, mitmCaGenerateIfMissing, mitmCaKeyFile, pinnedHostsFile,
    policyConfigFile, policyMode, policyReloadIntervalSecs, receiptsFile,
    receiptsFlushIntervalSecs, tlsProfile]

theorem increasing_sorted : Json.increasing (sorted.map asStr) = true := by decide +kernel

theorem mem_sorted (key : EngineKey) : key ∈ sorted := by
  cases key <;> decide

theorem asStr_injective : Function.Injective asStr := by
  intro key other same
  have distinct : (sorted.map asStr).Nodup :=
    (Json.pairwise_of_increasing increasing_sorted).imp ne_of_compare_lt
  exact List.inj_on_of_nodup_map distinct (mem_sorted key) (mem_sorted other) same

end EngineKey

namespace EngineConfig

/-- The member of a key, when it has one. -/
def member (cfg : EngineConfig) (key : EngineKey) : Option (Str × Json) :=
  (key.kind.write (cfg.value key)).map fun json => (key.asStr, json)

def toJsonValue (cfg : EngineConfig) : Json := .object (EngineKey.sorted.filterMap cfg.member)

section Writing

variable {cfg : EngineConfig}

theorem mem_members {entry : Str × Json} (mem : entry ∈ EngineKey.sorted.filterMap cfg.member) :
    ∃ key : EngineKey, key.kind.write (cfg.value key) = some entry.2 ∧ key.asStr = entry.1 := by
  obtain ⟨key, -, listed⟩ := List.mem_filterMap.mp mem
  obtain ⟨json, writes, rfl⟩ := Option.map_eq_some_iff.mp listed
  exact ⟨key, writes, rfl⟩

theorem sorted_members :
    (EngineKey.sorted.filterMap cfg.member).Pairwise fun a b => compare a.1 b.1 = .lt := by
  have sorted := List.pairwise_map.mp (Json.pairwise_of_increasing EngineKey.increasing_sorted)
  refine sorted.filterMap cfg.member ?_
  intro key other below entry listed entry' listed'
  obtain ⟨json, -, rfl⟩ := Option.map_eq_some_iff.mp listed
  obtain ⟨json', -, rfl⟩ := Option.map_eq_some_iff.mp listed'
  exact below

/-- A key that only leaving it out sets is none by default. -/
theorem value_of_write_none {key : EngineKey} (writes : key.kind.write (cfg.value key) = none) :
    cfg.value key = ({} : EngineConfig).value key := by
  cases key with
  | dnsUpstreamDoh => exact Option.map_eq_none_iff.mp writes
  | policyMode => exact Option.map_eq_none_iff.mp writes
  | _ => cases writes

theorem describes_members : cfg.Describes (EngineKey.sorted.filterMap cfg.member) := by
  intro key
  cases writes : key.kind.write (cfg.value key) with
  | none =>
      have absent : (EngineKey.sorted.filterMap cfg.member).lookup key.asStr = none := by
        refine List.lookup_eq_none_iff.mpr fun entry mem => ?_
        obtain ⟨other, writes', named⟩ := mem_members mem
        refine bne_iff_ne.mpr fun same => ?_
        cases EngineKey.asStr_injective (same.trans named.symm)
        cases writes.symm.trans writes'
      rw [absent]
      exact value_of_write_none writes
  | some json =>
      have mem : (key.asStr, json) ∈ EngineKey.sorted.filterMap cfg.member :=
        List.mem_filterMap.mpr ⟨key, key.mem_sorted, by rw [member, writes, Option.map_some]⟩
      have distinct : ((EngineKey.sorted.filterMap cfg.member).map (·.1)).Nodup :=
        List.pairwise_map.mpr (sorted_members.imp ne_of_compare_lt)
      rw [Json.lookup_of_mem_of_nodup distinct mem]
      exact SettingKind.means_of_write writes

theorem canonical_toJsonValue : cfg.toJsonValue.Canonical 127 := by
  refine .object sorted_members fun entry mem => ?_
  obtain ⟨key, writes, -⟩ := mem_members mem
  exact SettingKind.canonical_of_write writes

/-- A configuration that is written to a file is what is loaded from it. -/
theorem loadFromFile_written (serde : Serde) {path : FilePath} {disk : Disk}
    (holds : disk path = some (serde.toStringPretty cfg.toJsonValue)) :
    loadFromFile serde path disk = .ok cfg := by
  apply (loadFromFile_eq_ok_iff serde path disk cfg).mpr
  refine ⟨_, _, readDisk_pretty holds, serde.fromStr_toStringPretty _ canonical_toJsonValue, ?_, ?_⟩
  · intro entry mem
    obtain ⟨key, -, named⟩ := mem_members mem
    rw [← named, allowedKeys_eq]
    exact List.mem_cons_of_mem _ (List.mem_map_of_mem (mem_all key))
  · exact describes_members

end Writing

/-- An interception on another port, with one list and the dashboard. -/
def sampleConfig : EngineConfig where
  listenPort := 18081
  enableMitm := true
  tlsProfile := .chrome
  policyMode := some .reportOnly
  filterListFile := [ascii "/tmp/easylist.txt"]
  dashboardPort := some 9090

theorem sampleConfig_loads :
    loadFromFile Json.closedSerde (.join [] (ascii "engine.json"))
      (fun _ => some (Json.closedSerde.toStringPretty sampleConfig.toJsonValue)) =
        .ok sampleConfig :=
  loadFromFile_written Json.closedSerde rfl

end EngineConfig

end PrivacyEngine
