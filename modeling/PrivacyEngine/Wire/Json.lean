import Mathlib.Data.List.Sort
import PrivacyEngine.Wire.Text

/-!
# JSON values

Values as a reader hands them over, the questions one asks of a value, and the printer and the
reader themselves as parameters.  An object lists its members; a canonical value lists them in
increasing order of their keys, the way ordered maps are iterated.
-/

namespace Wire

inductive JsonNumber where
  | posInt (value : UInt64)
  | negInt (value : Int64)
  | float (bits : UInt64)
  deriving DecidableEq

inductive Json where
  | null
  | bool (value : Bool)
  | number (value : JsonNumber)
  | string (value : Str)
  | array (items : List Json)
  | object (members : List (Str × Json))

namespace Json

def asObject : Json → Option (List (Str × Json))
  | object members => some members
  | _ => none

def asArray : Json → Option (List Json)
  | array items => some items
  | _ => none

def asStr : Json → Option Str
  | string value => some value
  | _ => none

def asBool : Json → Option Bool
  | bool value => some value
  | _ => none

def asU64 : Json → Option UInt64
  | number (.posInt value) => some value
  | _ => none

/-- The member of an object under a key. -/
def get (value : Json) (key : Str) : Option Json :=
  value.asObject.bind fun members => members.lookup key

/-- The object that a map holds once it has been filled with members one after the other; of two
with the same key the later one counts. -/
def ofMembers (members : List (Str × Json)) : Json :=
  object (Std.ExtTreeMap.ofList members compare).toList

/-- An object without a key. -/
def remove (value : Json) (key : Str) : Json :=
  match value with
  | object members => object (members.filter fun member => member.1 ≠ key)
  | value => value

/-- An object with another value under a key that it has. -/
def replace (value : Json) (key : Str) (other : Json) : Json :=
  match value with
  | object members =>
      object (members.map fun member => if member.1 = key then (key, other) else member)
  | value => value

/-- The strings of an array of strings. -/
def asStrings (value : Json) : Option (List Str) :=
  value.asArray.bind fun items => items.mapM asStr

/-- Members in increasing order of their keys, no floating-point numbers, and at most the given
depth. -/
inductive Canonical : Nat → Json → Prop
  | null {depth : Nat} : Canonical depth null
  | bool {depth : Nat} (value : Bool) : Canonical depth (bool value)
  | posInt {depth : Nat} (value : UInt64) : Canonical depth (number (.posInt value))
  | negInt {depth : Nat} (value : Int64) : Canonical depth (number (.negInt value))
  | string {depth : Nat} (value : Str) : Canonical depth (string value)
  | array {depth : Nat} {items : List Json} (each : ∀ item ∈ items, Canonical depth item) :
      Canonical (depth + 1) (array items)
  | object {depth : Nat} {members : List (Str × Json)}
      (sorted : members.Pairwise fun a b => compare a.1 b.1 = .lt)
      (each : ∀ member ∈ members, Canonical depth member.2) : Canonical (depth + 1) (object members)

/-- No object in the value lists a key twice, as it is with the maps that readers fill. -/
inductive DistinctKeys : Json → Prop
  | null : DistinctKeys null
  | bool (value : Bool) : DistinctKeys (bool value)
  | number (value : JsonNumber) : DistinctKeys (number value)
  | string (value : Str) : DistinctKeys (string value)
  | array {items : List Json} (each : ∀ item ∈ items, DistinctKeys item) :
      DistinctKeys (array items)
  | object {members : List (Str × Json)} (distinct : (members.map (·.1)).Nodup)
      (each : ∀ member ∈ members, DistinctKeys member.2) : DistinctKeys (object members)

theorem DistinctKeys.object_inv {members : List (Str × Json)}
    (value : (Json.object members).DistinctKeys) :
    (members.map (·.1)).Nodup ∧ ∀ member ∈ members, member.2.DistinctKeys := by
  cases value with
  | object distinct each => exact ⟨distinct, each⟩

/-- Each text is smaller than the next one. -/
def increasing : List Str → Bool
  | [] | [_] => true
  | first :: second :: rest => compare first second == .lt && increasing (second :: rest)

theorem pairwise_of_increasing {texts : List Str} (each : increasing texts = true) :
    texts.Pairwise fun a b => compare a b = .lt := by
  fun_induction increasing texts with
  | case1 => exact .nil
  | case2 text => exact List.pairwise_singleton _ text
  | case3 first second rest ih =>
      obtain ⟨below, later⟩ : compare first second = .lt ∧ increasing (second :: rest) = true := by
        simpa using each
      have sorted := ih later
      refine List.pairwise_cons.mpr ⟨fun text mem => ?_, sorted⟩
      rcases List.mem_cons.mp mem with rfl | mem
      · exact below
      · exact Std.TransCmp.lt_trans below (List.rel_of_pairwise_cons sorted mem)

/-- An object whose keys are in increasing order. -/
theorem Canonical.object_of_keys {depth : Nat} {members : List (Str × Json)}
    (sorted : increasing (members.map (·.1)) = true)
    (each : ∀ member ∈ members, Canonical depth member.2) :
    Canonical (depth + 1) (.object members) :=
  .object (List.pairwise_map.mp (pairwise_of_increasing sorted)) each

theorem lookup_of_mem_of_nodup {α : Type} {members : List (Str × α)}
    (distinct : (members.map (·.1)).Nodup) {key : Str} {value : α}
    (mem : (key, value) ∈ members) : members.lookup key = some value := by
  induction members with
  | nil => cases mem
  | cons member members ih =>
      obtain ⟨fresh, distinct⟩ := List.nodup_cons.mp distinct
      rcases List.mem_cons.mp mem with rfl | mem
      · exact List.lookup_cons_self
      · have other : key ≠ member.1 := by
          rintro rfl
          exact fresh (List.mem_map.mpr ⟨_, mem, rfl⟩)
        rw [List.lookup_cons, beq_eq_false_iff_ne.mpr other]
        exact ih distinct mem

theorem get_remove (value : Json) (key asked : Str) :
    (value.remove key).get asked = if asked = key then none else value.get asked := by
  cases value with
  | object members =>
      simp only [remove, get, asObject, Option.bind_some]
      induction members with
      | nil => simp
      | cons member members ih =>
          obtain ⟨name, value⟩ := member
          by_cases here : asked = name
          · subst here
            by_cases removed : asked = key
            · rw [List.filter_cons_of_neg (by simpa using removed), ih, if_pos removed,
                if_pos removed]
            · rw [List.filter_cons_of_pos (by simpa using removed), if_neg removed,
                List.lookup_cons_self, List.lookup_cons_self]
          · have other : (asked == name) = false := beq_eq_false_iff_ne.mpr here
            by_cases removed : name = key
            · rw [List.filter_cons_of_neg (by simpa using removed), ih, List.lookup_cons, other]
            · rw [List.filter_cons_of_pos (by simpa using removed), List.lookup_cons,
                List.lookup_cons, other]
              exact ih
  | _ => simp [remove, get, asObject]

theorem get_replace (value : Json) (key asked : Str) (other : Json) :
    (value.replace key other).get asked =
      if asked = key then (value.get asked).map fun _ => other else value.get asked := by
  cases value with
  | object members =>
      simp only [replace, get, asObject, Option.bind_some]
      induction members with
      | nil => simp
      | cons member members ih =>
          obtain ⟨name, value⟩ := member
          rw [List.map_cons]
          by_cases here : asked = name
          · subst here
            by_cases replaced : asked = key
            · subst replaced
              simp only [if_true, List.lookup_cons_self, Option.map_some]
            · simp only [if_neg replaced, List.lookup_cons_self]
          · have kept : (asked == if name = key then key else name) = false := by
              refine beq_eq_false_iff_ne.mpr ?_
              split
              · rename_i replaced
                exact replaced ▸ here
              · exact here
            have split_pair : (if name = key then (key, other) else (name, value)) =
                (if name = key then key else name, if name = key then other else value) := by
              split <;> rfl
            simp only [split_pair, List.lookup_cons, kept, beq_eq_false_iff_ne.mpr here]
            exact ih
  | _ => simp [replace, get, asObject]

theorem eq_of_increasing {members members' : List (Str × Json)}
    (increasing : members.Pairwise fun a b => compare a.1 b.1 = .lt)
    (increasing' : members'.Pairwise fun a b => compare a.1 b.1 = .lt)
    (same : ∀ member, member ∈ members ↔ member ∈ members') : members = members' := by
  have irrefl : Std.Irrefl fun a b : Str × Json => compare a.1 b.1 = .lt := by
    refine ⟨fun member below => ?_⟩
    have self : compare member.1 member.1 = .eq := Std.ReflCmp.compare_self
    rw [self] at below
    cases below
  have antisymm : Std.Antisymm fun a b : Str × Json => compare a.1 b.1 = .lt := by
    refine ⟨fun a b below above => ?_⟩
    rw [Std.OrientedCmp.gt_of_lt below] at above
    cases above
  exact increasing.eq_of_mem_iff increasing' same

/-- Members are listed in the order of their keys, in whatever order the map has been filled. -/
theorem ofMembers_eq_of_perm {members sorted : List (Str × Json)} (perm : members.Perm sorted)
    (increasing : sorted.Pairwise fun a b => compare a.1 b.1 = .lt) :
    ofMembers members = object sorted := by
  have distinct : members.Pairwise fun a b => ¬ compare a.1 b.1 = .eq := by
    refine perm.symm.pairwise (increasing.imp fun below same => ?_) fun {a b} differ same => ?_
    · rw [below] at same
      cases same
    · exact differ (Std.OrientedCmp.eq_symm same)
  rw [ofMembers, eq_of_increasing Std.ExtTreeMap.ordered_keys_toList increasing fun member => ?_]
  rw [← perm.mem_iff]
  constructor
  · intro listed
    have held := Std.ExtTreeMap.mem_toList_iff_getElem?_eq_some.mp listed
    by_cases named : (members.map Prod.fst).contains member.1 = true
    · obtain ⟨⟨key, value⟩, mem, same⟩ := List.mem_map.mp (List.contains_iff_mem.mp named)
      change key = member.1 at same
      subst same
      have filled : (Std.ExtTreeMap.ofList members compare)[member.1]? = some value :=
        Std.ExtTreeMap.getElem?_ofList_of_mem Std.ReflCmp.compare_self distinct mem
      rw [held] at filled
      cases filled
      exact mem
    · rw [Std.ExtTreeMap.getElem?_ofList_of_contains_eq_false (by simpa using named)] at held
      cases held
  · intro mem
    exact Std.ExtTreeMap.mem_toList_iff_getElem?_eq_some.mpr
      (Std.ExtTreeMap.getElem?_ofList_of_mem Std.ReflCmp.compare_self distinct mem)

theorem filterMap_asStr_map_string (texts : List Str) :
    (texts.map Json.string).filterMap asStr = texts := by
  rw [List.filterMap_map]
  exact List.filterMap_some

end Json

/-- A library that prints and reads JSON texts.  It reads back what it has printed, as long as the
value is no deeper than its reader goes. -/
structure Serde where
  fromStr : Str → Except Str Json
  /-- The error for a text that holds a value of another type than the one asked for. -/
  typeError : Str → Str
  toStringPretty : Json → Str
  valid_toStringPretty (value : Json) : Utf8.valid (toStringPretty value) = true
  fromStr_toStringPretty (value : Json) :
    value.Canonical 127 → fromStr (toStringPretty value) = .ok value

/-- A library that reads no object whose text has been cut short. -/
def Serde.RejectsCut (serde : Serde) : Prop :=
  ∀ members count value, count < (serde.toStringPretty (.object members)).length →
    Utf8.valid ((serde.toStringPretty (.object members)).take count) = true →
      serde.fromStr ((serde.toStringPretty (.object members)).take count) ≠ .ok value

/-- Read an array of strings. -/
def Serde.stringsFromStr (serde : Serde) (raw : Str) : Except Str (List Str) := do
  let value ← serde.fromStr raw
  match value.asStrings with
  | some strings => return strings
  | none => .error (serde.typeError raw)

end Wire
