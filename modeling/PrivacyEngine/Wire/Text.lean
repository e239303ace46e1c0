import Mathlib.Data.List.Basic
import Mathlib.Data.List.DropRight
import PrivacyEngine.Wire.Search
import PrivacyEngine.Wire.Utf8

/-!
# Texts as bytes

A text is the list of its UTF-8 bytes.  The operations below follow the standard string library of
the modelled language: ASCII case folding, trimming of Unicode white space, splitting at the first
separator, checked slices, and parsing of unsigned 64-bit integers.
-/

namespace Wire

/-- A byte string. -/
abbrev Bytes := List UInt8

/-- A text, given by its UTF-8 bytes. -/
abbrev Str := List UInt8

instance Str.lawfulBEq : LawfulBEq Str := List.instLawfulBEq

/-- The bytes of an ASCII literal. -/
def ascii (s : String) : Bytes := s.toList.map fun c => c.toNat.toUInt8

/-- Carriage return followed by line feed. -/
def crlf : Bytes := [13, 10]

/-- Two line ends in a row. -/
def crlfcrlf : Bytes := [13, 10, 13, 10]

/-- The first value that does not fit an unsigned 64-bit integer. -/
def usizeBound : Nat := UInt64.size

def checkedAdd (m n : Nat) : Option Nat := if m + n < usizeBound then some (m + n) else none

/-- The slice from an index on, when the index is in range. -/
def sliceFrom (s : Bytes) (start : Nat) : Option Bytes :=
  if start ≤ s.length then some (s.drop start) else none

/-- The slice before an index, when the index is in range. -/
def sliceTo (s : Bytes) (stop : Nat) : Option Bytes :=
  if stop ≤ s.length then some (s.take stop) else none

/-- The slice between two indices, when both are in range. -/
def slice (s : Bytes) (start stop : Nat) : Option Bytes :=
  if start ≤ stop ∧ stop ≤ s.length then some ((s.take stop).drop start) else none

/-- Strict decoding: the text itself when it is well-formed. -/
def fromUtf8 (s : Bytes) : Option Str := if Utf8.valid s then some s else none

/-- Whether `pat` occurs in `s`. -/
def contains (s pat : Str) : Bool := (findSub pat s).isSome

/-- Cut at the first occurrence of a separator byte. -/
def splitOnce (sep : UInt8) : Str → Option (Str × Str)
  | [] => none
  | b :: rest =>
      if b = sep then some ([], rest)
      else (splitOnce sep rest).map fun (key, value) => (b :: key, value)

/-! ## ASCII case -/

def asciiLower (b : UInt8) : UInt8 := if 65 ≤ b ∧ b ≤ 90 then b + 32 else b

def toAsciiLowercase (s : Str) : Str := s.map asciiLower

def eqIgnoreAsciiCase (s t : Str) : Bool := toAsciiLowercase s == toAsciiLowercase t

/-- Whether the lower-cased text starts with a literal. -/
def startsWithLower (s lit : Str) : Bool := lit.isPrefixOf (toAsciiLowercase s)

/-! ## White space -/

def isWhitespace₁ (a : UInt8) : Bool := (9 ≤ a && a ≤ 13) || a == 32

def isWhitespace₂ (a b : UInt8) : Bool := a == 0xC2 && (b == 0x85 || b == 0xA0)

def isWhitespace₃ (a b c : UInt8) : Bool :=
  (a == 0xE1 && b == 0x9A && c == 0x80) ||
    (a == 0xE2 && b == 0x80 &&
      ((0x80 ≤ c && c ≤ 0x8A) || c == 0xA8 || c == 0xA9 || c == 0xAF)) ||
    (a == 0xE2 && b == 0x81 && c == 0x9F) || (a == 0xE3 && b == 0x80 && c == 0x80)

/-- Drop characters of one, two and three bytes from the front while the tests accept them. -/
def dropSpaces (one : UInt8 → Bool) (two : UInt8 → UInt8 → Bool)
    (three : UInt8 → UInt8 → UInt8 → Bool) : Str → Str
  | [] => []
  | [a] => if one a then [] else [a]
  | [a, b] => if one a then dropSpaces one two three [b] else if two a b then [] else [a, b]
  | a :: b :: c :: rest =>
      if one a then dropSpaces one two three (b :: c :: rest)
      else if two a b then dropSpaces one two three (c :: rest)
      else if three a b c then dropSpaces one two three rest
      else a :: b :: c :: rest

def trimStart (s : Str) : Str := dropSpaces isWhitespace₁ isWhitespace₂ isWhitespace₃ s

/-- Trimming at the end reads every character backwards. -/
def trimEnd (s : Str) : Str :=
  (dropSpaces isWhitespace₁ (fun b a => isWhitespace₂ a b) (fun c b a => isWhitespace₃ a b c)
    s.reverse).reverse

def trim (s : Str) : Str := trimEnd (trimStart s)

def trimEndMatches (c : UInt8) (s : Str) : Str := s.rdropWhile (· == c)

/-! ## Unsigned integers -/

/-- `u64::saturating_add`. -/
def saturatingAdd (m n : UInt64) : UInt64 :=
  if m.toNat + n.toNat < UInt64.size then m + n else UInt64.ofNat (UInt64.size - 1)

/-- `u64::saturating_sub`. -/
def saturatingSub (m n : UInt64) : UInt64 := if n ≤ m then m - n else 0

theorem toNat_saturatingAdd {m n : UInt64} (fits : m.toNat + n.toNat < UInt64.size) :
    (saturatingAdd m n).toNat = m.toNat + n.toNat := by
  rw [saturatingAdd, if_pos fits, UInt64.toNat_add]
  exact Nat.mod_eq_of_lt fits

def digitValue (radix : Nat) (b : UInt8) : Option Nat :=
  let value :=
    if 48 ≤ b ∧ b ≤ 57 then some (b.toNat - 48)
    else if 97 ≤ b ∧ b ≤ 122 then some (b.toNat - 87)
    else if 65 ≤ b ∧ b ≤ 90 then some (b.toNat - 55)
    else none
  value.filter (· < radix)

/-- Read digits from the left, failing on an unknown digit or on overflow. -/
def readDigits (radix : Nat) : Nat → Str → Option Nat
  | acc, [] => some acc
  | acc, b :: rest =>
      match digitValue radix b with
      | none => none
      | some v =>
          if acc * radix + v < usizeBound then readDigits radix (acc * radix + v) rest else none

/-- Parse an unsigned integer with an optional leading plus sign and at least one digit. -/
def fromStrRadix (radix : Nat) (s : Str) : Option Nat :=
  match s with
  | [] => none
  | b :: rest =>
      if b = 43 then (if rest = [] then none else readDigits radix 0 rest)
      else readDigits radix 0 s

/-- Decimal digits. -/
def decimal (n : Nat) : Str := (Nat.toDigits 10 n).map fun c => c.toNat.toUInt8

/-! ## Facts used by readers of header lines -/

theorem crlf_ne_nil : crlf ≠ [] := by decide

theorem crlfcrlf_ne_nil : crlfcrlf ≠ [] := by decide

theorem sliceFrom_eq_some {s : Bytes} {start : Nat} (in_range : start ≤ s.length) :
    sliceFrom s start = some (s.drop start) := if_pos in_range

theorem sliceTo_eq_some {s : Bytes} {stop : Nat} (in_range : stop ≤ s.length) :
    sliceTo s stop = some (s.take stop) := if_pos in_range

theorem splitOnce_eq_some_iff {sep : UInt8} {s key value : Str} :
    splitOnce sep s = some (key, value) ↔ s = key ++ sep :: value ∧ sep ∉ key := by
  induction s generalizing key with
  | nil => simp [splitOnce]
  | cons b s ih =>
      rw [splitOnce]
      split
      · rename_i hit
        subst hit
        cases key with
        | nil => simp
        | cons k key =>
            simp only [Option.some.injEq, Prod.mk.injEq, List.cons_append, List.cons.injEq,
              List.mem_cons, not_or]
            exact ⟨fun same => absurd same.1 (by simp), fun same => absurd same.1.1 same.2.1⟩
      · rename_i miss
        cases key with
        | nil =>
            simp only [Option.map_eq_some_iff, Prod.mk.injEq, reduceCtorEq, false_and,
              and_false, exists_false, List.nil_append, List.cons.injEq, List.not_mem_nil,
              not_false_eq_true, and_true, false_iff]
            exact fun same => miss same.1
        | cons k key =>
            simp only [Option.map_eq_some_iff, Prod.exists, Prod.mk.injEq, List.cons.injEq,
              List.cons_append, List.mem_cons, not_or]
            constructor
            · rintro ⟨key', value', cut, ⟨rfl, rfl⟩, rfl⟩
              obtain ⟨rfl, absent⟩ := ih.mp cut
              exact ⟨⟨rfl, rfl⟩, Ne.symm miss, absent⟩
            · rintro ⟨⟨rfl, rfl⟩, -, absent⟩
              exact ⟨key, value, ih.mpr ⟨rfl, absent⟩, ⟨rfl, rfl⟩, rfl⟩

theorem splitOnce_eq_none_iff {sep : UInt8} {s : Str} : splitOnce sep s = none ↔ sep ∉ s := by
  induction s with
  | nil => simp [splitOnce]
  | cons b s ih =>
      rw [splitOnce]
      by_cases hit : b = sep
      · simp [hit]
      · rw [if_neg hit, Option.map_eq_none_iff, ih, List.mem_cons, not_or]
        exact (and_iff_right (Ne.symm hit)).symm

theorem decimal_digit {n : Nat} {b : UInt8} (mem : b ∈ decimal n) : 48 ≤ b ∧ b ≤ 57 := by
  obtain ⟨c, c_mem, rfl⟩ := List.mem_map.mp mem
  have digit := Nat.isDigit_of_mem_toDigits (by decide) (by decide) c_mem
  have bounds : 48 ≤ c.toNat ∧ c.toNat ≤ 57 := by
    simpa [Char.isDigit, UInt32.le_iff_toNat_le] using digit
  have small : c.toNat < 256 := by omega
  simp only [UInt8.le_iff_toNat_le, Nat.toUInt8, UInt8.toNat_ofNat', Nat.mod_eq_of_lt small]
  simpa using bounds

/-- Lossy decoding keeps ASCII texts. -/
theorem lossy_of_ascii {s : Str} (all_ascii : ∀ b ∈ s, b < 0x80) : Utf8.lossy s = s := by
  induction s with
  | nil => rfl
  | cons b s ih =>
      rw [Utf8.lossy_cons_ascii (all_ascii b List.mem_cons_self),
        ih fun c mem => all_ascii c (List.mem_cons_of_mem _ mem)]

/-- Decoding that yields an ASCII text has changed nothing. -/
theorem lossy_eq_self_of_ascii {s : Str} (all_ascii : ∀ b ∈ Utf8.lossy s, b < 0x80) :
    Utf8.lossy s = s := by
  generalize decoded : Utf8.lossy s = t at all_ascii
  induction t generalizing s with
  | nil => exact (Utf8.lossy_eq_nil decoded).symm
  | cons b t ih =>
      obtain ⟨here, later⟩ := List.forall_mem_cons.mp all_ascii
      obtain ⟨rest, rfl, rfl⟩ := Utf8.lossy_reflects_cons here decoded
      rw [ih rfl later]

/-- Decoding does not change the outcome of a test that only ASCII texts pass. -/
theorem test_lossy {test : Str → Bool} (all_ascii : ∀ s, test s = true → ∀ b ∈ s, b < 0x80)
    (s : Str) : test (Utf8.lossy s) = test s := by
  rw [Bool.eq_iff_iff]
  constructor
  · intro passes
    rwa [lossy_eq_self_of_ascii (all_ascii _ passes)] at passes
  · intro passes
    rwa [lossy_of_ascii (all_ascii _ passes)]

theorem lt_of_asciiLower_lt {b : UInt8} (lower : asciiLower b < 0x80) : b < 0x80 := by
  unfold asciiLower at lower
  split at lower
  · rename_i upper
    exact UInt8.lt_of_le_of_lt upper.2 (by decide)
  · exact lower

/-- Only a byte itself is lowered to one below the letters. -/
theorem asciiLower_eq_iff {b c : UInt8} (low : c < 65) : asciiLower b = c ↔ b = c := by
  unfold asciiLower
  split
  · rename_i upper
    simp only [UInt8.le_iff_toNat_le, UInt8.lt_iff_toNat_lt, UInt8.reduceToNat] at upper low
    constructor
    · rintro rfl
      simp only [UInt8.toNat_add, UInt8.reduceToNat] at low
      omega
    · rintro rfl
      omega
  · exact Iff.rfl

/-- Lossy decoding neither creates nor hides an ASCII literal at the start of a text. -/
theorem startsWithLower_lossy {lit : Str} (lit_ascii : ∀ b ∈ lit, b < 0x80) (s : Str) :
    startsWithLower (Utf8.lossy s) lit = startsWithLower s lit := by
  induction lit generalizing s with
  | nil => simp [startsWithLower]
  | cons l lit ih =>
      have l_ascii : l < 0x80 := lit_ascii l List.mem_cons_self
      have lit_ascii' : ∀ b ∈ lit, b < 0x80 := fun b mem =>
        lit_ascii b (List.mem_cons_of_mem _ mem)
      rw [Bool.eq_iff_iff]
      simp only [startsWithLower, toAsciiLowercase, List.isPrefixOf_iff_prefix] at ih ⊢
      constructor
      · intro starts
        cases decoded : Utf8.lossy s with
        | nil => simp [decoded] at starts
        | cons x t =>
            rw [decoded, List.map_cons, List.cons_prefix_cons] at starts
            have x_ascii : x < 0x80 := lt_of_asciiLower_lt (starts.1 ▸ l_ascii)
            obtain ⟨rest, rfl, rfl⟩ := Utf8.lossy_reflects_cons x_ascii decoded
            rw [List.map_cons, List.cons_prefix_cons]
            refine ⟨starts.1, ?_⟩
            have step := ih lit_ascii' rest
            rw [Bool.eq_iff_iff] at step
            simpa [List.isPrefixOf_iff_prefix] using step.mp (by simpa using starts.2)
      · intro starts
        cases s with
        | nil => simp at starts
        | cons x rest =>
            rw [List.map_cons, List.cons_prefix_cons] at starts
            have x_ascii : x < 0x80 := lt_of_asciiLower_lt (starts.1 ▸ l_ascii)
            rw [Utf8.lossy_cons_ascii x_ascii, List.map_cons, List.cons_prefix_cons]
            refine ⟨starts.1, ?_⟩
            have step := ih lit_ascii' rest
            rw [Bool.eq_iff_iff] at step
            simpa [List.isPrefixOf_iff_prefix] using step.mpr (by simpa using starts.2)

theorem contains_iff {s pat : Str} (pat_ne : pat ≠ []) : contains s pat = true ↔ pat <:+: s :=
  isSome_findSub_iff pat_ne

/-- An ASCII literal occurs in a text, in any case, where a rest of the text starts with it. -/
theorem infix_lower_iff {lit : Str} (lit_ne : lit ≠ [])
    (lit_ascii : ∀ b ∈ lit, b < 0x80) {s : Str} :
    lit <:+: toAsciiLowercase s ↔
      ∃ left c rest, s = left ++ c :: rest ∧ c < 0x80 ∧ startsWithLower (c :: rest) lit = true := by
  simp only [startsWithLower, List.isPrefixOf_iff_prefix]
  constructor
  · rintro ⟨front, back, eq⟩
    rw [List.append_assoc] at eq
    obtain ⟨left, rest, rfl, -, rest_eq⟩ := List.map_eq_append_iff.mp eq.symm
    have starts : lit <+: toAsciiLowercase rest := ⟨back, rest_eq.symm⟩
    cases lit with
    | nil => exact absurd rfl lit_ne
    | cons l lit =>
        cases rest with
        | nil => cases rest_eq
        | cons c rest =>
            have lower := (List.cons.inj rest_eq).1
            refine ⟨left, c, rest, rfl, lt_of_asciiLower_lt ?_, starts⟩
            rw [lower]
            exact lit_ascii l List.mem_cons_self
  · rintro ⟨left, c, rest, rfl, -, starts⟩
    rw [toAsciiLowercase, List.map_append]
    exact starts.isInfix.trans (List.suffix_append _ _).isInfix

/-- Lossy decoding neither creates nor hides an occurrence of an ASCII literal. -/
theorem infix_lossy_iff {lit : Str} (lit_ne : lit ≠ [])
    (lit_ascii : ∀ b ∈ lit, b < 0x80) {s : Str} :
    lit <:+: toAsciiLowercase (Utf8.lossy s) ↔ lit <:+: toAsciiLowercase s := by
  rw [infix_lower_iff lit_ne lit_ascii, infix_lower_iff lit_ne lit_ascii]
  constructor
  · rintro ⟨left, c, rest, decoded, c_ascii, starts⟩
    obtain ⟨left₀, rest₀, rfl, -, rfl⟩ := Utf8.lossy_reflects_ascii c_ascii decoded
    rw [← Utf8.lossy_cons_ascii c_ascii, startsWithLower_lossy lit_ascii] at starts
    exact ⟨left₀, c, rest₀, rfl, c_ascii, starts⟩
  · rintro ⟨left, c, rest, rfl, c_ascii, starts⟩
    refine ⟨_, c, _, Utf8.lossy_append_ascii left c_ascii rest, c_ascii, ?_⟩
    rwa [← Utf8.lossy_cons_ascii c_ascii, startsWithLower_lossy lit_ascii]

end Wire
