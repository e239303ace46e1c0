import PrivacyEngine.Wire.Json

/-!
# A JSON library with given texts

Values are flattened to numbers in front-to-back order and the numbers are written in unary, which
gives a printer and a reader that meet the laws of `Serde` on every canonical value.  A table of
texts goes first, so that the values of a concrete run are printed and read in their usual form.
-/

namespace Wire

namespace Json

/-! ## Flattening -/

def stringTokens (text : Str) : List Nat := text.length :: text.map UInt8.toNat

mutual

def tokens : Json → List Nat
  | null => [0]
  | bool value => [1, value.toNat]
  | number (.posInt value) => [2, value.toNat]
  | number (.negInt value) => [3, value.toUInt64.toNat]
  | number (.float bits) => [4, bits.toNat]
  | string value => 5 :: stringTokens value
  | array items => 6 :: items.length :: itemTokens items
  | object members => 7 :: members.length :: memberTokens members

def itemTokens : List Json → List Nat
  | [] => []
  | item :: items => tokens item ++ itemTokens items

def memberTokens : List (Str × Json) → List Nat
  | [] => []
  | (key, value) :: members => stringTokens key ++ tokens value ++ memberTokens members

end

/-- Read a given number of things. -/
def readMany {α : Type} (read : List Nat → Option (α × List Nat)) :
    Nat → List Nat → Option (List α × List Nat)
  | 0, rest => some ([], rest)
  | count + 1, rest => do
      let (head, rest) ← read rest
      let (tail, rest) ← readMany read count rest
      return (head :: tail, rest)

def readString : List Nat → Option (Str × List Nat)
  | [] => none
  | length :: rest => some ((rest.take length).map UInt8.ofNat, rest.drop length)

def readMember (read : List Nat → Option (Json × List Nat)) (rest : List Nat) :
    Option ((Str × Json) × List Nat) := do
  let (key, rest) ← readString rest
  let (value, rest) ← read rest
  return ((key, value), rest)

/-- Read one value of at most the given depth. -/
def readValue : Nat → List Nat → Option (Json × List Nat)
  | 0, _ => none
  | _ + 1, 0 :: rest => some (null, rest)
  | _ + 1, 1 :: value :: rest => some (bool (value == 1), rest)
  | _ + 1, 2 :: value :: rest => some (number (.posInt (UInt64.ofNat value)), rest)
  | _ + 1, 3 :: value :: rest => some (number (.negInt (UInt64.ofNat value).toInt64), rest)
  | _ + 1, 4 :: bits :: rest => some (number (.float (UInt64.ofNat bits)), rest)
  | _ + 1, 5 :: rest => (readString rest).map fun (value, rest) => (string value, rest)
  | depth + 1, 6 :: count :: rest =>
      (readMany (readValue depth) count rest).map fun (items, rest) => (array items, rest)
  | depth + 1, 7 :: count :: rest =>
      (readMany (readMember (readValue depth)) count rest).map fun (members, rest) =>
        (object members, rest)
  | _ + 1, _ => none

theorem readString_stringTokens (text : Str) (rest : List Nat) :
    readString (stringTokens text ++ rest) = some (text, rest) := by
  have back : UInt8.ofNat ∘ UInt8.toNat = id := funext fun byte => UInt8.ofNat_toNat
  simp [stringTokens, readString, List.take_left', List.drop_left', back]

theorem readMany_itemTokens {read : List Nat → Option (Json × List Nat)} {items : List Json}
    (reads : ∀ item ∈ items, ∀ rest, read (tokens item ++ rest) = some (item, rest))
    (rest : List Nat) :
    readMany read items.length (itemTokens items ++ rest) = some (items, rest) := by
  induction items with
  | nil => rfl
  | cons item items ih =>
      have later := ih fun other mem => reads other (List.mem_cons_of_mem _ mem)
      simp [itemTokens, readMany, reads item List.mem_cons_self, later]

theorem readMany_memberTokens {read : List Nat → Option (Json × List Nat)}
    {members : List (Str × Json)}
    (reads : ∀ member ∈ members, ∀ rest, read (tokens member.2 ++ rest) = some (member.2, rest))
    (rest : List Nat) :
    readMany (readMember read) members.length (memberTokens members ++ rest) =
      some (members, rest) := by
  induction members with
  | nil => rfl
  | cons member members ih =>
      have later := ih fun other mem => reads other (List.mem_cons_of_mem _ mem)
      have first := reads member List.mem_cons_self
      simp [memberTokens, readMany, readMember, readString_stringTokens, first, later]

/-- A value is read back from its tokens. -/
theorem readValue_tokens {depth : Nat} {value : Json} (canonical : value.Canonical depth)
    (rest : List Nat) : readValue (depth + 1) (tokens value ++ rest) = some (value, rest) := by
  induction canonical generalizing rest with
  | null => simp [tokens, readValue]
  | bool value => cases value <;> simp [tokens, readValue]
  | posInt value => simp [tokens, readValue]
  | negInt value => simp [tokens, readValue]
  | string value => simp [tokens, readValue, readString_stringTokens]
  | array each ih => simp [tokens, readValue, readMany_itemTokens ih]
  | object sorted each ih => simp [tokens, readValue, readMany_memberTokens ih]

/-! ## Unary digits -/

def unary (n : Nat) : Str := List.replicate n 49 ++ [48]

def readUnary : Str → List Nat
  | [] => []
  | digit :: digits =>
      if digit = 48 then 0 :: readUnary digits
      else
        match readUnary digits with
        | [] => []
        | n :: rest => (n + 1) :: rest

theorem readUnary_unary (n : Nat) (digits : Str) :
    readUnary (unary n ++ digits) = n :: readUnary digits := by
  induction n with
  | zero => simp [unary, readUnary]
  | succ n ih =>
      have cut : unary (n + 1) ++ digits = 49 :: (unary n ++ digits) := by
        simp [unary, List.replicate_succ]
      simp [cut, readUnary, ih]

theorem readUnary_flatMap (numbers : List Nat) : readUnary (numbers.flatMap unary) = numbers := by
  induction numbers with
  | nil => rfl
  | cons n numbers ih => simp [readUnary_unary, ih]

theorem mem_flatMap_unary {numbers : List Nat} {digit : UInt8}
    (mem : digit ∈ numbers.flatMap unary) : digit = 48 ∨ digit = 49 := by
  obtain ⟨n, -, mem⟩ := List.mem_flatMap.mp mem
  rcases List.mem_append.mp mem with one | zero
  · exact .inr (List.eq_of_mem_replicate one)
  · exact .inl (List.mem_singleton.mp zero)

theorem valid_flatMap_unary (numbers : List Nat) : Utf8.valid (numbers.flatMap unary) = true := by
  have digits : ∀ digit ∈ numbers.flatMap unary, digit < 0x80 := by
    intro digit mem
    rcases mem_flatMap_unary mem with rfl | rfl <;> decide
  generalize numbers.flatMap unary = text at digits
  induction text with
  | nil => rfl
  | cons digit text ih =>
      have first := digits digit List.mem_cons_self
      have valid := Utf8.valid_append_ascii [] first text
      rw [List.nil_append] at valid
      rw [valid, ih fun other mem => digits other (List.mem_cons_of_mem _ mem)]
      rfl

/-- The text of a value that no table lists. -/
def code (value : Json) : Str := value.tokens.flatMap unary

def readCode (text : Str) : Except Str Json :=
  match readValue 128 (readUnary text) with
  | some (value, []) => .ok value
  | _ => .error (ascii "expected value")

theorem readCode_code {value : Json} (canonical : value.Canonical 127) :
    readCode value.code = .ok value := by
  have reads := readValue_tokens canonical []
  rw [List.append_nil] at reads
  simp [readCode, code, readUnary_flatMap, reads]

end Json

namespace Json

/-- Decide that a value is canonical. -/
def isCanonical : Nat → Json → Bool
  | _, null | _, bool _ | _, string _ | _, number (.posInt _) | _, number (.negInt _) => true
  | _, number (.float _) | 0, array _ | 0, object _ => false
  | depth + 1, array items => items.all (isCanonical depth)
  | depth + 1, object members =>
      increasing (members.map (·.1)) && members.all fun member => isCanonical depth member.2

theorem Canonical.of_isCanonical {depth : Nat} {value : Json}
    (checked : value.isCanonical depth = true) : value.Canonical depth := by
  induction depth generalizing value with
  | zero =>
      cases value with
      | null => exact .null
      | bool value => exact .bool value
      | string value => exact .string value
      | number value =>
          cases value with
          | posInt value => exact .posInt value
          | negInt value => exact .negInt value
          | float bits => cases checked
      | array items => cases checked
      | object members => cases checked
  | succ depth ih =>
      cases value with
      | null => exact .null
      | bool value => exact .bool value
      | string value => exact .string value
      | number value =>
          cases value with
          | posInt value => exact .posInt value
          | negInt value => exact .negInt value
          | float bits => cases checked
      | array items =>
          simp only [isCanonical, List.all_eq_true] at checked
          exact .array fun item mem => ih (checked item mem)
      | object members =>
          simp only [isCanonical, Bool.and_eq_true, List.all_eq_true] at checked
          exact .object_of_keys checked.1 fun member mem => ih (checked.2 member mem)

end Json

/-! ## The usual text -/

namespace Json

def hexDigit (n : UInt8) : UInt8 := if n < 10 then 48 + n else 87 + n

/-- A byte inside a quoted string. -/
def escape (byte : UInt8) : Str :=
  if byte = 34 then ascii "\\\""
  else if byte = 92 then ascii "\\\\"
  else if byte = 8 then ascii "\\b"
  else if byte = 9 then ascii "\\t"
  else if byte = 10 then ascii "\\n"
  else if byte = 12 then ascii "\\f"
  else if byte = 13 then ascii "\\r"
  else if byte < 32 then ascii "\\u00" ++ [hexDigit (byte / 16), hexDigit (byte % 16)]
  else [byte]

def quote (text : Str) : Str := 34 :: (text.flatMap escape ++ [34])

/-- Parts between brackets, one on each line, or just the brackets. -/
def bracketed (opening closing : UInt8) (indent : Nat) (parts : List Str) : Str :=
  if parts = [] then [opening, closing]
  else
    let line := 10 :: List.replicate (indent + 2) 32
    opening :: ((parts.map (line ++ ·)).intersperse [44]).flatten ++
      10 :: List.replicate indent 32 ++ [closing]

mutual

def pretty (indent : Nat) : Json → Str
  | null => ascii "null"
  | bool value => if value then ascii "true" else ascii "false"
  | number (.posInt value) => decimal value.toNat
  | number (.negInt value) => 45 :: decimal value.toInt.natAbs
  | number (.float _) => ascii "null"
  | string value => quote value
  | array items => bracketed 91 93 indent (prettyItems indent items)
  | object members => bracketed 123 125 indent (prettyMembers indent members)

def prettyItems (indent : Nat) : List Json → List Str
  | [] => []
  | item :: items => pretty (indent + 2) item :: prettyItems indent items

def prettyMembers (indent : Nat) : List (Str × Json) → List Str
  | [] => []
  | (key, value) :: members =>
      (quote key ++ ascii ": " ++ pretty (indent + 2) value) :: prettyMembers indent members

end

end Json

/-! ## Libraries -/

/-- Texts for some values.  Every text starts with a brace or a bracket and stands for one value. -/
structure JsonTexts where
  entries : List (Str × Json)
  canonical : ∀ entry ∈ entries, entry.2.Canonical 127
  valid : ∀ entry ∈ entries, Utf8.valid entry.1 = true
  opened : ∀ entry ∈ entries, entry.1.head? = some 123 ∨ entry.1.head? = some 91
  distinct : (entries.map (·.1)).Nodup

namespace JsonTexts

/-- The usual texts of some values. -/
def ofValues (values : List Json) (canonical : ∀ value ∈ values, value.Canonical 127)
    (valid : (values.all fun value => Utf8.valid (value.pretty 0)) = true)
    (opened : (values.all fun value => (value.pretty 0).head? == some 123 ||
      (value.pretty 0).head? == some 91) = true)
    (distinct : (values.map (Json.pretty 0)).Nodup) : JsonTexts where
  entries := values.map fun value => (value.pretty 0, value)
  canonical entry mem := by
    obtain ⟨value, listed, rfl⟩ := List.mem_map.mp mem
    exact canonical value listed
  valid entry mem := by
    obtain ⟨value, listed, rfl⟩ := List.mem_map.mp mem
    exact List.all_eq_true.mp valid value listed
  opened entry mem := by
    obtain ⟨value, listed, rfl⟩ := List.mem_map.mp mem
    simpa using List.all_eq_true.mp opened value listed
  distinct := by
    rw [List.map_map]
    exact distinct

/-- The usual texts of values that are checked to be canonical. -/
def checked (values : List Json)
    (canonical : (values.all fun value => value.isCanonical 127) = true)
    (valid : (values.all fun value => Utf8.valid (value.pretty 0)) = true)
    (opened : (values.all fun value => (value.pretty 0).head? == some 123 ||
      (value.pretty 0).head? == some 91) = true)
    (distinct : (values.map (Json.pretty 0)).Nodup) : JsonTexts :=
  ofValues values
    (fun value mem => .of_isCanonical (List.all_eq_true.mp canonical value mem)) valid opened
    distinct

variable (texts : JsonTexts)

/-- The entry that lists a value. -/
def entryOf (value : Json) : Option (Str × Json) :=
  texts.entries.find? fun entry => entry.2.tokens == value.tokens

def toStringPretty (value : Json) : Str :=
  match texts.entryOf value with
  | some entry => entry.1
  | none => value.code

def fromStr (text : Str) : Except Str Json :=
  match texts.entries.find? fun entry => entry.1 == text with
  | some entry => .ok entry.2
  | none => Json.readCode text

variable {texts}

theorem eq_of_entryOf {value : Json} {entry : Str × Json} (canonical : value.Canonical 127)
    (found : texts.entryOf value = some entry) : entry ∈ texts.entries ∧ entry.2 = value := by
  have mem := List.mem_of_find?_eq_some found
  have same : entry.2.tokens = value.tokens := by simpa using List.find?_some found
  have left := Json.readValue_tokens (texts.canonical entry mem) []
  rw [same, Json.readValue_tokens canonical] at left
  exact ⟨mem, by simpa using left.symm⟩

theorem find_of_mem {entry : Str × Json} (mem : entry ∈ texts.entries) :
    texts.entries.find? (fun other => other.1 == entry.1) = some entry := by
  have distinct := texts.distinct
  generalize texts.entries = entries at mem distinct
  induction entries with
  | nil => cases mem
  | cons first entries ih =>
      rw [List.map_cons, List.nodup_cons] at distinct
      rcases List.mem_cons.mp mem with rfl | mem
      · simp
      · have other : (first.1 == entry.1) = false := by
          refine beq_eq_false_iff_ne.mpr fun same => distinct.1 ?_
          rw [same]
          exact List.mem_map_of_mem mem
        rw [List.find?_cons_of_neg (by simp [other])]
        exact ih mem distinct.2

theorem find_code (value : Json) :
    texts.entries.find? (fun entry => entry.1 == value.code) = none := by
  refine List.find?_eq_none.mpr fun entry mem same => ?_
  have opened := texts.opened entry mem
  rw [beq_iff_eq.mp same] at opened
  rcases opened with brace | bracket
  · rcases Json.mem_flatMap_unary (List.mem_of_mem_head? brace) with digit | digit
    · exact absurd digit (by decide)
    · exact absurd digit (by decide)
  · rcases Json.mem_flatMap_unary (List.mem_of_mem_head? bracket) with digit | digit
    · exact absurd digit (by decide)
    · exact absurd digit (by decide)

variable (texts)

/-- A JSON library that uses the given texts. -/
def serde : Serde where
  fromStr := texts.fromStr
  typeError _ := ascii "invalid type"
  toStringPretty := texts.toStringPretty
  valid_toStringPretty value := by
    unfold toStringPretty
    cases found : texts.entryOf value with
    | none => exact Json.valid_flatMap_unary _
    | some entry => exact texts.valid entry (List.mem_of_find?_eq_some found)
  fromStr_toStringPretty value canonical := by
    unfold toStringPretty
    cases found : texts.entryOf value with
    | none =>
        simp only [fromStr, find_code]
        exact Json.readCode_code canonical
    | some entry =>
        obtain ⟨mem, rfl⟩ := eq_of_entryOf canonical found
        simp only [fromStr, find_of_mem mem]

end JsonTexts

/-! ## Texts that end in a brace -/

namespace Json

def closedText (value : Json) : Str := value.code ++ [125]

def readClosed (text : Str) : Except Str Json :=
  if text.getLast? = some 125 then readCode text.dropLast
  else .error (ascii "EOF while parsing an object")

/-- A JSON library whose texts end where they have to. -/
def closedSerde : Serde where
  fromStr := readClosed
  typeError _ := ascii "invalid type"
  toStringPretty := closedText
  valid_toStringPretty value := by
    rw [closedText, Utf8.valid_append_ascii value.code (by decide) [], code, valid_flatMap_unary]
    rfl
  fromStr_toStringPretty value canonical := by
    rw [readClosed, closedText, if_pos List.getLast?_concat, List.dropLast_concat]
    exact readCode_code canonical

theorem rejectsCut_closedSerde : closedSerde.RejectsCut := by
  intro members count value short _
  simp only [closedSerde, closedText, List.length_append, List.length_singleton] at short ⊢
  have cut : ((object members).code ++ [125]).take count = (object members).code.take count :=
    List.take_append_of_le_length (by omega)
  have unread : ((object members).code.take count).getLast? ≠ some 125 := by
    intro closed
    have mem := List.mem_of_mem_take (List.mem_of_getLast? closed)
    rcases mem_flatMap_unary mem with digit | digit
    · exact absurd digit (by decide)
    · exact absurd digit (by decide)
  rw [cut, readClosed, if_neg unread]
  intro same
  cases same

end Json

end Wire
