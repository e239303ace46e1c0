import Mathlib.Algebra.GroupWithZero.Nat
import PrivacyEngine.Wire.Text

/-!
# HTML texts

Text is put into a page with the five characters that mean something in HTML replaced by entities.
A page is a list of pieces, and its angle brackets are those of the pieces that are put in as they
are.
-/

namespace Wire

namespace Html

/-! ## Escaping -/

/-- The characters with an entity. -/
def entities : List (UInt8 × Str) :=
  [(38, ascii "&amp;"), (60, ascii "&lt;"), (62, ascii "&gt;"), (34, ascii "&quot;"),
    (39, ascii "&#39;")]

def escapeByte (c : UInt8) : Str :=
  match c with
  | 38 => ascii "&amp;"
  | 60 => ascii "&lt;"
  | 62 => ascii "&gt;"
  | 34 => ascii "&quot;"
  | 39 => ascii "&#39;"
  | c => [c]

/-- All five characters are ASCII, so a text is escaped byte by byte. -/
def escapeHtml (s : Str) : Str := s.flatMap escapeByte

/-- Replace entities by their characters, from the left. -/
def unescapeHtml : Str → Str
  | [] => []
  | c :: rest =>
      match entities.find? fun entity => entity.2.isPrefixOf (c :: rest) with
      | some (char, entity) => char :: unescapeHtml (rest.drop (entity.length - 1))
      | none => c :: unescapeHtml rest
  termination_by s => s.length

/-- No bracket or quote is left, and an ampersand starts an entity. -/
structure Escaped (s : Str) : Prop where
  plain : ∀ c ∈ s, c ∉ ascii "<>\"'"
  starts : ∀ front back, s = front ++ 38 :: back →
    ∃ entity ∈ entities, entity.2 <+: 38 :: back

@[simp] theorem escapeHtml_cons (c : UInt8) (s : Str) :
    escapeHtml (c :: s) = escapeByte c ++ escapeHtml s := List.flatMap_cons

theorem escapeByte_cases (c : UInt8) :
    (c, escapeByte c) ∈ entities ∨ (c ∉ ascii "&<>\"'" ∧ escapeByte c = [c]) := by
  unfold escapeByte
  split
  case h_6 amp lt gt quot apos =>
    refine .inr ⟨?_, rfl⟩
    simp only [ascii, String.reduceToList, List.map_cons, List.map_nil, List.mem_cons,
      List.not_mem_nil, or_false, not_or]
    exact ⟨amp, lt, gt, quot, apos⟩
  all_goals exact .inl (by decide)

theorem escaped_nil : Escaped [] where
  plain c mem := absurd mem List.not_mem_nil
  starts front back same := absurd same (by simp)

theorem Escaped.entity_append {s : Str} (escaped : Escaped s) {entity : UInt8 × Str}
    (mem : entity ∈ entities) : Escaped (entity.2 ++ s) := by
  have plain : ∀ entity ∈ entities, ∀ c ∈ entity.2, c ∉ ascii "<>\"'" := by
    simp [entities, ascii]
  have single : ∀ entity ∈ entities, 38 ∉ entity.2.tail := by decide
  constructor
  · intro c inside
    rcases List.mem_append.mp inside with inside | inside
    · exact plain entity mem c inside
    · exact escaped.plain c inside
  · intro front back same
    rcases List.append_eq_append_iff.mp same with ⟨gap, -, later⟩ | ⟨gap, entity_eq, back_eq⟩
    · exact escaped.starts gap back later
    · cases gap with
      | nil => exact escaped.starts [] back back_eq.symm
      | cons c gap =>
          obtain ⟨rfl, rfl⟩ := List.cons.inj back_eq
          cases front with
          | nil => exact ⟨entity, mem, entity_eq ▸ List.prefix_append _ s⟩
          | cons first front =>
              refine absurd ?_ (single entity mem)
              rw [entity_eq]
              simp

theorem Escaped.cons {s : Str} (escaped : Escaped s) {c : UInt8} (plain : c ∉ ascii "&<>\"'") :
    Escaped (c :: s) := by
  constructor
  · intro b inside
    rcases List.mem_cons.mp inside with rfl | inside
    · exact fun special => plain (List.mem_cons_of_mem _ special)
    · exact escaped.plain b inside
  · intro front back same
    cases front with
    | nil =>
        obtain ⟨rfl, -⟩ := List.cons.inj same
        exact absurd (by decide) plain
    | cons first front => exact escaped.starts front back (List.cons.inj same).2

theorem escaped_escapeHtml (s : Str) : Escaped (escapeHtml s) := by
  induction s with
  | nil => exact escaped_nil
  | cons c s ih =>
      rw [escapeHtml_cons]
      rcases escapeByte_cases c with entity | ⟨plain, same⟩
      · exact ih.entity_append entity
      · rw [same]
        exact ih.cons plain

theorem unescapeHtml_entity {c : UInt8} {entity : Str} (mem : (c, entity) ∈ entities) (s : Str) :
    unescapeHtml (entity ++ s) = c :: unescapeHtml s := by
  simp only [entities, List.mem_cons, Prod.mk.injEq, List.not_mem_nil, or_false] at mem
  rcases mem with ⟨rfl, rfl⟩ | ⟨rfl, rfl⟩ | ⟨rfl, rfl⟩ | ⟨rfl, rfl⟩ | ⟨rfl, rfl⟩ <;>
    simp [ascii, unescapeHtml, entities]

theorem unescapeHtml_cons {c : UInt8} (plain : c ≠ 38) (s : Str) :
    unescapeHtml (c :: s) = c :: unescapeHtml s := by
  have unfound : entities.find? (fun entity => entity.2.isPrefixOf (c :: s)) = none := by
    simp [entities, ascii, Ne.symm plain]
  rw [unescapeHtml, unfound]

/-- Replacing the entities back yields the text. -/
theorem unescapeHtml_escapeHtml (s : Str) : unescapeHtml (escapeHtml s) = s := by
  induction s with
  | nil => rw [escapeHtml, List.flatMap_nil, unescapeHtml]
  | cons c s ih =>
      rw [escapeHtml_cons]
      rcases escapeByte_cases c with entity | ⟨plain, same⟩
      · rw [unescapeHtml_entity entity, ih]
      · have other : c ≠ 38 := by
          rintro rfl
          exact plain (by decide)
        rw [same, List.singleton_append, unescapeHtml_cons other, ih]

theorem escapeHtml_injective : Function.Injective escapeHtml :=
  Function.LeftInverse.injective unescapeHtml_escapeHtml

/-! ## Pages -/

/-- A piece of a page: what is put in as it is, a number, or a text that is escaped. -/
inductive Piece where
  | raw (markup : Str)
  | number (value : Nat)
  | text (content : Str)

def Piece.bytes : Piece → Str
  | raw markup => markup
  | number value => decimal value
  | text content => escapeHtml content

def render (pieces : List Piece) : Str := pieces.flatMap Piece.bytes

/-- What is put in as it is. -/
def raws (pieces : List Piece) : List Str :=
  pieces.filterMap fun
    | .raw markup => some markup
    | .number _ | .text _ => none

/-- The opening brackets of what is put in as it is. -/
def tags (pieces : List Piece) : Nat := ((raws pieces).map fun markup => markup.count 60).sum

@[simp] theorem raws_append (left right : List Piece) :
    raws (left ++ right) = raws left ++ raws right := List.filterMap_append

@[simp] theorem raws_raw (markup : Str) (pieces : List Piece) :
    raws (.raw markup :: pieces) = markup :: raws pieces := rfl

@[simp] theorem raws_number (value : Nat) (pieces : List Piece) :
    raws (.number value :: pieces) = raws pieces := rfl

@[simp] theorem raws_text (content : Str) (pieces : List Piece) :
    raws (.text content :: pieces) = raws pieces := rfl

@[simp] theorem tags_append (left right : List Piece) :
    tags (left ++ right) = tags left + tags right := by
  simp [tags]

theorem count_bytes (piece : Piece) : piece.bytes.count 60 = tags [piece] := by
  cases piece with
  | raw markup => simp [Piece.bytes, tags, raws]
  | number value =>
      refine List.count_eq_zero.mpr fun mem => ?_
      exact absurd (decimal_digit mem).2 (by decide)
  | text content =>
      refine List.count_eq_zero.mpr fun mem => ?_
      exact (escaped_escapeHtml content).plain 60 mem (by decide)

/-- Numbers and texts bring no bracket into a page. -/
theorem count_render (pieces : List Piece) : (render pieces).count 60 = tags pieces := by
  induction pieces with
  | nil => rfl
  | cons piece pieces ih =>
      have joined : render (piece :: pieces) = piece.bytes ++ render pieces := List.flatMap_cons
      rw [joined, List.count_append, count_bytes, ih, ← tags_append]
      rfl

/-- Rows that are put into the same markup. -/
theorem raws_flatMap {α : Type} {row : α → List Piece} {markup : List Str}
    (each : ∀ a, raws (row a) = markup) (rows : List α) :
    raws (rows.flatMap row) = (List.replicate rows.length markup).flatten := by
  induction rows with
  | nil => rfl
  | cons a rows ih =>
      rw [List.flatMap_cons, raws_append, each, ih, List.length_cons, List.replicate_succ,
        List.flatten_cons]

end Html

end Wire
