import PrivacyEngine.Wire.Decimal

/-!
# Texts without white space

A text without white space is what trimming makes of it, and one word of a line.  Neither changing
the case of letters nor dots at the end bring white space in.  Behind these facts stand the two ways
of cutting a text that readers of addresses use: at its last separator and at its white space.
-/

namespace Wire

/-- No character of the text is white space. -/
structure Spaceless (s : Str) : Prop where
  one : ∀ a, [a] <:+: s → isWhitespace₁ a = false
  two : ∀ a b, [a, b] <:+: s → isWhitespace₂ a b = false
  three : ∀ a b c, [a, b, c] <:+: s → isWhitespace₃ a b c = false

/-- Cut at the last occurrence of a separator byte. -/
def rsplitOnce (sep : UInt8) (s : Str) : Option (Str × Str) :=
  (splitOnce sep s.reverse).map fun (back, front) => (front.reverse, back.reverse)

/-- Cut at every white-space character. -/
def splitSpaces : Str → List Str
  | [] => [[]]
  | [a] => if isWhitespace₁ a then [[], []] else [[a]]
  | [a, b] =>
      if isWhitespace₁ a then [] :: splitSpaces [b]
      else if isWhitespace₂ a b then [[], []]
      else (splitSpaces [b]).modifyHead (a :: ·)
  | a :: b :: c :: rest =>
      if isWhitespace₁ a then [] :: splitSpaces (b :: c :: rest)
      else if isWhitespace₂ a b then [] :: splitSpaces (c :: rest)
      else if isWhitespace₃ a b c then [] :: splitSpaces rest
      else (splitSpaces (b :: c :: rest)).modifyHead (a :: ·)

/-- The words between white space. -/
def splitWhitespace (s : Str) : List Str := (splitSpaces s).filter (· ≠ [])

/-! ## Cutting at the last separator -/

theorem rsplitOnce_eq_some_iff {sep : UInt8} {s front back : Str} :
    rsplitOnce sep s = some (front, back) ↔ s = front ++ sep :: back ∧ sep ∉ back := by
  simp only [rsplitOnce, Option.map_eq_some_iff, Prod.exists, splitOnce_eq_some_iff, Prod.mk.injEq]
  constructor
  · rintro ⟨back', front', ⟨cut, absent⟩, rfl, rfl⟩
    refine ⟨?_, by simpa using absent⟩
    have whole := congrArg List.reverse cut
    simpa using whole
  · rintro ⟨rfl, absent⟩
    exact ⟨back.reverse, front.reverse, ⟨by simp, by simpa using absent⟩, by simp, by simp⟩

theorem rsplitOnce_eq_none_iff {sep : UInt8} {s : Str} : rsplitOnce sep s = none ↔ sep ∉ s := by
  rw [rsplitOnce, Option.map_eq_none_iff, splitOnce_eq_none_iff, List.mem_reverse]

/-! ## Trimming -/

namespace Spaceless

variable {s t : Str}

theorem of_infix (spaceless : Spaceless s) (within : t <:+: s) : Spaceless t where
  one a occurs := spaceless.one a (occurs.trans within)
  two a b occurs := spaceless.two a b (occurs.trans within)
  three a b c occurs := spaceless.three a b c (occurs.trans within)

end Spaceless

theorem dropSpaces_eq_self {one : UInt8 → Bool} {two : UInt8 → UInt8 → Bool}
    {three : UInt8 → UInt8 → UInt8 → Bool} {s : Str}
    (solid : ∀ a rest, s = a :: rest → one a = false)
    (solid₂ : ∀ a b rest, s = a :: b :: rest → two a b = false)
    (solid₃ : ∀ a b c rest, s = a :: b :: c :: rest → three a b c = false) :
    dropSpaces one two three s = s := by
  cases s with
  | nil => rfl
  | cons a s =>
      have first := solid a s rfl
      cases s with
      | nil => simp [dropSpaces, first]
      | cons b s =>
          have second := solid₂ a b s rfl
          cases s with
          | nil => simp [dropSpaces, first, second]
          | cons c s => simp [dropSpaces, first, second, solid₃ a b c s rfl]

namespace Spaceless

variable {s : Str}

theorem trimStart_eq (spaceless : Spaceless s) : trimStart s = s := by
  apply dropSpaces_eq_self
  · rintro a rest rfl
    exact spaceless.one a ⟨[], rest, rfl⟩
  · rintro a b rest rfl
    exact spaceless.two a b ⟨[], rest, rfl⟩
  · rintro a b c rest rfl
    exact spaceless.three a b c ⟨[], rest, rfl⟩

theorem trimEnd_eq (spaceless : Spaceless s) : trimEnd s = s := by
  have back : ∀ {front rest : Str}, s.reverse = front ++ rest → front.reverse <:+: s := by
    intro front rest cut
    have whole := congrArg List.reverse cut
    rw [List.reverse_reverse, List.reverse_append] at whole
    exact ⟨rest.reverse, [], by rw [whole, List.append_nil]⟩
  rw [trimEnd, dropSpaces_eq_self, List.reverse_reverse]
  · intro a rest cut
    exact spaceless.one a (@back [a] rest cut)
  · intro a b rest cut
    exact spaceless.two b a (@back [a, b] rest cut)
  · intro a b c rest cut
    exact spaceless.three c b a (@back [a, b, c] rest cut)

theorem trim_eq (spaceless : Spaceless s) : trim s = s := by
  rw [trim, spaceless.trimStart_eq, spaceless.trimEnd_eq]

/-! ### Letters and dots -/

theorem isWhitespace₂_high {a b : UInt8} (space : isWhitespace₂ a b = true) :
    0x80 ≤ a ∧ 0x80 ≤ b := by
  rw [isWhitespace₂, Bool.and_eq_true, beq_iff_eq, Bool.or_eq_true, beq_iff_eq, beq_iff_eq] at space
  obtain ⟨rfl, rfl | rfl⟩ := space <;> decide

theorem isWhitespace₃_high {a b c : UInt8} (space : isWhitespace₃ a b c = true) :
    0x80 ≤ a ∧ 0x80 ≤ b ∧ 0x80 ≤ c := by
  simp only [isWhitespace₃, Bool.or_eq_true, Bool.and_eq_true, beq_iff_eq,
    decide_eq_true_eq] at space
  obtain ((⟨⟨rfl, rfl⟩, rfl⟩ | ⟨⟨rfl, rfl⟩, ((⟨low, -⟩ | rfl) | rfl) | rfl⟩) | ⟨⟨rfl, rfl⟩, rfl⟩) |
    ⟨⟨rfl, rfl⟩, rfl⟩ := space
  · decide
  · exact ⟨by decide, by decide, low⟩
  all_goals decide

theorem asciiLower_high {a : UInt8} (high : 0x80 ≤ a ∨ 0x80 ≤ asciiLower a) : asciiLower a = a := by
  unfold asciiLower at high ⊢
  split
  · rename_i upper
    rw [if_pos upper] at high
    simp only [UInt8.le_iff_toNat_le, UInt8.toNat_add, UInt8.reduceToNat] at high upper
    omega
  · rfl

theorem isWhitespace₁_asciiLower (a : UInt8) : isWhitespace₁ (asciiLower a) = isWhitespace₁ a := by
  unfold asciiLower
  split
  · rename_i upper
    have letter : isWhitespace₁ a = false := by
      refine IsSolid.ne_space ⟨?_, ?_⟩ <;>
        simp only [UInt8.le_iff_toNat_le, UInt8.lt_iff_toNat_lt, UInt8.reduceToNat] at upper ⊢ <;>
        omega
    have lower : isWhitespace₁ (a + 32) = false := by
      refine IsSolid.ne_space ⟨?_, ?_⟩ <;>
        simp only [UInt8.le_iff_toNat_le, UInt8.lt_iff_toNat_lt, UInt8.toNat_add,
          UInt8.reduceToNat] at upper ⊢ <;>
        omega
    rw [letter, lower]
  · rfl

theorem isWhitespace₂_asciiLower (a b : UInt8) :
    isWhitespace₂ (asciiLower a) (asciiLower b) = isWhitespace₂ a b := by
  rw [Bool.eq_iff_iff]
  constructor
  · intro space
    obtain ⟨high_a, high_b⟩ := isWhitespace₂_high space
    rwa [asciiLower_high (.inr high_a), asciiLower_high (.inr high_b)] at space
  · intro space
    obtain ⟨high_a, high_b⟩ := isWhitespace₂_high space
    rwa [asciiLower_high (.inl high_a), asciiLower_high (.inl high_b)]

theorem isWhitespace₃_asciiLower (a b c : UInt8) :
    isWhitespace₃ (asciiLower a) (asciiLower b) (asciiLower c) = isWhitespace₃ a b c := by
  rw [Bool.eq_iff_iff]
  constructor
  · intro space
    obtain ⟨high_a, high_b, high_c⟩ := isWhitespace₃_high space
    rwa [asciiLower_high (.inr high_a), asciiLower_high (.inr high_b),
      asciiLower_high (.inr high_c)] at space
  · intro space
    obtain ⟨high_a, high_b, high_c⟩ := isWhitespace₃_high space
    rwa [asciiLower_high (.inl high_a), asciiLower_high (.inl high_b),
      asciiLower_high (.inl high_c)]

theorem lower_iff : Spaceless (toAsciiLowercase s) ↔ Spaceless s := by
  constructor
  · intro lower
    refine ⟨fun a within => ?_, fun a b within => ?_, fun a b c within => ?_⟩
    · rw [← isWhitespace₁_asciiLower]
      exact lower.one _ (within.map asciiLower)
    · rw [← isWhitespace₂_asciiLower]
      exact lower.two _ _ (within.map asciiLower)
    · rw [← isWhitespace₃_asciiLower]
      exact lower.three _ _ _ (within.map asciiLower)
  · intro spaceless
    refine ⟨fun a within => ?_, fun a b within => ?_, fun a b c within => ?_⟩
    · obtain ⟨raw, inside, eq⟩ := List.infix_map_iff.mp within
      obtain ⟨a, rfl, rfl⟩ := List.map_eq_singleton_iff.mp eq.symm
      rw [isWhitespace₁_asciiLower]
      exact spaceless.one a inside
    · obtain ⟨raw, inside, eq⟩ := List.infix_map_iff.mp within
      obtain ⟨a, tail, rfl, rfl, rest⟩ := List.map_eq_cons_iff.mp eq.symm
      obtain ⟨b, rfl, rfl⟩ := List.map_eq_singleton_iff.mp rest
      rw [isWhitespace₂_asciiLower]
      exact spaceless.two a b inside
    · obtain ⟨raw, inside, eq⟩ := List.infix_map_iff.mp within
      obtain ⟨a, tail, rfl, rfl, rest⟩ := List.map_eq_cons_iff.mp eq.symm
      obtain ⟨b, last, rfl, rfl, ends⟩ := List.map_eq_cons_iff.mp rest
      obtain ⟨c, rfl, rfl⟩ := List.map_eq_singleton_iff.mp ends
      rw [isWhitespace₃_asciiLower]
      exact spaceless.three a b c inside

/-- A solid byte at the end brings no white space in. -/
theorem append_solid {d : UInt8} (spaceless : Spaceless s) (solid : IsSolid d) :
    Spaceless (s ++ [d]) := by
  have low : ¬ 0x80 ≤ d := UInt8.not_le.mpr solid.2
  have apart {pat : Str} (within : pat <:+: s ++ [d]) : d ∈ pat ∨ pat <:+: s := by
    by_cases inside : d ∈ pat
    · exact .inl inside
    · rcases infix_append_cons inside within with old | nothing
      · exact .inr old
      · rw [List.infix_nil.mp nothing]
        exact .inr List.nil_infix
  refine ⟨fun a within => ?_, fun a b within => ?_, fun a b c within => ?_⟩
  · rcases apart within with here | old
    · obtain rfl := List.mem_singleton.mp here
      exact solid.ne_space
    · exact spaceless.one a old
  · by_contra space
    rw [Bool.not_eq_false] at space
    obtain ⟨high_a, high_b⟩ := isWhitespace₂_high space
    rcases apart within with here | old
    · rcases List.mem_pair.mp here with rfl | rfl
      · exact low high_a
      · exact low high_b
    · rw [spaceless.two a b old] at space
      cases space
  · by_contra space
    rw [Bool.not_eq_false] at space
    obtain ⟨high_a, high_b, high_c⟩ := isWhitespace₃_high space
    rcases apart within with here | old
    · rcases List.mem_cons.mp here with rfl | later
      · exact low high_a
      · rcases List.mem_pair.mp later with rfl | rfl
        · exact low high_b
        · exact low high_c
    · rw [spaceless.three a b c old] at space
      cases space

theorem of_solid {t : Str} (solid : ∀ b ∈ t, IsSolid b) : Spaceless t := by
  induction t using List.reverseRecOn with
  | nil => exact ⟨by simp, by simp, by simp⟩
  | append_singleton front d ih =>
      have earlier := ih fun b mem => solid b (List.mem_append_left _ mem)
      exact earlier.append_solid (solid d (by simp))

theorem append_replicate {d : UInt8} (spaceless : Spaceless s) (solid : IsSolid d) (n : Nat) :
    Spaceless (s ++ List.replicate n d) := by
  induction n with
  | zero => rwa [List.replicate_zero, List.append_nil]
  | succ n ih =>
      rw [List.replicate_succ', ← List.append_assoc]
      exact ih.append_solid solid

end Spaceless

/-- Trimming a byte at the end takes off copies of it. -/
theorem exists_trimEndMatches (c : UInt8) (s : Str) :
    ∃ n, s = trimEndMatches c s ++ List.replicate n c := by
  refine ⟨(s.rtakeWhile (· == c)).length, ?_⟩
  have copies : s.rtakeWhile (· == c) = List.replicate (s.rtakeWhile (· == c)).length c := by
    refine List.eq_replicate_iff.mpr ⟨rfl, fun b mem => ?_⟩
    simpa using List.mem_rtakeWhile_imp mem
  rw [← copies]
  exact List.rdropWhile_append_rtakeWhile.symm

/-! ## Trimming twice -/

section DropSpaces

variable {one : UInt8 → Bool} {two : UInt8 → UInt8 → Bool} {three : UInt8 → UInt8 → UInt8 → Bool}
variable {a b c : UInt8} {s t : Str}

theorem dropSpaces_two (solid : ¬ one a = true) (space : two a b = true) (s : Str) :
    dropSpaces one two three (a :: b :: s) = dropSpaces one two three s := by
  cases s with
  | nil => simp [dropSpaces, solid, space]
  | cons c s => simp [dropSpaces, solid, space]

theorem dropSpaces_three (solid : ¬ one a = true) (solid₂ : ¬ two a b = true)
    (space : three a b c = true) (s : Str) :
    dropSpaces one two three (a :: b :: c :: s) = dropSpaces one two three s := by
  simp [dropSpaces, solid, solid₂, space]

theorem dropSpaces_suffix (s : Str) : dropSpaces one two three s <:+ s := by
  fun_induction dropSpaces one two three s with
  | case1 => exact List.suffix_refl _
  | case2 a space => exact List.nil_suffix
  | case3 a solid => exact List.suffix_refl _
  | case4 a b space ih => exact ih.trans (List.suffix_cons _ _)
  | case5 a b solid space => exact List.nil_suffix
  | case6 a b solid solid₂ => exact List.suffix_refl _
  | case7 a b c rest space ih => exact ih.trans (List.suffix_cons _ _)
  | case8 a b c rest solid space ih =>
      exact ih.trans ((List.suffix_cons _ _).trans (List.suffix_cons _ _))
  | case9 a b c rest solid solid₂ space ih =>
      exact ih.trans ((List.suffix_cons _ _).trans ((List.suffix_cons _ _).trans
        (List.suffix_cons _ _)))
  | case10 a b c rest solid solid₂ solid₃ => exact List.suffix_refl _

/-- What starts with no space still does when it is cut. -/
theorem dropSpaces_of_prefix (fixed : dropSpaces one two three s = s) (front : t <+: s) :
    dropSpaces one two three t = t := by
  have shorter : ∀ {rest : Str}, dropSpaces one two three s = dropSpaces one two three rest →
      s.length ≤ rest.length := by
    intro rest drops
    rw [← fixed, drops]
    exact (dropSpaces_suffix rest).length_le
  apply dropSpaces_eq_self
  · rintro a rest rfl
    obtain ⟨back, rfl⟩ := front
    rw [← Bool.not_eq_true]
    intro space
    have length_le := shorter (dropSpaces_space space (rest ++ back))
    simp only [List.cons_append, List.length_cons] at length_le
    omega
  · rintro a b rest rfl
    obtain ⟨back, rfl⟩ := front
    rw [← Bool.not_eq_true]
    intro space
    by_cases first : one a = true
    · have length_le := shorter (dropSpaces_space first (b :: rest ++ back))
      simp only [List.cons_append, List.length_cons] at length_le
      omega
    · have length_le := shorter (dropSpaces_two first space (rest ++ back))
      simp only [List.cons_append, List.length_cons] at length_le
      omega
  · rintro a b c rest rfl
    obtain ⟨back, rfl⟩ := front
    rw [← Bool.not_eq_true]
    intro space
    by_cases first : one a = true
    · have length_le := shorter (dropSpaces_space first (b :: c :: rest ++ back))
      simp only [List.cons_append, List.length_cons] at length_le
      omega
    · by_cases second : two a b = true
      · have length_le := shorter (dropSpaces_two first second (c :: rest ++ back))
        simp only [List.cons_append, List.length_cons] at length_le
        omega
      · have length_le := shorter (dropSpaces_three first second space (rest ++ back))
        simp only [List.cons_append, List.length_cons] at length_le
        omega

theorem dropSpaces_idem (s : Str) :
    dropSpaces one two three (dropSpaces one two three s) = dropSpaces one two three s := by
  fun_induction dropSpaces one two three s with
  | case1 => rfl
  | case2 a space => rfl
  | case3 a solid => simp [dropSpaces, solid]
  | case4 a b space ih => exact ih
  | case5 a b solid space => rfl
  | case6 a b solid solid₂ => simp [dropSpaces, solid, solid₂]
  | case7 a b c rest space ih => exact ih
  | case8 a b c rest solid space ih => exact ih
  | case9 a b c rest solid solid₂ space ih => exact ih
  | case10 a b c rest solid solid₂ solid₃ => simp [dropSpaces, solid, solid₂, solid₃]

/-- A space that ends no longer character is dropped with what is before it, or stays behind it. -/
theorem dropSpaces_concat (space : one c = true) (no_two : ∀ a, two a c = false)
    (no_three : ∀ a b, three a b c = false) (s : Str) :
    dropSpaces one two three (s ++ [c]) =
      if dropSpaces one two three s = [] then [] else dropSpaces one two three s ++ [c] := by
  fun_induction dropSpaces one two three s with
  | case1 => simp [dropSpaces, space]
  | case2 a spaceₐ => simp [dropSpaces, spaceₐ, space]
  | case3 a solid => simp [dropSpaces, solid, no_two]
  | case4 a b spaceₐ ih =>
      rw [← ih]
      exact dropSpaces_space spaceₐ _
  | case5 a b solid space₂ =>
      rw [if_pos rfl]
      exact (dropSpaces_two solid space₂ [c]).trans (dropSpaces_space space [])
  | case6 a b solid solid₂ => simp [dropSpaces, solid, solid₂, no_three]
  | case7 a b d rest spaceₐ ih =>
      rw [← ih]
      exact dropSpaces_space spaceₐ _
  | case8 a b d rest solid space₂ ih =>
      rw [← ih]
      exact dropSpaces_two solid space₂ _
  | case9 a b d rest solid solid₂ space₃ ih =>
      rw [← ih]
      exact dropSpaces_three solid solid₂ space₃ _
  | case10 a b d rest solid solid₂ solid₃ => simp [dropSpaces, solid, solid₂, solid₃]

/-- A byte that belongs to no space ends the dropping. -/
theorem dropSpaces_append_cons (no_one : one c = false)
    (no_two : ∀ a, two a c = false ∧ two c a = false)
    (no_three : ∀ a b, three a b c = false ∧ three a c b = false ∧ three c a b = false)
    (s t : Str) :
    dropSpaces one two three (s ++ c :: t) = dropSpaces one two three s ++ c :: t := by
  have barrier : dropSpaces one two three (c :: t) = c :: t :=
    dropSpaces_of_solid no_one (fun a => (no_two a).2) (fun a b => (no_three a b).2.2) t
  fun_induction dropSpaces one two three s with
  | case1 => exact barrier
  | case2 a space => exact (dropSpaces_space space _).trans barrier
  | case3 a solid =>
      cases t with
      | nil => simp [dropSpaces, solid, no_two]
      | cons b t => simp [dropSpaces, solid, no_two, no_three]
  | case4 a b space ih =>
      rw [← ih]
      exact dropSpaces_space space _
  | case5 a b solid space₂ => exact (dropSpaces_two solid space₂ (c :: t)).trans barrier
  | case6 a b solid solid₂ => simp [dropSpaces, solid, solid₂, no_three]
  | case7 a b d rest space ih =>
      rw [← ih]
      exact dropSpaces_space space _
  | case8 a b d rest solid space₂ ih =>
      rw [← ih]
      exact dropSpaces_two solid space₂ _
  | case9 a b d rest solid solid₂ space₃ ih =>
      rw [← ih]
      exact dropSpaces_three solid solid₂ space₃ _
  | case10 a b d rest solid solid₂ solid₃ => simp [dropSpaces, solid, solid₂, solid₃]

end DropSpaces

theorem trimStart_append_cons {c : UInt8} (solid : IsSolid c) (s t : Str) :
    trimStart (s ++ c :: t) = trimStart s ++ c :: t := by
  have other : ∀ x : UInt8, 0x80 ≤ x → ¬ c = x := fun x high => solid.ne_high high
  refine dropSpaces_append_cons solid.ne_space (fun a => ?_) (fun a b => ?_) s t
  · simp [isWhitespace₂, other 0xC2 (by decide), other 0x85 (by decide), other 0xA0 (by decide)]
  · simp [isWhitespace₃, other 0xE1 (by decide), other 0xE2 (by decide), other 0xE3 (by decide),
      other 0x9A (by decide), other 0x80 (by decide), other 0x81 (by decide),
      other 0x9F (by decide), other 0xA8 (by decide), other 0xA9 (by decide),
      other 0xAF (by decide), UInt8.not_le.mpr solid.2]

theorem trimEnd_append_cons {c : UInt8} (solid : IsSolid c) (s t : Str) :
    trimEnd (s ++ c :: t) = s ++ c :: trimEnd t := by
  have other : ∀ x : UInt8, 0x80 ≤ x → ¬ c = x := fun x high => solid.ne_high high
  have reversed : (s ++ c :: t).reverse = t.reverse ++ c :: s.reverse := by simp
  rw [trimEnd, reversed, dropSpaces_append_cons solid.ne_space]
  · simp [trimEnd]
  · intro a
    simp [isWhitespace₂, other 0xC2 (by decide), other 0x85 (by decide), other 0xA0 (by decide)]
  · intro a b
    simp [isWhitespace₃, other 0xE1 (by decide), other 0xE2 (by decide), other 0xE3 (by decide),
      other 0x9A (by decide), other 0x80 (by decide), other 0x81 (by decide),
      other 0x9F (by decide), other 0xA8 (by decide), other 0xA9 (by decide),
      other 0xAF (by decide), UInt8.not_le.mpr solid.2]

/-- Trimming keeps every solid byte. -/
theorem mem_trim_of_solid {c : UInt8} (solid : IsSolid c) {s : Str} (mem : c ∈ s) : c ∈ trim s := by
  obtain ⟨front, back, rfl⟩ := List.append_of_mem mem
  rw [trim, trimStart_append_cons solid, trimEnd_append_cons solid]
  simp

theorem trim_trim (s : Str) : trim (trim s) = trim s := by
  have front : trimEnd (trimStart s) <+: trimStart s := by
    rw [← List.reverse_suffix, trimEnd, List.reverse_reverse]
    exact dropSpaces_suffix _
  have started : trimStart (trim s) = trim s := dropSpaces_of_prefix (dropSpaces_idem s) front
  rw [trim, started, trim, trimEnd, trimEnd, List.reverse_reverse, dropSpaces_idem]

/-- A carriage return at the end is trimmed away. -/
theorem trim_concat_cr (s : Str) : trim (s ++ [13]) = trim s := by
  have ends : ∀ t : Str, trimEnd (t ++ [13]) = trimEnd t := by
    intro t
    rw [trimEnd, List.reverse_append, List.reverse_singleton, List.singleton_append,
      dropSpaces_space (by decide), trimEnd]
  have no_two : ∀ a, isWhitespace₂ a 13 = false := by simp [isWhitespace₂]
  have no_three : ∀ a b, isWhitespace₃ a b 13 = false := by simp [isWhitespace₃]
  rw [trim, trimStart, dropSpaces_concat (by decide) no_two no_three, trim, trimStart]
  split
  · rename_i empty
    rw [empty]
  · exact ends _

/-! ## Words -/

theorem splitSpaces_space {a : UInt8} (space : isWhitespace₁ a = true) (s : Str) :
    splitSpaces (a :: s) = [] :: splitSpaces s := by
  cases s with
  | nil => simp [splitSpaces, space]
  | cons b s =>
      cases s with
      | nil => simp [splitSpaces, space]
      | cons c s => simp [splitSpaces, space]

theorem splitSpaces_solid {a : UInt8} {s : Str} (solid : isWhitespace₁ a = false)
    (solid₂ : ∀ b rest, s = b :: rest → isWhitespace₂ a b = false)
    (solid₃ : ∀ b c rest, s = b :: c :: rest → isWhitespace₃ a b c = false) :
    splitSpaces (a :: s) = (splitSpaces s).modifyHead (a :: ·) := by
  cases s with
  | nil => simp [splitSpaces, solid]
  | cons b s =>
      have second := solid₂ b s rfl
      cases s with
      | nil => simp [splitSpaces, solid, second]
      | cons c s => simp [splitSpaces, solid, second, solid₃ b c s rfl]

namespace Spaceless

variable {word : Str}

theorem splitSpaces_eq (spaceless : Spaceless word) : splitSpaces word = [word] := by
  induction word with
  | nil => rfl
  | cons a word ih =>
      have later := ih (spaceless.of_infix (List.suffix_cons a word).isInfix)
      rw [splitSpaces_solid, later]
      · rfl
      · exact spaceless.one a ⟨[], word, rfl⟩
      · rintro b rest rfl
        exact spaceless.two a b ⟨[], rest, rfl⟩
      · rintro b c rest rfl
        exact spaceless.three a b c ⟨[], rest, rfl⟩

/-- A word ends at the first space. -/
theorem splitSpaces_append (spaceless : Spaceless word) (rest : Str) :
    splitSpaces (word ++ 32 :: rest) = word :: splitSpaces rest := by
  -- a space is no part of a longer white-space character
  have low : ¬ (0x80 : UInt8) ≤ 32 := by decide
  induction word with
  | nil => exact splitSpaces_space rfl rest
  | cons a word ih =>
      have later := ih (spaceless.of_infix (List.suffix_cons a word).isInfix)
      rw [List.cons_append, splitSpaces_solid, later]
      · rfl
      · exact spaceless.one a ⟨[], word, rfl⟩
      · intro b behind cut
        cases word with
        | nil =>
            obtain ⟨rfl, -⟩ := List.cons.inj cut
            exact Bool.eq_false_iff.mpr fun space => low (isWhitespace₂_high space).2
        | cons b' word =>
            obtain ⟨rfl, -⟩ := List.cons.inj cut
            exact spaceless.two a _ ⟨[], word, rfl⟩
      · intro b c behind cut
        cases word with
        | nil =>
            obtain ⟨rfl, -⟩ := List.cons.inj cut
            exact Bool.eq_false_iff.mpr fun space => low (isWhitespace₃_high space).2.1
        | cons b' word =>
            obtain ⟨rfl, behind_cut⟩ := List.cons.inj cut
            cases word with
            | nil =>
                obtain ⟨rfl, -⟩ := List.cons.inj behind_cut
                exact Bool.eq_false_iff.mpr fun space => low (isWhitespace₃_high space).2.2
            | cons c' word =>
                obtain ⟨rfl, -⟩ := List.cons.inj behind_cut
                exact spaceless.three a _ _ ⟨[], word, rfl⟩

end Spaceless

end Wire
