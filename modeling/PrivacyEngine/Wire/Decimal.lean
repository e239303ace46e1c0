import PrivacyEngine.Wire.Text

/-!
# Digits of numbers

The decimal digits of a number, behind any white space, are read back as the number itself as long
as it fits an unsigned 64-bit integer, and so is every other spelling of it in any radix.
-/

namespace Wire

/-! ## Trimming -/

section DropSpaces

variable {one : UInt8 → Bool} {two : UInt8 → UInt8 → Bool} {three : UInt8 → UInt8 → UInt8 → Bool}

theorem dropSpaces_space {a : UInt8} (space : one a = true) (s : Str) :
    dropSpaces one two three (a :: s) = dropSpaces one two three s := by
  cases s with
  | nil => simp [dropSpaces, space]
  | cons b s =>
      cases s with
      | nil => simp [dropSpaces, space]
      | cons c s => simp [dropSpaces, space]

theorem dropSpaces_of_solid {a : UInt8} (solid : one a = false) (solid₂ : ∀ b, two a b = false)
    (solid₃ : ∀ b c, three a b c = false) (s : Str) :
    dropSpaces one two three (a :: s) = a :: s := by
  cases s with
  | nil => simp [dropSpaces, solid]
  | cons b s =>
      cases s with
      | nil => simp [dropSpaces, solid, solid₂]
      | cons c s => simp [dropSpaces, solid, solid₂, solid₃]

end DropSpaces

/-- A byte that neither begins nor ends a white-space character. -/
def IsSolid (a : UInt8) : Prop := 33 ≤ a ∧ a < 0x80

theorem IsSolid.ne_space {a : UInt8} (solid : IsSolid a) : isWhitespace₁ a = false := by
  obtain ⟨low, -⟩ := solid
  simp only [isWhitespace₁, Bool.or_eq_false_iff, Bool.and_eq_false_iff, decide_eq_false_iff_not,
    beq_eq_false_iff_ne, ne_eq, UInt8.le_iff_toNat_le, ← UInt8.toNat_inj] at *
  constructor
  · right
    simp at low ⊢
    omega
  · simp at low ⊢
    omega

theorem IsSolid.ne_high {a b : UInt8} (solid : IsSolid a) (high : 0x80 ≤ b) : a ≠ b := by
  rintro rfl
  exact absurd high (UInt8.not_le.mpr solid.2)

theorem trimStart_of_solid {a : UInt8} (solid : IsSolid a) (s : Str) :
    trimStart (a :: s) = a :: s := by
  apply dropSpaces_of_solid
  · exact solid.ne_space
  · intro b
    simp [isWhitespace₂, solid.ne_high (b := 0xC2) (by decide)]
  · intro b c
    simp [isWhitespace₃, solid.ne_high (b := 0xE1) (by decide),
      solid.ne_high (b := 0xE2) (by decide), solid.ne_high (b := 0xE3) (by decide)]

theorem trimEnd_of_solid {a : UInt8} (solid : IsSolid a) (s : Str) :
    trimEnd (s ++ [a]) = s ++ [a] := by
  rw [trimEnd, List.reverse_append, List.reverse_singleton, List.singleton_append,
    dropSpaces_of_solid, List.reverse_cons, List.reverse_reverse]
  · exact solid.ne_space
  · intro b
    simp [isWhitespace₂, solid.ne_high (b := 0x85) (by decide),
      solid.ne_high (b := 0xA0) (by decide)]
  · intro b c
    have other : ∀ x : UInt8, 0x80 ≤ x → ¬ a = x := fun x high => solid.ne_high high
    simp [isWhitespace₃, other 0x80 (by decide), other 0xA8 (by decide), other 0xA9 (by decide),
      other 0xAF (by decide), other 0x9F (by decide), UInt8.not_le.mpr solid.2]

theorem trim_of_solid {s : Str} (solid : ∀ a ∈ s, IsSolid a) : trim s = s := by
  rcases List.eq_nil_or_concat' s with rfl | ⟨front, last, rfl⟩
  · rfl
  · have start : trimStart (front ++ [last]) = front ++ [last] := by
      cases front with
      | nil => exact trimStart_of_solid (solid last (by simp)) []
      | cons first front => exact trimStart_of_solid (solid first (by simp)) _
    rw [trim, start, trimEnd_of_solid (solid last (by simp))]

/-! ## Reading digits -/

theorem readDigits_append (radix acc : Nat) (s t : Str) :
    readDigits radix acc (s ++ t) =
      (readDigits radix acc s).bind fun value => readDigits radix value t := by
  induction s generalizing acc with
  | nil => rfl
  | cons b s ih =>
      rw [List.cons_append, readDigits, readDigits]
      split
      · rfl
      · split
        · exact ih _
        · rfl

theorem digitValue_digitChar {d : Nat} (digit : d < 10) :
    digitValue 10 (Nat.digitChar d).toNat.toUInt8 = some d := by
  have all : ∀ d < 10, digitValue 10 (Nat.digitChar d).toNat.toUInt8 = some d := by decide
  exact all d digit

theorem readDigits_digitChar (acc : Nat) {d : Nat} (digit : d < 10) :
    readDigits 10 acc [(Nat.digitChar d).toNat.toUInt8] =
      if acc * 10 + d < usizeBound then some (acc * 10 + d) else none := by
  simp [readDigits, digitValue_digitChar digit]

theorem decimal_of_lt_base {n : Nat} (small : n < 10) :
    decimal n = [(Nat.digitChar n).toNat.toUInt8] := by
  rw [decimal, Nat.toDigits_of_lt_base small, List.map_singleton]

/-- A number with more than one digit ends in its last digit. -/
theorem decimal_of_base_le {n : Nat} (large : 10 ≤ n) :
    decimal n = decimal (n / 10) ++ [(Nat.digitChar (n % 10)).toNat.toUInt8] := by
  rw [decimal, Nat.toDigits_of_base_le (by decide) large, List.map_append, List.map_singleton,
    ← decimal]

theorem readDigits_decimal (n : Nat) :
    readDigits 10 0 (decimal n) = if n < usizeBound then some n else none := by
  induction n using Nat.strongRecOn with
  | ind n ih =>
      by_cases small : n < 10
      · rw [decimal_of_lt_base small, readDigits_digitChar 0 small, Nat.zero_mul, Nat.zero_add]
      · have last : n % 10 < 10 := Nat.mod_lt n (by decide)
        rw [decimal_of_base_le (not_lt.mp small), readDigits_append, ih (n / 10) (by omega)]
        by_cases fits : n / 10 < usizeBound
        · rw [if_pos fits, Option.bind_some, readDigits_digitChar _ last]
          have value : n / 10 * 10 + n % 10 = n := by omega
          rw [value]
        · have large : ¬ n < usizeBound := by omega
          rw [if_neg fits, if_neg large, Option.bind_none]

theorem decimal_ne_nil (n : Nat) : decimal n ≠ [] := by
  simp [decimal, Nat.toDigits_ne_nil]

theorem digitChar_inj {m n : Nat} (small : m < 10) (small' : n < 10)
    (same : (Nat.digitChar m).toNat.toUInt8 = (Nat.digitChar n).toNat.toUInt8) : m = n := by
  have value := digitValue_digitChar small
  rw [same, digitValue_digitChar small'] at value
  exact (Option.some.inj value).symm

/-- Numbers with the same digits are the same. -/
theorem decimal_inj {m n : Nat} (same : decimal m = decimal n) : m = n := by
  induction n using Nat.strongRecOn generalizing m with
  | ind n ih =>
      have lengths := congrArg List.length same
      rcases Nat.lt_or_ge m 10 with small | large <;> rcases Nat.lt_or_ge n 10 with small' | large'
      · rw [decimal_of_lt_base small, decimal_of_lt_base small'] at same
        exact digitChar_inj small small' (List.cons.inj same).1
      · have filled := List.length_pos_iff.mpr (decimal_ne_nil (n / 10))
        rw [decimal_of_lt_base small, decimal_of_base_le large', List.length_append] at lengths
        simp only [List.length_singleton] at lengths
        omega
      · have filled := List.length_pos_iff.mpr (decimal_ne_nil (m / 10))
        rw [decimal_of_base_le large, decimal_of_lt_base small', List.length_append] at lengths
        simp only [List.length_singleton] at lengths
        omega
      · rw [decimal_of_base_le large, decimal_of_base_le large'] at same
        obtain ⟨front, last⟩ := List.append_inj' same rfl
        have quotient := ih (n / 10) (by omega) front
        have digit := digitChar_inj (Nat.mod_lt m (by decide)) (Nat.mod_lt n (by decide))
          (List.cons.inj last).1
        omega

theorem isSolid_decimal {n : Nat} {b : UInt8} (mem : b ∈ decimal n) : IsSolid b := by
  obtain ⟨low, high⟩ := decimal_digit mem
  exact ⟨UInt8.le_trans (by decide) low, UInt8.lt_of_le_of_lt high (by decide)⟩

/-- The decimal digits of a number are read back as the number. -/
theorem fromStrRadix_decimal (n : Nat) :
    fromStrRadix 10 (decimal n) = if n < usizeBound then some n else none := by
  rw [← readDigits_decimal]
  cases digits : decimal n with
  | nil => exact absurd digits (decimal_ne_nil n)
  | cons b rest =>
      have digit := decimal_digit (n := n) (b := b) (by rw [digits]; simp)
      have not_plus : b ≠ 43 := by
        rintro rfl
        exact absurd digit.1 (by decide)
      rw [fromStrRadix, if_neg not_plus]

/-! ## Spellings -/

/-- Value of digits that are read behind an accumulated value. -/
def digitsValue (radix acc : Nat) (values : List Nat) : Nat :=
  values.foldl (fun acc value => acc * radix + value) acc

/-- The digits of a number, with letters of either case and behind any zeros. -/
def Spells (radix : Nat) (digits : Str) (value : Nat) : Prop :=
  digits ≠ [] ∧ ∃ values, List.Forall₂ (fun b v => digitValue radix b = some v) digits values ∧
    digitsValue radix 0 values = value

theorem le_digitsValue {radix : Nat} (pos : 0 < radix) (acc : Nat) (values : List Nat) :
    acc ≤ digitsValue radix acc values := by
  induction values generalizing acc with
  | nil => exact le_rfl
  | cons value values ih =>
      have shifted : acc ≤ acc * radix + value :=
        (Nat.le_mul_of_pos_right acc pos).trans (Nat.le_add_right _ _)
      exact shifted.trans (ih _)

theorem readDigits_of_values {radix : Nat} (pos : 0 < radix) {digits : Str} {values : List Nat}
    (reads : List.Forall₂ (fun b v => digitValue radix b = some v) digits values) {acc : Nat}
    (fits : digitsValue radix acc values < usizeBound) :
    readDigits radix acc digits = some (digitsValue radix acc values) := by
  induction reads generalizing acc with
  | nil => rfl
  | @cons b v digits values digit _ ih =>
      have small : acc * radix + v < usizeBound := (le_digitsValue pos _ values).trans_lt fits
      rw [readDigits, digit]
      dsimp only
      rw [if_pos small]
      exact ih fits

theorem digit_range {radix value : Nat} {b : UInt8} (digit : digitValue radix b = some value) :
    (48 ≤ b ∧ b ≤ 57) ∨ (97 ≤ b ∧ b ≤ 122) ∨ 65 ≤ b ∧ b ≤ 90 := by
  by_contra outside
  obtain ⟨not_digit, outside⟩ := not_or.mp outside
  obtain ⟨not_lower, not_upper⟩ := not_or.mp outside
  rw [digitValue] at digit
  rw [if_neg not_digit, if_neg not_lower, if_neg not_upper] at digit
  cases digit

theorem isSolid_of_digit {radix value : Nat} {b : UInt8} (digit : digitValue radix b = some value) :
    IsSolid b ∧ b ≠ 43 ∧ b ≠ 59 := by
  simp only [IsSolid, ne_eq, UInt8.le_iff_toNat_le, UInt8.lt_iff_toNat_lt, ← UInt8.toNat_inj]
  have range := digit_range digit
  simp only [UInt8.le_iff_toNat_le] at range
  simp at range ⊢
  omega

namespace Spells

variable {radix : Nat} {digits : Str} {value : Nat}

theorem digit (spells : Spells radix digits value) {b : UInt8} (mem : b ∈ digits) :
    IsSolid b ∧ b ≠ 43 ∧ b ≠ 59 := by
  obtain ⟨-, values, reads, -⟩ := spells
  induction reads with
  | nil => cases mem
  | cons here _ ih =>
      rcases List.mem_cons.mp mem with rfl | later
      · exact isSolid_of_digit here
      · exact ih later

/-- Every spelling of a number is read as the number. -/
theorem fromStrRadix (spells : Spells radix digits value) (pos : 0 < radix)
    (fits : value < usizeBound) :
    Wire.fromStrRadix radix digits = some value := by
  have solid : ∀ b ∈ digits, IsSolid b ∧ b ≠ 43 ∧ b ≠ 59 := fun b mem => spells.digit mem
  obtain ⟨filled, values, reads, rfl⟩ := spells
  cases digits with
  | nil => exact absurd rfl filled
  | cons b rest =>
      have not_plus : b ≠ 43 := (solid b List.mem_cons_self).2.1
      rw [Wire.fromStrRadix, if_neg not_plus]
      exact readDigits_of_values pos reads fits

end Spells

end Wire
