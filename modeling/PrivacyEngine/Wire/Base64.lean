import Mathlib.Data.UInt

/-!
# Unpadded URL-safe base 64

Three bytes are spelled by four symbols, and a rest of one or two bytes by two or three.  The
decoder takes no padding and no bits behind the last byte, so that every text spells at most one
sequence of bytes and every sequence has exactly one spelling.
-/

namespace Base64

/-! ## Symbols -/

/-- The symbol of a value below 64. -/
def symbol (value : Nat) : UInt8 :=
  if value < 26 then UInt8.ofNat (65 + value)
  else if value < 52 then UInt8.ofNat (71 + value)
  else if value < 62 then UInt8.ofNat (value - 4)
  else if value = 62 then 45
  else 95

def value (symbol : UInt8) : Option Nat :=
  let code := symbol.toNat
  if 65 ≤ code ∧ code ≤ 90 then some (code - 65)
  else if 97 ≤ code ∧ code ≤ 122 then some (code - 71)
  else if 48 ≤ code ∧ code ≤ 57 then some (code + 4)
  else if code = 45 then some 62
  else if code = 95 then some 63
  else none

theorem value_symbol {n : Nat} (small : n < 64) : value (symbol n) = some n := by
  have table : ∀ n : Fin 64, value (symbol n) = some n.val := by decide
  exact table ⟨n, small⟩

theorem value_eq_some {s : UInt8} {n : Nat} (found : value s = some n) :
    n < 64 ∧ symbol n = s := by
  have table : ∀ code : Fin 256, ∀ n ∈ value (UInt8.ofNat code), n < 64 ∧
      symbol n = UInt8.ofNat code := by
    decide +kernel
  have row := table ⟨s.toNat, s.toNat_lt⟩ n
  rw [UInt8.ofNat_toNat] at row
  exact row found

/-- No symbol has a meaning of its own in the query of a URL. -/
theorem symbol_ne {n : Nat} (small : n < 64) : symbol n ≠ 38 ∧ symbol n ≠ 61 := by
  have table : ∀ n : Fin 64, symbol n ≠ 38 ∧ symbol n ≠ 61 := by decide
  exact table ⟨n, small⟩

/-! ## Groups -/

/-- The values of the four symbols for three bytes. -/
def sextetA (a : UInt8) : Nat := a.toNat / 4

def sextetB (a b : UInt8) : Nat := a.toNat % 4 * 16 + b.toNat / 16

def sextetC (b c : UInt8) : Nat := b.toNat % 16 * 4 + c.toNat / 64

def sextetD (c : UInt8) : Nat := c.toNat % 64

/-- The three bytes of four values. -/
def byteA (w x : Nat) : UInt8 := UInt8.ofNat (w * 4 + x / 16)

def byteB (x y : Nat) : UInt8 := UInt8.ofNat (x % 16 * 16 + y / 4)

def byteC (y z : Nat) : UInt8 := UInt8.ofNat (y % 4 * 64 + z)

/-- The spelling of bytes; a last group is filled with zeros that are not spelled. -/
def encode : List UInt8 → List UInt8
  | [] => []
  | [a] => [symbol (sextetA a), symbol (sextetB a 0)]
  | [a, b] => [symbol (sextetA a), symbol (sextetB a b), symbol (sextetC b 0)]
  | a :: b :: c :: bytes =>
      symbol (sextetA a) :: symbol (sextetB a b) :: symbol (sextetC b c) :: symbol (sextetD c) ::
        encode bytes

/-- The bytes of a text, unless bits are left over. -/
def decode : List UInt8 → Option (List UInt8)
  | [] => some []
  | [_] => none
  | [w, x] => do
      let w ← value w
      let x ← value x
      if x % 16 = 0 then some [byteA w x] else none
  | [w, x, y] => do
      let w ← value w
      let x ← value x
      let y ← value y
      if y % 4 = 0 then some [byteA w x, byteB x y] else none
  | w :: x :: y :: z :: text => do
      let w ← value w
      let x ← value x
      let y ← value y
      let z ← value z
      let bytes ← decode text
      some (byteA w x :: byteB x y :: byteC y z :: bytes)

section Groups

theorem sextetA_lt (a : UInt8) : sextetA a < 64 := by
  have a_lt := a.toNat_lt
  rw [sextetA]
  omega

theorem sextetB_lt (a b : UInt8) : sextetB a b < 64 := by
  have b_lt := b.toNat_lt
  rw [sextetB]
  omega

theorem sextetC_lt (b c : UInt8) : sextetC b c < 64 := by
  have c_lt := c.toNat_lt
  rw [sextetC]
  omega

theorem sextetD_lt (c : UInt8) : sextetD c < 64 := Nat.mod_lt _ (by decide)

theorem byteA_sextets (a b : UInt8) : byteA (sextetA a) (sextetB a b) = a := by
  have b_lt := b.toNat_lt
  have joined : sextetA a * 4 + sextetB a b / 16 = a.toNat := by
    rw [sextetA, sextetB]
    omega
  rw [byteA, joined, UInt8.ofNat_toNat]

theorem byteB_sextets (a b c : UInt8) : byteB (sextetB a b) (sextetC b c) = b := by
  have b_lt := b.toNat_lt
  have c_lt := c.toNat_lt
  have joined : sextetB a b % 16 * 16 + sextetC b c / 4 = b.toNat := by
    rw [sextetB, sextetC]
    omega
  rw [byteB, joined, UInt8.ofNat_toNat]

theorem byteC_sextets (b c : UInt8) : byteC (sextetC b c) (sextetD c) = c := by
  have c_lt := c.toNat_lt
  have joined : sextetC b c % 4 * 64 + sextetD c = c.toNat := by
    rw [sextetC, sextetD]
    omega
  rw [byteC, joined, UInt8.ofNat_toNat]

variable {w x y z : Nat}

theorem toNat_byteA (w_lt : w < 64) (x_lt : x < 64) : (byteA w x).toNat = w * 4 + x / 16 := by
  rw [byteA, UInt8.toNat_ofNat_of_lt']
  change _ < 256
  omega

theorem toNat_byteB (y_lt : y < 64) : (byteB x y).toNat = x % 16 * 16 + y / 4 := by
  rw [byteB, UInt8.toNat_ofNat_of_lt']
  change _ < 256
  omega

theorem toNat_byteC (z_lt : z < 64) : (byteC y z).toNat = y % 4 * 64 + z := by
  rw [byteC, UInt8.toNat_ofNat_of_lt']
  change _ < 256
  omega

theorem sextetA_bytes (w_lt : w < 64) (x_lt : x < 64) : sextetA (byteA w x) = w := by
  rw [sextetA, toNat_byteA w_lt x_lt]
  omega

theorem sextetB_bytes (w_lt : w < 64) (x_lt : x < 64) (y_lt : y < 64) :
    sextetB (byteA w x) (byteB x y) = x := by
  rw [sextetB, toNat_byteA w_lt x_lt, toNat_byteB y_lt]
  omega

theorem sextetC_bytes (y_lt : y < 64) (z_lt : z < 64) :
    sextetC (byteB x y) (byteC y z) = y := by
  rw [sextetC, toNat_byteB y_lt, toNat_byteC z_lt]
  omega

theorem sextetD_bytes (z_lt : z < 64) : sextetD (byteC y z) = z := by
  rw [sextetD, toNat_byteC z_lt]
  omega

/-- Without bits left over, the byte behind the last one would be zero. -/
theorem byteB_aligned (aligned : x % 16 = 0) : byteB x 0 = 0 := by
  rw [byteB, aligned]
  rfl

theorem byteC_aligned (aligned : y % 4 = 0) : byteC y 0 = 0 := by
  rw [byteC, aligned]
  rfl

end Groups

/-! ## Texts -/

/-- Bytes are decoded from their spelling. -/
theorem decode_encode (bytes : List UInt8) : decode (encode bytes) = some bytes := by
  induction bytes using encode.induct with
  | case1 => rfl
  | case2 a =>
      have aligned : sextetB a 0 % 16 = 0 := Nat.mul_mod_left _ _
      simp only [encode, decode, value_symbol (sextetA_lt a), value_symbol (sextetB_lt a 0),
        Option.bind_eq_bind, Option.bind_some, if_pos aligned, byteA_sextets]
  | case3 a b =>
      have aligned : sextetC b 0 % 4 = 0 := Nat.mul_mod_left _ _
      simp only [encode, decode, value_symbol (sextetA_lt a), value_symbol (sextetB_lt a b),
        value_symbol (sextetC_lt b 0), Option.bind_eq_bind, Option.bind_some, if_pos aligned,
        byteA_sextets, byteB_sextets]
  | case4 a b c bytes ih =>
      simp only [encode, decode, value_symbol (sextetA_lt a), value_symbol (sextetB_lt a b),
        value_symbol (sextetC_lt b c), value_symbol (sextetD_lt c), Option.bind_eq_bind,
        Option.bind_some, ih, byteA_sextets, byteB_sextets, byteC_sextets]

/-- Only the spelling of some bytes is decoded to them. -/
theorem encode_of_decode {text bytes : List UInt8} (decodes : decode text = some bytes) :
    encode bytes = text := by
  have zero : 0 < 64 := Nat.succ_pos 63
  induction text using decode.induct generalizing bytes with
  | case1 =>
      cases decodes
      rfl
  | case2 => cases decodes
  | case3 s t =>
      simp only [decode, Option.bind_eq_bind, Option.bind_eq_some_iff] at decodes
      obtain ⟨w, s_value, x, t_value, ends⟩ := decodes
      obtain ⟨w_lt, rfl⟩ := value_eq_some s_value
      obtain ⟨x_lt, rfl⟩ := value_eq_some t_value
      split at ends
      · rename_i aligned
        cases ends
        have last := sextetB_bytes w_lt x_lt zero
        rw [byteB_aligned aligned] at last
        rw [encode, sextetA_bytes w_lt x_lt, last]
      · cases ends
  | case4 s t u =>
      simp only [decode, Option.bind_eq_bind, Option.bind_eq_some_iff] at decodes
      obtain ⟨w, s_value, x, t_value, y, u_value, ends⟩ := decodes
      obtain ⟨w_lt, rfl⟩ := value_eq_some s_value
      obtain ⟨x_lt, rfl⟩ := value_eq_some t_value
      obtain ⟨y_lt, rfl⟩ := value_eq_some u_value
      split at ends
      · rename_i aligned
        cases ends
        have last := @sextetC_bytes x y 0 y_lt zero
        rw [byteC_aligned aligned] at last
        rw [encode, sextetA_bytes w_lt x_lt, sextetB_bytes w_lt x_lt y_lt, last]
      · cases ends
  | case5 s t u v text ih =>
      simp only [decode, Option.bind_eq_bind, Option.bind_eq_some_iff] at decodes
      obtain ⟨w, s_value, x, t_value, y, u_value, z, v_value, rest, later, ends⟩ := decodes
      obtain ⟨w_lt, rfl⟩ := value_eq_some s_value
      obtain ⟨x_lt, rfl⟩ := value_eq_some t_value
      obtain ⟨y_lt, rfl⟩ := value_eq_some u_value
      obtain ⟨z_lt, rfl⟩ := value_eq_some v_value
      cases ends
      rw [encode, sextetA_bytes w_lt x_lt, sextetB_bytes w_lt x_lt y_lt, sextetC_bytes y_lt z_lt,
        sextetD_bytes z_lt, ih later]

/-- A text is decoded to some bytes exactly if it is their spelling. -/
theorem decode_eq_some_iff {text bytes : List UInt8} :
    decode text = some bytes ↔ text = encode bytes := by
  constructor
  · intro decodes
    exact (encode_of_decode decodes).symm
  · rintro rfl
    exact decode_encode bytes

/-- A spelling consists of symbols. -/
theorem symbols_encode (bytes : List UInt8) : ∀ s ∈ encode bytes, ∃ n < 64, symbol n = s := by
  induction bytes using encode.induct with
  | case1 => exact List.forall_mem_nil _
  | case2 a =>
      simp only [encode, List.forall_mem_cons]
      exact ⟨⟨_, sextetA_lt a, rfl⟩, ⟨_, sextetB_lt a 0, rfl⟩, List.forall_mem_nil _⟩
  | case3 a b =>
      simp only [encode, List.forall_mem_cons]
      exact ⟨⟨_, sextetA_lt a, rfl⟩, ⟨_, sextetB_lt a b, rfl⟩, ⟨_, sextetC_lt b 0, rfl⟩,
        List.forall_mem_nil _⟩
  | case4 a b c bytes ih =>
      simp only [encode, List.forall_mem_cons]
      exact ⟨⟨_, sextetA_lt a, rfl⟩, ⟨_, sextetB_lt a b, rfl⟩, ⟨_, sextetC_lt b c, rfl⟩,
        ⟨_, sextetD_lt c, rfl⟩, ih⟩

end Base64
