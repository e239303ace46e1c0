import PrivacyEngine.Policy.Config
import PrivacyEngine.Wire.Spaceless

/-!
# Authorities

The target of a CONNECT request is normalized to a host and a decimal port.  Whatever spelling of a
port is accepted, the result is read back as itself, and the host key of the result is the key of
the host that was written.
-/

namespace PrivacyEngine

open Wire

/-! ## The readers -/

/-- `str::parse::<u16>`. -/
def parsePort (s : Str) : Option Nat := (fromStrRadix 10 s).filter (· < 65536)

def withPort (host : Str) (port : Nat) : Str := host ++ 58 :: decimal port

def normalizeAuthority (authority : Str) : Option Str :=
  if authority = [] ∨ 47 ∈ authority then none
  else if authority.head? = some 91 then
    match splitOnce 93 authority with
    | none => none
    | some (front, rest) =>
        let host := front ++ [93]
        match rest with
        | [] => some (host ++ ascii ":443")
        | 58 :: port => (parsePort port).map (withPort host)
        | _ => none
  else
    match rsplitOnce 58 authority with
    | some (host, port) =>
        if host = [] ∨ port = [] ∨ 58 ∈ host then none
        else (parsePort port).map (withPort host)
    | none => some (authority ++ ascii ":443")

def parseConnectTarget (requestLine : Str) : Option Str :=
  match splitWhitespace requestLine with
  | [method, authority, _] =>
      if !eqIgnoreAsciiCase method (ascii "CONNECT") then none
      else if authority = [] ∨ 47 ∈ authority then none
      else normalizeAuthority authority
  | _ => none

/-- The host of an authority, normalized, without the brackets of an IPv6 literal. -/
def hostFromAuthority (authority : Str) : Option Str :=
  if authority = [] then none
  else if authority.head? = some 91 then
    (splitOnce 93 authority).map fun cut => normalizeHost (cut.1.drop 1)
  else
    match rsplitOnce 58 authority with
    | some (host, _) => some (normalizeHost host)
    | none => some (normalizeHost authority)

/-! ## Hosts as they are written -/

/-- The host of an authority as it is written, and the host that is meant. -/
inductive WrittenHost : Str → Str → Prop where
  | named {host : Str} (filled : ∃ b ∈ host, b ≠ 46) (no_colon : 58 ∉ host) (no_slash : 47 ∉ host)
      (no_bracket : host.head? ≠ some 91) (spaceless : Spaceless host) : WrittenHost host host
  | bracketed {literal : Str} (filled : ∃ b ∈ literal, b ≠ 46) (no_bracket : 93 ∉ literal)
      (no_slash : 47 ∉ literal) (spaceless : Spaceless literal) :
      WrittenHost (91 :: literal ++ [93]) literal

theorem parsePort_le {s : Str} {port : Nat} (parses : parsePort s = some port) : port ≤ 65535 := by
  have small := (Option.filter_eq_some_iff.mp parses).2
  have bound : port < 65536 := by simpa using small
  omega

theorem parsePort_decimal {port : Nat} (small : port ≤ 65535) :
    parsePort (decimal port) = some port := by
  have fits : port < usizeBound := by
    simp only [usizeBound, UInt64.size]
    omega
  have bound : port < 65536 := by omega
  rw [parsePort, fromStrRadix_decimal, if_pos fits]
  simp [bound]

theorem digit_of_readDigits {radix acc value : Nat} {s : Str}
    (reads : readDigits radix acc s = some value) :
    ∀ b ∈ s, (digitValue radix b).isSome = true := by
  induction s generalizing acc with
  | nil => simp
  | cons b s ih =>
      rw [readDigits] at reads
      cases digit : digitValue radix b with
      | none => simp [digit] at reads
      | some v =>
          simp only [digit] at reads
          split at reads
          · exact List.forall_mem_cons.mpr ⟨by rw [digit]; rfl, ih reads⟩
          · cases reads

/-- A port consists of digits behind an optional sign. -/
theorem parsePort_none {s : Str} {b : UInt8} (mem : b ∈ s) (no_digit : digitValue 10 b = none)
    (no_sign : b ≠ 43) : parsePort s = none := by
  have refused : ∀ {t : Str}, b ∈ t → readDigits 10 0 t = none := by
    intro t inside
    cases reads : readDigits 10 0 t with
    | none => rfl
    | some value =>
        have digit := digit_of_readDigits reads b inside
        rw [no_digit] at digit
        cases digit
  cases s with
  | nil => cases mem
  | cons first rest =>
      rw [parsePort, fromStrRadix]
      split
      · rename_i sign
        have later : b ∈ rest := (List.mem_cons.mp mem).resolve_left fun same =>
          no_sign (same.trans sign)
        rw [if_neg (List.ne_nil_of_mem later), refused later]
        rfl
      · rw [refused mem]
        rfl

theorem colon_not_mem_decimal (port : Nat) : 58 ∉ decimal port := fun mem =>
  absurd (decimal_digit mem).2 (by decide)

namespace WrittenHost

variable {written host : Str}

theorem ne_nil (writes : WrittenHost written host) : written ≠ [] := by
  cases writes with
  | named filled =>
      rintro rfl
      obtain ⟨b, mem, -⟩ := filled
      cases mem
  | bracketed => simp

theorem no_slash (writes : WrittenHost written host) : 47 ∉ written := by
  cases writes with
  | named _ _ no_slash => exact no_slash
  | bracketed _ _ no_slash => simpa using no_slash

theorem spaceless (writes : WrittenHost written host) : Spaceless host := by
  cases writes with
  | named _ _ _ _ spaceless => exact spaceless
  | bracketed _ _ _ spaceless => exact spaceless

theorem filled (writes : WrittenHost written host) : ∃ b ∈ host, b ≠ 46 := by
  cases writes with
  | named filled => exact filled
  | bracketed filled => exact filled

theorem head?_append (writes : WrittenHost written host) (rest : Str) :
    (written ++ rest).head? = written.head? := by
  cases h : written with
  | nil => exact absurd h writes.ne_nil
  | cons b written => rfl

/-- A host without port gets port 443. -/
theorem normalizeAuthority_plain (writes : WrittenHost written host) :
    normalizeAuthority written = some (withPort written 443) := by
  have accepted : ¬ (written = [] ∨ 47 ∈ written) := not_or.mpr ⟨writes.ne_nil, writes.no_slash⟩
  rw [normalizeAuthority, if_neg accepted]
  cases writes with
  | named _ no_colon _ no_bracket =>
      rw [if_neg no_bracket, rsplitOnce_eq_none_iff.mpr no_colon]
      rfl
  | bracketed _ no_bracket =>
      have cut : splitOnce 93 (91 :: host ++ [93]) = some (91 :: host, []) :=
        splitOnce_eq_some_iff.mpr ⟨rfl, by simpa using no_bracket⟩
      have opens : (91 :: host ++ [93]).head? = some 91 := rfl
      rw [if_pos opens, cut]
      rfl

/-- A host with a port is accepted when the port is, and gets the decimal port. -/
theorem normalizeAuthority_port (writes : WrittenHost written host) (port : Str) :
    normalizeAuthority (written ++ 58 :: port) = (parsePort port).map (withPort written) := by
  by_cases slash : 47 ∈ port
  · rw [parsePort_none slash (by decide) (by decide)]
    exact if_pos (.inr (by simp [slash]))
  · have accepted : ¬ (written ++ 58 :: port = [] ∨ 47 ∈ written ++ 58 :: port) := by
      simp [slash, writes.no_slash]
    rw [normalizeAuthority, if_neg accepted, writes.head?_append]
    cases writes with
    | named filled no_colon no_slash no_bracket spaceless =>
        rw [if_neg no_bracket]
        by_cases colon : 58 ∈ port
        · rw [parsePort_none colon (by decide) (by decide)]
          cases cut : rsplitOnce 58 (written ++ 58 :: port) with
          | none => exact absurd (by simp) (rsplitOnce_eq_none_iff.mp cut)
          | some parts =>
              obtain ⟨front, back⟩ := parts
              obtain ⟨whole, absent⟩ := rsplitOnce_eq_some_iff.mp cut
              -- a front without colon would end where the host ends
              have inside : 58 ∈ front := by
                by_contra outside
                have first := splitOnce_eq_some_iff.mpr ⟨whole, outside⟩
                rw [splitOnce_eq_some_iff.mpr ⟨rfl, no_colon⟩] at first
                obtain ⟨-, same⟩ := Prod.mk.inj (Option.some.inj first)
                exact absent (same ▸ colon)
              dsimp only
              exact if_pos (.inr (.inr inside))
        · rw [rsplitOnce_eq_some_iff.mpr ⟨rfl, colon⟩]
          by_cases empty : port = []
          · subst empty
            exact if_pos (.inr (.inl rfl))
          · have filled_host :=
              (WrittenHost.named filled no_colon no_slash no_bracket spaceless).ne_nil
            dsimp only
            exact if_neg (not_or.mpr ⟨filled_host, not_or.mpr ⟨empty, no_colon⟩⟩)
    | bracketed _ no_bracket =>
        have cut : splitOnce 93 (91 :: host ++ [93] ++ 58 :: port) =
            some (91 :: host, 58 :: port) :=
          splitOnce_eq_some_iff.mpr ⟨by simp, by simpa using no_bracket⟩
        have opens : (91 :: host ++ [93]).head? = some 91 := rfl
        rw [if_pos opens, cut]
        rfl

/-- The result is read back as itself. -/
theorem normalizeAuthority_withPort (writes : WrittenHost written host) {port : Nat}
    (small : port ≤ 65535) :
    normalizeAuthority (withPort written port) = some (withPort written port) := by
  rw [withPort, writes.normalizeAuthority_port, parsePort_decimal small]
  rfl

/-- The host of the result is the host that was meant. -/
theorem hostFromAuthority_withPort (writes : WrittenHost written host) (port : Nat) :
    hostFromAuthority (withPort written port) = some (normalizeHost host) := by
  rw [hostFromAuthority, if_neg (by simp [withPort]), withPort, writes.head?_append]
  cases writes with
  | named _ _ _ no_bracket =>
      have cut : rsplitOnce 58 (written ++ 58 :: decimal port) = some (written, decimal port) :=
        rsplitOnce_eq_some_iff.mpr ⟨rfl, colon_not_mem_decimal port⟩
      rw [if_neg no_bracket, cut]
  | bracketed _ no_bracket =>
      have cut : splitOnce 93 (91 :: host ++ [93] ++ 58 :: decimal port) =
          some (91 :: host, 58 :: decimal port) :=
        splitOnce_eq_some_iff.mpr ⟨by simp, by simpa using no_bracket⟩
      have opens : (91 :: host ++ [93]).head? = some 91 := rfl
      rw [if_pos opens, cut]
      rfl

end WrittenHost

/-- The target of a well-formed request line is its normalized authority. -/
theorem parseConnectTarget_words {method authority version : Str}
    (connects : eqIgnoreAsciiCase method (ascii "CONNECT") = true)
    (filled : authority ≠ []) (ends : version ≠ [])
    (words : ∀ word ∈ [method, authority, version], Spaceless word) :
    parseConnectTarget (method ++ 32 :: (authority ++ 32 :: version)) =
      normalizeAuthority authority := by
  have method_ne : method ≠ [] := by
    rintro rfl
    exact absurd connects (by decide)
  have pieces : splitWhitespace (method ++ 32 :: (authority ++ 32 :: version)) =
      [method, authority, version] := by
    rw [splitWhitespace, (words method (by simp)).splitSpaces_append,
      (words authority (by simp)).splitSpaces_append, (words version (by simp)).splitSpaces_eq]
    simp [method_ne, filled, ends]
  simp only [parseConnectTarget, pieces, connects, Bool.not_true, Bool.false_eq_true, if_false]
  split
  · rename_i refused
    rw [normalizeAuthority, if_pos refused]
  · rfl

end PrivacyEngine
