import PrivacyEngine.Policy.Config
import PrivacyEngine.Wire.Spaceless

/-!
# Host names as keys

Stores normalize a host before they record it, and again when they load it from a file.  Normalizing
can only shorten a name, so a set of names that comes back from a reload unchanged consists of names
that are normalized already.
-/

namespace PrivacyEngine

open Wire

theorem trim_sublist (s : Str) : (trim s).Sublist s := by
  have back : (trimEnd (trimStart s)).reverse.Sublist (trimStart s).reverse := by
    rw [trimEnd, List.reverse_reverse]
    exact (dropSpaces_suffix _).sublist
  exact (List.reverse_sublist.mp back).trans (dropSpaces_suffix s).sublist

theorem asciiLower_asciiLower (b : UInt8) : asciiLower (asciiLower b) = asciiLower b := by
  unfold asciiLower
  split
  · rename_i upper
    have raised : ¬ (65 ≤ b + 32 ∧ b + 32 ≤ 90) := by
      simp only [UInt8.le_iff_toNat_le, UInt8.toNat_add, UInt8.reduceToNat] at upper ⊢
      omega
    rw [if_neg raised]
  · rfl

theorem toAsciiLowercase_idem (s : Str) :
    toAsciiLowercase (toAsciiLowercase s) = toAsciiLowercase s := by
  simp [toAsciiLowercase, Function.comp_def, asciiLower_asciiLower]

theorem toAsciiLowercase_normalizeHost (host : Str) :
    toAsciiLowercase (normalizeHost host) = normalizeHost host :=
  toAsciiLowercase_idem _

/-- Normalizing a lower-case name either keeps or shortens it. -/
theorem normalizeHost_eq_or_lt {host : Str} (lower : toAsciiLowercase host = host) :
    normalizeHost host = host ∨ (normalizeHost host).length < host.length := by
  have dots : trimEndMatches 46 (trim host) <+: trim host := List.rdropWhile_prefix _ _
  have kept := dots.sublist.trans (trim_sublist host)
  rcases kept.length_le.lt_or_eq with shorter | same
  · right
    simpa [normalizeHost, toAsciiLowercase] using shorter
  · left
    rw [normalizeHost, kept.eq_of_length same, lower]

/-- A finite set of names each of which is a normalized name of the set is normalized. -/
theorem normalizeHost_eq_of_preimages (hosts : List Str)
    (preimages : ∀ host ∈ hosts, ∃ raw ∈ hosts, normalizeHost raw = host) :
    ∀ host ∈ hosts, normalizeHost host = host := by
  have lower : ∀ host ∈ hosts, toAsciiLowercase host = host := by
    intro host mem
    obtain ⟨raw, -, rfl⟩ := preimages host mem
    exact toAsciiLowercase_normalizeHost raw
  -- By induction on how far a name is from the longest one: a name that is not normalized comes
  -- from a longer one that is not normalized either.
  suffices all : ∀ room host, host ∈ hosts → hosts.flatten.length < host.length + room →
      normalizeHost host = host by
    intro host mem
    exact all (hosts.flatten.length + 1) host mem (by omega)
  intro room
  induction room with
  | zero =>
      intro host mem long
      have bounded := (List.sublist_flatten_of_mem mem).length_le
      omega
  | succ room ih =>
      intro host mem long
      obtain ⟨raw, raw_mem, rfl⟩ := preimages host mem
      rcases normalizeHost_eq_or_lt (lower raw raw_mem) with fixed | shorter
      · rw [fixed, fixed]
      · rw [ih raw raw_mem (by omega)] at shorter
        omega

/-! ## Spellings of a name -/

/-- The same name up to the case of letters and dots at the end. -/
def SameName (host other : Str) : Prop :=
  toAsciiLowercase (trimEndMatches 46 host) = toAsciiLowercase (trimEndMatches 46 other)

section Keys

variable {host other : Str}

theorem normalizeHost_of_spaceless (spaceless : Spaceless host) :
    normalizeHost host = toAsciiLowercase (trimEndMatches 46 host) := by
  rw [normalizeHost, spaceless.trim_eq]

theorem lower_trimEndMatches (host : Str) :
    trimEndMatches 46 (toAsciiLowercase host) = toAsciiLowercase (trimEndMatches 46 host) := by
  have dot : ((· == 46) ∘ asciiLower : UInt8 → Bool) = (· == 46) := by
    funext b
    rw [Function.comp_apply, Bool.eq_iff_iff, beq_iff_eq, beq_iff_eq]
    exact asciiLower_eq_iff (by decide)
  rw [trimEndMatches, trimEndMatches, List.rdropWhile, List.rdropWhile, toAsciiLowercase,
    toAsciiLowercase, ← List.map_reverse, List.dropWhile_map, dot, List.map_reverse]

theorem spaceless_iff_trimEndMatches : Spaceless (trimEndMatches 46 host) ↔ Spaceless host := by
  constructor
  · intro trimmed
    obtain ⟨n, whole⟩ := exists_trimEndMatches 46 host
    rw [whole]
    exact trimmed.append_replicate ⟨by decide, by decide⟩ n
  · intro spaceless
    exact spaceless.of_infix (List.rdropWhile_prefix _ _).isInfix

theorem SameName.spaceless (same : SameName host other) (spaceless : Spaceless host) :
    Spaceless other := by
  rw [← spaceless_iff_trimEndMatches, ← Spaceless.lower_iff] at spaceless ⊢
  rwa [← same]

/-- Every spelling of a name has its key, in either case and when it is normalized before. -/
theorem SameName.normalizeHost_eq (same : SameName host other) (spaceless : Spaceless host) :
    normalizeHost other = normalizeHost host ∧
      normalizeHost (toAsciiLowercase other) = normalizeHost host ∧
      normalizeHost (normalizeHost other) = normalizeHost host := by
  have other_spaceless := same.spaceless spaceless
  have key : normalizeHost other = normalizeHost host := by
    rw [normalizeHost_of_spaceless other_spaceless, normalizeHost_of_spaceless spaceless, same]
  refine ⟨key, ?_, ?_⟩
  · rw [normalizeHost_of_spaceless (Spaceless.lower_iff.mpr other_spaceless), lower_trimEndMatches,
      toAsciiLowercase_idem, ← normalizeHost_of_spaceless other_spaceless, key]
  · have trimmed := Spaceless.lower_iff.mpr (spaceless_iff_trimEndMatches.mpr other_spaceless)
    rw [normalizeHost_of_spaceless other_spaceless, normalizeHost_of_spaceless trimmed,
      lower_trimEndMatches, toAsciiLowercase_idem, trimEndMatches, trimEndMatches,
      List.rdropWhile_idempotent, ← trimEndMatches,
      ← normalizeHost_of_spaceless other_spaceless, key]

theorem SameName.refl (host : Str) : SameName host host := rfl

theorem normalizeHost_ne_nil (spaceless : Spaceless host) (filled : ∃ b ∈ host, b ≠ 46) :
    normalizeHost host ≠ [] := by
  rw [normalizeHost_of_spaceless spaceless, toAsciiLowercase, ne_eq, List.map_eq_nil_iff]
  intro only_dots
  obtain ⟨b, mem, other⟩ := filled
  have dot := List.rdropWhile_eq_nil_iff.mp only_dots b mem
  exact other (by simpa using dot)

end Keys

end PrivacyEngine
