import PrivacyEngine.Mitm.Relay
import PrivacyEngine.Wire.Lines

/-!
# Cache fields

The block of a tracker's response is rebuilt exactly when one of its lines names a cache field.
-/

namespace PrivacyEngine

open Wire

/-- No CRLF line of the block starts with a cache field. -/
def NoCacheFields (block : Bytes) : Prop :=
  ∀ line ∈ splitCrlf block, namesField cacheTrackingFields line = false

theorem namesField_lossy {fields : List Str}
    (fields_ascii : ∀ field ∈ fields, ∀ b ∈ field, b < 0x80)
    (line : Str) : namesField fields (Utf8.lossy line) = namesField fields line := by
  unfold namesField
  rw [Bool.eq_iff_iff, List.any_eq_true, List.any_eq_true]
  constructor
  · rintro ⟨field, mem, starts⟩
    rw [startsWithLower_lossy (fields_ascii field mem)] at starts
    exact ⟨field, mem, starts⟩
  · rintro ⟨field, mem, starts⟩
    rw [← startsWithLower_lossy (fields_ascii field mem)] at starts
    exact ⟨field, mem, starts⟩

theorem cacheTrackingFields_ascii : ∀ field ∈ cacheTrackingFields, ∀ b ∈ field, b < 0x80 := by
  decide +kernel

/-- The lossily decoded lines name a cache field exactly when the received lines do. -/
theorem noCacheFields_iff (block : Bytes) :
    NoCacheFields block ↔
      ∀ line ∈ nonEmptyLines block, namesField cacheTrackingFields line = false := by
  have decoded : splitCrlf (Utf8.lossy block) = (splitCrlf block).map Utf8.lossy :=
    splitPair_lossy block
  unfold NoCacheFields nonEmptyLines
  rw [decoded]
  constructor
  · intro free line mem
    obtain ⟨line₀, mem₀, rfl⟩ := List.mem_map.mp (List.mem_filter.mp mem).1
    rw [namesField_lossy cacheTrackingFields_ascii]
    exact free line₀ mem₀
  · intro free line mem
    by_cases empty : line = []
    · subst empty
      decide
    · rw [← namesField_lossy cacheTrackingFields_ascii]
      apply free
      refine List.mem_filter.mpr ⟨List.mem_map_of_mem mem, ?_⟩
      simpa using fun decoded_empty => empty (Utf8.lossy_eq_nil decoded_empty)

/-- A block is stripped exactly when it has a cache field. -/
theorem cacheStrippedHeaders_eq_none_iff (block : Bytes) :
    cacheStrippedHeaders block = none ↔ NoCacheFields block := by
  have fewer_iff : (stripCacheTrackingHeaders (nonEmptyLines block)).length <
      (nonEmptyLines block).length ↔
      ∃ line ∈ nonEmptyLines block, namesField cacheTrackingFields line = true := by
    rw [stripCacheTrackingHeaders, withoutFields, List.length_filter_lt_length_iff_exists]
    simp
  rw [noCacheFields_iff]
  unfold cacheStrippedHeaders
  dsimp only
  rw [ite_eq_right_iff, fewer_iff]
  constructor
  · intro unstripped line mem
    by_contra named
    exact Option.some_ne_none _ (unstripped ⟨line, mem, by simpa using named⟩)
  · rintro free ⟨line, mem, named⟩
    rw [free line mem] at named
    cases named

theorem splitCrlf_closeHeaders {lines : List Str} (free : ∀ line ∈ lines, PairFree 13 10 line) :
    lines.Sublist (splitCrlf (closeHeaders lines)) ∧
      ∀ line ∈ splitCrlf (closeHeaders lines), line ∈ lines ∨ line = [] := by
  cases lines with
  | nil =>
      have pieces : splitCrlf (closeHeaders []) = [[], [], []] := by decide
      rw [pieces]
      exact ⟨List.nil_sublist _, fun line mem => .inr (by simpa using mem)⟩
  | cons first lines =>
      have cut := splitPair_joinPair_append (by decide) (List.cons_ne_nil first lines) free [13, 10]
      have pieces : splitCrlf (closeHeaders (first :: lines)) = first :: lines ++ [[], []] := by
        simpa [splitCrlf, closeHeaders, joinCrlf, crlfcrlf, splitPair] using cut
      rw [pieces]
      refine ⟨List.sublist_append_left _ _, fun line mem => ?_⟩
      rcases List.mem_append.mp mem with kept | blank
      · exact .inl kept
      · exact .inr (by simpa using blank)

theorem noCacheFields_closeHeaders {lines : List Str} (free : ∀ line ∈ lines, PairFree 13 10 line)
    (unnamed : ∀ line ∈ lines, namesField cacheTrackingFields line = false) :
    NoCacheFields (closeHeaders lines) := by
  intro line mem
  rcases (splitCrlf_closeHeaders free).2 line mem with kept | rfl
  · exact unnamed line kept
  · decide

theorem RelayEnv.headerOutcome_trackerMatch {env : RelayEnv} (block : Bytes) :
    (env.headerOutcome block).trackerMatch = env.sessionPlan.trackerMatch := by
  unfold headerOutcome PolicyEngine.applyHttp1ResponseHeaderPolicy
  dsimp only
  split
  · rfl
  · split
    · rfl
    · split <;> rfl

end PrivacyEngine
