import PrivacyEngine.Proxy.Authority
import PrivacyEngine.Store.PinnedHosts

/-!
# Routing of TLS connections

A tunnel is intercepted unless its host is pinned.  The key of a CONNECT tunnel comes from the
authority, the key of a transparent one from the server name of the ClientHello; both are normalized
once more when they are looked up.  For a host without white space that makes no difference, so
every spelling of a host is routed the same way in both flows.
-/

namespace PrivacyEngine

open Wire Reactive

inductive TlsRoutingDecision where
  | attemptMitm
  | passthrough
  deriving DecidableEq

def decideTlsRouting (hostIsPinned mitmEnabled : Bool) : TlsRoutingDecision :=
  if !hostIsPinned && mitmEnabled then .attemptMitm else .passthrough

/-- `PinnedHosts::contains`. -/
def PinnedHosts.holds (pinned : PinnedHosts) (host : Str) : Bool :=
  pinned.hosts.contains (normalizeHost host)

/-- The decision for a CONNECT target, when its authority has a host. -/
def connectDecision (pinned : PinnedHosts) (mitmEnabled : Bool) (target : Str) :
    Option TlsRoutingDecision :=
  (hostFromAuthority target).map fun host => decideTlsRouting (pinned.holds host) mitmEnabled

/-- The decision for the server name of a ClientHello. -/
def transparentDecision (pinned : PinnedHosts) (mitmEnabled : Bool) (sni : Str) :
    TlsRoutingDecision :=
  decideTlsRouting (pinned.holds (toAsciiLowercase sni)) mitmEnabled

/-! ## Decisions -/

section Decisions

variable {written host sni : Str}

theorem connectDecision_eq (writes : WrittenHost written host) (pinned : PinnedHosts)
    (mitmEnabled : Bool) (port : Nat) :
    connectDecision pinned mitmEnabled (withPort written port) =
      some (decideTlsRouting (pinned.holds host) mitmEnabled) := by
  obtain ⟨-, -, twice⟩ := (SameName.refl host).normalizeHost_eq writes.spaceless
  rw [connectDecision, writes.hostFromAuthority_withPort, Option.map_some, PinnedHosts.holds, twice]
  rfl

theorem transparentDecision_eq (spaceless : Spaceless host) (same : SameName host sni)
    (pinned : PinnedHosts) (mitmEnabled : Bool) :
    transparentDecision pinned mitmEnabled sni =
      decideTlsRouting (pinned.holds host) mitmEnabled := by
  obtain ⟨-, lower, -⟩ := same.normalizeHost_eq spaceless
  rw [transparentDecision, PinnedHosts.holds, lower]
  rfl

end Decisions

namespace PinnedHosts

variable {serde : Serde}

/-- A host that has been added is held, also when it could not be written. -/
theorem holds_of_added (s : PinnedState) {host : Str} (outcomes : Outcomes FsWrite)
    (filled : normalizeHost host ≠ []) :
    (call serde s (.add host outcomes)).2.store.holds host = true := by
  by_cases old : normalizeHost host ∈ s.store.hosts
  · rw [call_add_known serde outcomes (.inr old)]
    exact Std.ExtTreeSet.contains_iff_mem.mpr old
  · cases ends : persistPinnedHosts serde s.store.path (s.store.hosts.insert (normalizeHost host))
      outcomes s.disk with
    | mk result disk =>
        rw [call_add_new filled old ends]
        exact Std.ExtTreeSet.contains_iff_mem.mpr Std.ExtTreeSet.mem_insert_self

/-- Only clearing lets go of a host. -/
theorem holds_of_call {s : PinnedState} {host : Str} (held : s.store.holds host = true)
    {event : PinnedCall} (keeps : ∀ outcomes, event ≠ .clear outcomes) :
    (call serde s event).2.store.holds host = true := by
  cases event with
  | clear outcomes => exact absurd rfl (keeps outcomes)
  | add other outcomes =>
      by_cases known : normalizeHost other = [] ∨ normalizeHost other ∈ s.store.hosts
      · rwa [call_add_known serde outcomes known]
      · obtain ⟨filled, new⟩ := not_or.mp known
        cases ends : persistPinnedHosts serde s.store.path
          (s.store.hosts.insert (normalizeHost other)) outcomes s.disk with
        | mk result disk =>
            rw [call_add_new filled new ends]
            have mem := Std.ExtTreeSet.contains_iff_mem.mp held
            exact Std.ExtTreeSet.contains_iff_mem.mpr (Std.ExtTreeSet.mem_insert.mpr (.inr mem))

/-- A run of one call. -/
theorem run_call (s : PinnedState) (event : PinnedCall) :
    (machine serde).Run s [event] ([(call serde s event).1] ++ [])
      (.running (call serde s event).2) :=
  .step rfl rfl (.stop (call serde s event).2)

theorem holds_of_run {s reached : PinnedState} {host : Str} {calls : List PinnedCall}
    {replies : List PinnedReply}
    (execution : (machine serde).Run s calls replies (.running reached))
    (keeps : ∀ outcomes, PinnedCall.clear outcomes ∉ calls) (held : s.store.holds host = true) :
    reached.store.holds host = true := by
  induction calls generalizing s replies with
  | nil =>
      cases execution with
      | stop => exact held
  | cons event calls ih =>
      cases execution with
      | step polled reacts rest =>
          injection reacts with _ status
          injection status with next
          subst next
          refine ih rest (fun outcomes mem => keeps outcomes (List.mem_cons_of_mem _ mem)) ?_
          refine holds_of_call held fun outcomes same => keeps outcomes ?_
          rw [same]
          exact List.mem_cons_self

end PinnedHosts

/-- An authority, by itself or in a request line, is normalized to its host and a decimal port that
is read back; its key is the key of its host.  So all spellings of a host are routed alike in both
flows, and a host that has been added is passed through in both until the set is cleared. -/
theorem flows_share_pin_key (serde : Serde) {written host : Str}
    (writes : WrittenHost written host) :
    (normalizeAuthority written = some (withPort written 443) ∧
      (∀ text, normalizeAuthority (written ++ 58 :: text) =
        (parsePort text).map (withPort written)) ∧
      ∀ text port, parsePort text = some port → port ≤ 65535) ∧
    (∀ method authority version, eqIgnoreAsciiCase method (ascii "CONNECT") = true →
      authority ≠ [] → version ≠ [] → (∀ word ∈ [method, authority, version], Spaceless word) →
      parseConnectTarget (method ++ 32 :: (authority ++ 32 :: version)) =
        normalizeAuthority authority) ∧
    (∀ port ≤ 65535,
      normalizeAuthority (withPort written port) = some (withPort written port) ∧
        hostFromAuthority (withPort written port) = some (normalizeHost host)) ∧
    (∀ pinned mitmEnabled port sni, SameName host sni →
      connectDecision pinned mitmEnabled (withPort written port) =
        some (transparentDecision pinned mitmEnabled sni)) ∧
    ∀ state spelling outcomes calls replies reached, SameName host spelling →
      (PinnedHosts.machine serde).Run state (.add spelling outcomes :: calls) replies
        (.running reached) →
      (∀ outcomes, PinnedCall.clear outcomes ∉ calls) →
      ∀ mitmEnabled port sni, SameName host sni →
        connectDecision reached.store mitmEnabled (withPort written port) = some .passthrough ∧
          transparentDecision reached.store mitmEnabled sni = .passthrough := by
  have spaceless := writes.spaceless
  refine ⟨⟨writes.normalizeAuthority_plain, writes.normalizeAuthority_port,
      fun _ _ => parsePort_le⟩,
    fun _ _ _ => parseConnectTarget_words,
    fun port small =>
      ⟨writes.normalizeAuthority_withPort small, writes.hostFromAuthority_withPort port⟩,
    fun pinned mitmEnabled port sni same => ?_, ?_⟩
  · rw [connectDecision_eq writes, transparentDecision_eq spaceless same]
  · intro state spelling outcomes calls replies reached same execution keeps mitmEnabled port sni
      same_sni
    have key := (same.normalizeHost_eq spaceless).1
    have filled : normalizeHost spelling ≠ [] := by
      rw [key]
      exact normalizeHost_ne_nil spaceless writes.filled
    have held : reached.store.holds host = true := by
      cases execution with
      | step polled reacts rest =>
          injection reacts with _ status
          injection status with next
          subst next
          have added := PinnedHosts.holds_of_run rest keeps
            (PinnedHosts.holds_of_added state outcomes filled)
          rwa [PinnedHosts.holds, key] at added
    rw [connectDecision_eq writes, transparentDecision_eq spaceless same_sni, held]
    exact ⟨rfl, rfl⟩

/-- A host with a dot at its end. -/
theorem sampleHost_written : WrittenHost (ascii "Example.com.") (ascii "Example.com.") :=
  .named ⟨69, by decide, by decide⟩ (by decide) (by decide) (by decide)
    (.of_solid (by simp [ascii, IsSolid]))

/-- A pinned host under other spellings. -/
theorem sampleHost_passes_through :
    normalizeAuthority (ascii "Example.com.:+0443") = some (ascii "Example.com.:443") ∧
      ∃ replies reached,
        (PinnedHosts.machine PinnedHosts.samplePinnedTexts.serde).Run PinnedHosts.samplePinned
          [PinnedHosts.samplePin .done] replies (.running reached) ∧
        connectDecision reached.store true (ascii "Example.com.:443") = some .passthrough ∧
        transparentDecision reached.store true (ascii "EXAMPLE.com") = .passthrough := by
  have shared := flows_share_pin_key PinnedHosts.samplePinnedTexts.serde sampleHost_written
  have execution := @PinnedHosts.run_call PinnedHosts.samplePinnedTexts.serde
    PinnedHosts.samplePinned (PinnedHosts.samplePin .done)
  have lower : SameName (ascii "Example.com.") (ascii "example.com") := by
    unfold SameName
    decide
  have upper : SameName (ascii "Example.com.") (ascii "EXAMPLE.com") := by
    unfold SameName
    decide
  exact ⟨(shared.1.2.1 (ascii "+0443")).trans (by decide), _, _, execution,
    shared.2.2.2.2 _ _ _ [] _ _ lower execution (by simp) true 443 _ upper⟩

end PrivacyEngine
