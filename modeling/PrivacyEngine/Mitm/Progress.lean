import PrivacyEngine.Mitm.Conservation

/-!
# A complete response is sent at once

While the relay holds a body back, every later read tests whether the body has become complete or
too large.  The read that completes the header block does not: the bytes it brings behind the
headers are put aside untested.  A complete body is held back exactly when it arrives in that read.
-/

namespace PrivacyEngine

open Wire Reactive

/-- While a body is held back it is incomplete by the relay's own framing and below the limit. -/
def NotHeldBack (s : RelayState) : Prop :=
  s.bufferingBody = true →
    (∀ expected, s.expectedBodyLen = some expected → s.bodyBuffer.length < expected) ∧
      (s.bufferingChunked = true → tryDecodeChunkedMessage s.bodyBuffer = none) ∧
      ∀ plan, s.bodyRewritePlan = some plan → s.bodyBuffer.length < plan.maxBodyBytes

namespace RelayEnv

/-- The body is complete by its framing. -/
def BodyEnds (headers body : Bytes) : Prop :=
  match framingOf headers with
  | .chunked => (tryDecodeChunkedMessage body).isSome = true
  | .length expected => expected ≤ body.length
  | .untilClose => False

variable (env : RelayEnv)

/-- A body is complete by its framing, or too large to be rewritten. -/
def BodyComplete (headers body : Bytes) : Prop :=
  env.rewritePlan.maxBodyBytes ≤ body.length ∨ BodyEnds headers body

/-- The read that completes a header block brings a complete body with it, and the body is one
that the relay would rewrite. -/
def CompletesOnEntry (reads : List Bytes) (chunk : Bytes) : Prop :=
  ¬ HeadersFound reads ∧
    ∃ headers after, env.Opened (reads ++ [chunk]) headers after ∧ env.Holds headers ∧
      env.BodyComplete headers after

/-- Once the header block and the whole body behind it have been received, the client has been sent
all of it, and whatever has been received behind it. -/
def SentWhenComplete (events : List RelayEvent) (outputs : List Effect) : Prop :=
  ∀ headers after, env.Opened (upstreamReads events) headers after → BodyEnds headers after →
    env.Image (events.contains .upstreamEof) (upstreamReads events) (clientBytes outputs)
      (rewriteApplied outputs)

variable {env} {t : RelayState} {headers body : Bytes}

theorem Represents.notHeldBack_iff (represents : env.Represents t (.holdingBody headers body)) :
    NotHeldBack t ↔ ¬ env.BodyComplete headers body := by
  obtain ⟨-, -, holding, -, rfl, plan, -, chunked, expected, -⟩ := represents
  unfold NotHeldBack BodyComplete BodyEnds
  rw [holding, plan, chunked, expected]
  cases is_chunked : hasTransferEncodingChunked headers with
  | true => simp [framingOf_chunked is_chunked, and_comm]
  | false =>
      cases announced : extractContentLength headers with
      | none => simp [framingOf_untilClose is_chunked announced]
      | some n => simp [framingOf_length is_chunked announced, and_comm]

/-- A held body that has just grown is let go, or held on because it is incomplete. -/
theorem growBody_cases (headers body : Bytes) :
    (env.growBody headers body).2 = .passingThrough ∨
      (env.growBody headers body).2 = .holdingBody headers body ∧
        ¬ env.BodyComplete headers body := by
  cases framing : framingOf headers with
  | chunked =>
      simp only [growBody, BodyComplete, BodyEnds, framing]
      split
      · exact .inl rfl
      · rename_i below
        split
        · exact .inl rfl
        · rename_i incomplete
          exact .inr ⟨rfl, by simp [incomplete, not_le.mp below]⟩
  | length expected =>
      simp only [growBody, BodyComplete, BodyEnds, framing]
      split
      · exact .inl rfl
      · rename_i short
        split
        · exact .inl rfl
        · rename_i below
          exact .inr ⟨rfl, by simp [not_le.mp short, not_le.mp below]⟩
  | untilClose =>
      simp only [growBody, BodyComplete, BodyEnds, framing]
      split
      · exact .inl rfl
      · rename_i below
        exact .inr ⟨rfl, by simp [not_le.mp below]⟩

theorem growBody_holding {headers' body' : Bytes}
    (holds : (env.growBody headers body).2 = .holdingBody headers' body') :
    headers' = headers ∧ ¬ env.BodyComplete headers' body' := by
  rcases env.growBody_cases headers body with passes | ⟨held, incomplete⟩
  · rw [passes] at holds
    cases holds
  · rw [held] at holds
    cases holds
    exact ⟨rfl, incomplete⟩

/-- A held body is held behind a header block that one of the reads completed. -/
theorem opened_of_holding {reads : List Bytes}
    (phase : (env.afterReads reads).2 = .holdingBody headers body) :
    ∃ front chunk after, front ++ [chunk] <+: reads ∧ ¬ HeadersFound front ∧
      env.Opened (front ++ [chunk]) headers after ∧ env.Holds headers := by
  induction reads using List.reverseRecOn generalizing body with
  | nil => cases phase
  | append_singleton reads chunk ih =>
      obtain ⟨reached, still_open⟩ := env.reached_afterReads reads
      have now := (env.reached_afterReads (reads ++ [chunk])).1
      rw [phase] at now
      rw [afterReads_snoc] at phase
      cases before : (env.afterReads reads).2 with
      | awaitingHeaders pending =>
          rw [before] at reached
          exact ⟨reads, chunk, body, List.prefix_refl _, reached.2.1, now.1, now.2.1⟩
      | holdingBody headers₀ body₀ =>
          rw [before] at phase
          obtain ⟨rfl, -⟩ := growBody_holding phase
          obtain ⟨front, chunk', after, early, opening⟩ := ih before
          exact ⟨front, chunk', after, early.trans (List.prefix_append _ _), opening⟩
      | passingThrough =>
          rw [before] at phase
          cases phase
      | ended => exact absurd before still_open

/-- A complete body is held back exactly when it came with the end of its header block. -/
theorem heldBack_iff (reads : List Bytes) :
    (∃ headers body, (env.afterReads reads).2 = .holdingBody headers body ∧
        env.BodyComplete headers body) ↔
      ∃ front chunk, reads = front ++ [chunk] ∧ env.CompletesOnEntry front chunk := by
  constructor
  · rintro ⟨headers, body, phase, complete⟩
    rcases List.eq_nil_or_concat' reads with rfl | ⟨front, chunk, rfl⟩
    · cases phase
    · obtain ⟨reached, -⟩ := env.reached_afterReads (front ++ [chunk])
      rw [phase] at reached
      obtain ⟨opened, holds, -⟩ := reached
      refine ⟨front, chunk, rfl, ?_, headers, body, opened, holds, complete⟩
      intro found
      obtain ⟨reached, open_front⟩ := env.reached_afterReads front
      rw [afterReads_snoc] at phase
      cases before : (env.afterReads front).2 with
      | awaitingHeaders pending =>
          rw [before] at reached
          exact reached.2.1 found
      | holdingBody headers₀ body₀ =>
          rw [before] at phase
          exact (growBody_holding phase).2 complete
      | passingThrough =>
          rw [before] at phase
          cases phase
      | ended => exact open_front before
  · rintro ⟨front, chunk, rfl, unfound, headers, body, opened, holds, complete⟩
    exact ⟨headers, body, holds_of_opened unfound opened holds, complete⟩

/-! ## Runs -/

variable {events : List RelayEvent} {outputs : List Effect}
  {status : Status RelayState RelayVerdict}

/-- A run that holds a body is in the body phase of its reads. -/
theorem holding_of_run (execution : env.relay.Run {} events outputs (.running t))
    (holding : t.bufferingBody = true) :
    ∃ headers body, env.Represents t (.holdingBody headers body) ∧
      (env.afterReads (upstreamReads events)).2 = .holdingBody headers body := by
  have represents := ((run_report execution env.represents_initial).running t rfl).1
  have inputs := (upstreamInputs_of_run execution env.represents_initial).2
  cases phase : (env.afterEvents events).2 with
  | holdingBody headers body =>
      have going_on : .upstreamEof ∉ events := by
        rw [← (reached_of_run execution).2, phase]
        simp
      rw [if_neg going_on, List.append_nil] at inputs
      rw [afterEvents, inputs] at phase
      rw [inputs, phase] at represents
      exact ⟨headers, body, represents, phase⟩
  | awaitingHeaders pending =>
      rw [phase] at represents
      exact absurd (represents.2.2.1.symm.trans holding) Bool.noConfusion
  | passingThrough =>
      rw [phase] at represents
      exact absurd (represents.2.2.1.symm.trans holding) Bool.noConfusion
  | ended =>
      rw [phase] at represents
      exact absurd (represents.2.1.symm.trans holding) Bool.noConfusion

theorem notHeldBack_of_run (execution : env.relay.Run {} events outputs (.running t))
    (segmented : ∀ front chunk, upstreamReads events = front ++ [chunk] →
      ¬ env.CompletesOnEntry front chunk) : NotHeldBack t := by
  intro holding
  obtain ⟨headers, body, represents, phase⟩ := holding_of_run execution holding
  refine represents.notHeldBack_iff.mpr (fun complete => ?_) holding
  obtain ⟨front, chunk, cut, completes⟩ :=
    (heldBack_iff (upstreamReads events)).mp ⟨headers, body, phase, complete⟩
  exact segmented front chunk cut completes

/-- The events up to one of the upstream reads. -/
theorem exists_upstreamRead {front : List Bytes} {chunk : Bytes}
    (early : front ++ [chunk] <+: upstreamReads events) :
    ∃ seen read rest, events = seen ++ .upstreamRead read :: rest ∧ upstreamReads seen = front ∧
      read.bytes = chunk := by
  induction events generalizing front with
  | nil =>
      have empty := List.prefix_nil.mp early
      simp at empty
  | cons event events ih =>
      cases received : event.received with
      | nil =>
          rw [upstreamReads_cons, received, List.nil_append] at early
          obtain ⟨seen, read, rest, rfl, rfl, bytes_eq⟩ := ih early
          exact ⟨event :: seen, read, rest, rfl, by simp [received], bytes_eq⟩
      | cons bytes more =>
          cases event with
          | upstreamRead read =>
              cases front with
              | nil =>
                  obtain ⟨rfl, -⟩ := List.cons_prefix_cons.mp early
                  exact ⟨[], read, events, rfl, rfl, rfl⟩
              | cons first front =>
                  obtain ⟨rfl, later⟩ := List.cons_prefix_cons.mp early
                  obtain ⟨seen, read', rest, rfl, rfl, bytes_eq⟩ := ih later
                  exact ⟨.upstreamRead read :: seen, read', rest, rfl, rfl, bytes_eq⟩
          | _ => cases received

/-- The relay goes on behind every upstream read. -/
theorem react_upstreamRead {s : RelayState} {phase : ResponsePhase} {read : ReadChunk}
    (represents : env.Represents s phase)
    (polled : env.relay.polls s (.upstreamRead read) = true) :
    ∃ outputs t, env.relay.react s (.upstreamRead read) = ⟨outputs, .running t⟩ := by
  have closed : s.upstreamClosed = false := by simpa [relay] using polled
  obtain ⟨t, reacts, represents', -⟩ := env.onUpstreamRead_follows represents closed read.bytes
  have opened := env.phaseStep_read_ne_ended (represents.opened polled) read.bytes
  have going_on : t.upstreamClosed = false := by
    rw [← Bool.not_eq_true, represents'.closed_iff]
    exact opened
  refine ⟨(env.phaseStep phase (.read read.bytes)).1, t, ?_⟩
  simp only [relay, reacts, settle, going_on, Bool.and_false, Bool.false_eq_true, if_false]

/-- A run comes to hold a body with the read that completes its header block. -/
theorem run_holds_of_opened (execution : env.relay.Run {} events outputs status)
    {front : List Bytes} {chunk after : Bytes} (early : front ++ [chunk] <+: upstreamReads events)
    (unfound : ¬ HeadersFound front) (opened : env.Opened (front ++ [chunk]) headers after)
    (holds : env.Holds headers) :
    ∃ seen rest earlier t, events = seen ++ rest ∧ env.relay.Run {} seen earlier (.running t) ∧
      env.Represents t (.holdingBody headers after) := by
  obtain ⟨seen, read, rest, rfl, rfl, rfl⟩ := exists_upstreamRead early
  obtain ⟨earlier, s, later, first, second, -⟩ := execution.cut (List.cons_ne_nil _ _)
  have represents := ((run_report first env.represents_initial).running s rfl).1
  have polled : env.relay.polls s (.upstreamRead read) = true := by
    cases second <;> assumption
  obtain ⟨now, t, reacts⟩ := react_upstreamRead represents polled
  have whole := first.append (.step polled reacts (.stop t))
  have represents' := ((run_report whole env.represents_initial).running t rfl).1
  have reads : upstreamReads (seen ++ [.upstreamRead read]) =
      upstreamReads seen ++ [read.bytes] := by
    simp [upstreamReads, RelayEvent.received]
  have going_on : .upstreamEof ∉ seen ++ [.upstreamRead read] := by
    have open_seen := represents.opened polled
    rw [ne_eq, (reached_of_run first).2] at open_seen
    simpa using open_seen
  have inputs := (upstreamInputs_of_run whole env.represents_initial).2
  rw [if_neg going_on, List.append_nil, reads] at inputs
  rw [inputs, holds_of_opened unfound opened holds] at represents'
  exact ⟨_, rest, _, t, by simp, whole, represents'⟩

theorem not_runsOver_of_free (free : NotHeldBack t) : ¬ env.RunsOver t := by
  rintro ⟨holding, expected, announced, exceeds, -⟩
  have short := (free holding).1 expected announced
  omega

/-- A run that has held no complete body back has sent the complete response. -/
theorem sentWhenComplete_of_run (execution : env.relay.Run {} events outputs (.running t))
    (free : ∀ seen rest earlier t, events = seen ++ rest →
      env.relay.Run {} seen earlier (.running t) → NotHeldBack t) :
    env.SentWhenComplete events outputs := by
  intro headers after opened ends
  obtain ⟨represents, -, -, unblocked⟩ :=
    (run_report execution env.represents_initial).running t rfl
  by_cases ended : .upstreamEof ∈ events
  · have fits : env.FitsAtEof events := fun front rest earlier t cut first =>
      not_runsOver_of_free (free front _ earlier t cut first)
    obtain ⟨shown, client, image⟩ := image_of_run execution ended fits
    rw [blockedReply_of_unblocked unblocked, List.append_nil] at client
    have closed : events.contains .upstreamEof = true := by simpa using ended
    rwa [client, closed]
  · obtain ⟨reached, closes⟩ := reached_of_run execution
    obtain ⟨client, rewrites⟩ := clientBytes_of_run execution
    rw [blockedReply_of_unblocked unblocked, List.append_nil] at client
    have going_on : events.contains .upstreamEof = false := by simpa using ended
    rw [client, rewrites, going_on]
    cases phase : (env.afterEvents events).2 with
    | awaitingHeaders pending =>
        rw [phase] at reached
        exact absurd opened.1 reached.2.1
    | holdingBody headers' body =>
        rw [phase] at reached represents
        obtain ⟨rfl, rfl⟩ := opened.unique reached.1
        have incomplete := represents.notHeldBack_iff.mp
          (free events [] outputs t (List.append_nil events).symm execution)
        exact absurd (.inr ends) incomplete
    | passingThrough =>
        rw [phase] at reached
        exact reached
    | ended => exact absurd (closes.mp phase) ended

/-- No state along a run holds a complete response back, and the client has been sent the response
as soon as it is complete, if and only if no read of the run that completes the header block brings
the complete body with it. -/
theorem complete_response_is_sent_iff (execution : env.relay.Run {} events outputs status) :
    (∀ seen rest earlier t, events = seen ++ rest →
        env.relay.Run {} seen earlier (.running t) →
          NotHeldBack t ∧ env.SentWhenComplete seen earlier) ↔
      ∀ front chunk, front ++ [chunk] <+: upstreamReads events →
        ¬ env.CompletesOnEntry front chunk := by
  constructor
  · rintro sent front chunk early ⟨unfound, headers, body, opened, holds, complete⟩
    obtain ⟨seen, rest, earlier, t, cut, first, represents⟩ :=
      run_holds_of_opened execution early unfound opened holds
    exact represents.notHeldBack_iff.mp (sent seen rest earlier t cut first).1 complete
  · intro segmented
    have free : ∀ seen rest earlier t, events = seen ++ rest →
        env.relay.Run {} seen earlier (.running t) → NotHeldBack t := by
      intro seen rest earlier t cut first
      apply notHeldBack_of_run first
      intro front chunk reads
      apply segmented
      rw [cut, ← reads]
      exact ⟨upstreamReads rest, by simp [upstreamReads]⟩
    intro seen rest earlier t cut first
    refine ⟨free seen rest earlier t cut first, sentWhenComplete_of_run first ?_⟩
    rintro front more earlier' t' rfl first'
    exact free front (more ++ rest) earlier' t' (by rw [cut, List.append_assoc]) first'

/-- A complete page in one read. -/
def pageEvents : List RelayEvent :=
  [.upstreamRead ⟨ascii "HTTP/1.1 200 OK\r\nContent-Type: text/html\r\nContent-Length: 2\r\n\r\nhi",
    by decide, by decide⟩]

theorem page_run :
    ∃ outputs t, (pageTunnel .enforce).relay.Run {} pageEvents outputs (.running t) ∧
      clientBytes outputs = [] ∧ t.bufferingBody = true ∧ t.expectedBodyLen = some 2 ∧
      t.bodyBuffer.length = 2 := by
  have executes : ((pageTunnel .enforce).relay.run {} pageEvents).map (fun reaction =>
      (clientBytes reaction.outputs,
        reaction.status.state?.map fun t =>
          (t.bufferingBody, t.expectedBodyLen, t.bodyBuffer.length))) =
      some ([], some (true, some 2, 2)) := by
    decide +kernel
  obtain ⟨outputs, status, execution, observed⟩ := Machine.exists_run _ _ _ _ executes
  obtain ⟨silent, reached⟩ := Prod.mk.inj observed
  obtain ⟨t, goes_on, state⟩ := Option.map_eq_some_iff.mp reached
  obtain rfl := Status.eq_running goes_on
  obtain ⟨holding, state⟩ := Prod.mk.inj state
  obtain ⟨expected, length⟩ := Prod.mk.inj state
  exact ⟨outputs, t, execution, silent, holding, expected, length⟩

/-- Nothing of the complete page has been sent, and the relay waits for more of it. -/
theorem complete_page_is_held_back :
    ∃ outputs t, (pageTunnel .enforce).relay.Run {} pageEvents outputs (.running t) ∧
      clientBytes outputs = [] ∧ ¬ NotHeldBack t := by
  obtain ⟨outputs, t, execution, silent, holding, expected, length⟩ := page_run
  refine ⟨outputs, t, execution, silent, fun sent => ?_⟩
  have short := (sent holding).1 2 expected
  omega

theorem page_completes_on_entry :
    ¬ ∀ front chunk, front ++ [chunk] <+: upstreamReads pageEvents →
      ¬ (pageTunnel .enforce).CompletesOnEntry front chunk := by
  obtain ⟨outputs, t, execution, -, holding, expected, length⟩ := page_run
  rw [← complete_response_is_sent_iff execution]
  intro sent
  have short := ((sent pageEvents [] outputs t (by simp) execution).1 holding).1 2 expected
  omega

end RelayEnv

end PrivacyEngine
