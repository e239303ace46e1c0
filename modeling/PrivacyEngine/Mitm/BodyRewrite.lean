import PrivacyEngine.Mitm.Effects

/-!
# Rewriting a complete response body

A body is decompressed when its encoding is known, rewritten, and compressed again.  The codec and
the HTML rewriter are parameters: any functions that may fail.  In report-only mode the rewritten
body is measured and thrown away.
-/

namespace PrivacyEngine

open Wire

/-- Compression libraries and the HTML rewriter. -/
structure BodyCodec where
  decompress : Bytes → Str → Except Str Bytes
  compress : Bytes → Str → Except Str Bytes
  rewriteHtmlBody : Bytes → BodyRewritePlan → Except Str (Bytes × BodyRewriteDetails)

/-- Content encodings the codec handles. -/
def codedEncodings : List Str := [ascii "gzip", ascii "x-gzip", ascii "deflate", ascii "br"]

/-- What a tunnel needs to know about itself: policy, host, peer address, whether receipts are
kept, and the body codec. -/
structure RelayEnv where
  policyEngine : PolicyEngine
  targetHost : Str
  sourceIp : Option Str
  receiptsStore : Bool
  codec : BodyCodec

namespace RelayEnv

variable (env : RelayEnv)

/-- A receipt for the target host, when receipts are kept. -/
def record (entry : Receipt) : List Effect :=
  if env.receiptsStore then [.receipt env.targetHost entry] else []

def recordSkipped : List Effect :=
  .metric .bodyRewriteSkippedTotal :: env.record .bodyRewriteSkipped

/-- The body to rewrite, or the encoding and error of a failed decompression. -/
def decodeBody (body : Bytes) (contentEncoding : Option Str) : Except (Str × Str) Bytes :=
  match contentEncoding.filter codedEncodings.contains with
  | some encoding => (env.codec.decompress body encoding).mapError fun error => (encoding, error)
  | none => .ok body

/-- The rewritten body as sent, or the encoding and error of a failed compression. -/
def encodeBody (html : Bytes) (contentEncoding : Option Str) : Except (Str × Str) Bytes :=
  match contentEncoding.filter codedEncodings.contains with
  | some encoding => (env.codec.compress html encoding).mapError fun error => (encoding, error)
  | none => .ok html

/-- The replacement body, if there is one, and the effects of the attempt. -/
def attemptBodyRewrite (body : Bytes) (plan : BodyRewritePlan) (contentEncoding : Option Str) :
    Option Bytes × List Effect :=
  match env.decodeBody body contentEncoding with
  | .error (encoding, error) =>
      (none, .log (.bodyDecompressError encoding error) :: env.recordSkipped)
  | .ok htmlBytes =>
      match env.codec.rewriteHtmlBody htmlBytes plan with
      | .error error => (none, env.recordSkipped ++ [.log (.bodyRewriteError error)])
      | .ok (rewrittenHtml, details) =>
          if plan.mode = .reportOnly then
            let details :=
              if env.receiptsStore && contentEncoding.isNone then
                { details with bytesSaved := body.length - rewrittenHtml.length }
              else details
            (none, .metric .bodyRewriteTotal :: env.record (.bodyRewrite plan.mode details) ++
              [.log (.bodyRewrite .reportOnly body.length rewrittenHtml.length details)])
          else
            match env.encodeBody rewrittenHtml contentEncoding with
            | .error (encoding, error) =>
                (none, .log (.bodyRecompressError encoding error) :: env.recordSkipped)
            | .ok finalBody =>
                let details := { details with bytesSaved := body.length - finalBody.length }
                (some finalBody, .metric .bodyRewriteTotal ::
                  env.record (.bodyRewrite plan.mode details) ++
                  [.log (.bodyRewrite .enforce body.length finalBody.length details)])

theorem bookkeeping_record (entry : Receipt) : Bookkeeping (env.record entry) := by
  unfold record
  split
  · exact List.forall_mem_singleton.mpr rfl
  · exact List.forall_mem_nil _

theorem bookkeeping_recordSkipped : Bookkeeping env.recordSkipped :=
  List.forall_mem_cons.mpr ⟨rfl, env.bookkeeping_record _⟩

@[simp] theorem clientBytes_record (entry : Receipt) : clientBytes (env.record entry) = [] :=
  clientBytes_of_bookkeeping (env.bookkeeping_record entry)

@[simp] theorem rewriteApplied_record (entry : Receipt) :
    rewriteApplied (env.record entry) = false :=
  rewriteApplied_of_bookkeeping (env.bookkeeping_record entry)

@[simp] theorem clientBytes_recordSkipped : clientBytes env.recordSkipped = [] :=
  clientBytes_of_bookkeeping env.bookkeeping_recordSkipped

@[simp] theorem rewriteApplied_recordSkipped : rewriteApplied env.recordSkipped = false :=
  rewriteApplied_of_bookkeeping env.bookkeeping_recordSkipped

/-- An attempt writes nothing to the client by itself. -/
@[simp] theorem clientBytes_attempt (body : Bytes) (plan : BodyRewritePlan)
    (contentEncoding : Option Str) :
    clientBytes (env.attemptBodyRewrite body plan contentEncoding).2 = [] := by
  unfold attemptBodyRewrite
  split
  · simp [Effect.toClient]
  · split
    · simp [Effect.toClient]
    · split
      · simp [Effect.toClient]
      · split <;> simp [Effect.toClient]

/-- An attempt yields a body exactly when it logs an applied rewriting. -/
@[simp] theorem rewriteApplied_attempt (body : Bytes) (plan : BodyRewritePlan)
    (contentEncoding : Option Str) :
    rewriteApplied (env.attemptBodyRewrite body plan contentEncoding).2 =
      (env.attemptBodyRewrite body plan contentEncoding).1.isSome := by
  unfold attemptBodyRewrite
  split
  · simp [Effect.isAppliedRewrite]
  · split
    · simp [Effect.isAppliedRewrite]
    · split
      · simp [Effect.isAppliedRewrite]
      · split <;> simp [Effect.isAppliedRewrite]

/-- In report-only mode no attempt yields a body. -/
theorem attempt_reportOnly (body : Bytes) {plan : BodyRewritePlan}
    (report_only : plan.mode = .reportOnly) (contentEncoding : Option Str) :
    (env.attemptBodyRewrite body plan contentEncoding).1 = none := by
  unfold attemptBodyRewrite
  split
  · rfl
  · split
    · rfl
    · rw [if_pos report_only]

end RelayEnv

end PrivacyEngine
