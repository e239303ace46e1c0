import PrivacyEngine.Proxy.AutoPin
import PrivacyEngine.Wire.JsonText

/-!
# The dashboard

The dashboard answers requests beside the connections of the proxy.  Its pages only read; the one
request that changes anything clears the set of pinned hosts, and has to show the token that was
made up at the start.  Connections and dashboard together run as the connections of `Proxy.AutoPin`
do, which are reset by exactly the requests that show the token.
-/

namespace PrivacyEngine

open Wire FileSystem Reactive

/-! ## The token -/

/-- Two hexadecimal digits. -/
def hexByte (byte : UInt8) : Str := [Json.hexDigit (byte / 16), Json.hexDigit (byte % 16)]

/-- The token for sixteen random bytes, or for the time where there are none. -/
def makeAdminToken (random : Option (Fin 16 → UInt8)) (nanos : Nat) : Str :=
  match random with
  | none => ascii "insecure-" ++ decimal nanos
  | some bytes => (List.ofFn bytes).flatMap hexByte

theorem makeAdminToken_ne_nil (random : Option (Fin 16 → UInt8)) (nanos : Nat) :
    makeAdminToken random nanos ≠ [] := by
  cases random with
  | none => exact List.append_ne_nil_of_left_ne_nil (by decide) _
  | some bytes =>
      rw [makeAdminToken, List.ofFn_succ, List.flatMap_cons]
      exact List.append_ne_nil_of_left_ne_nil (List.cons_ne_nil _ _) _

/-! ## Requests and responses -/

inductive DashboardMethod where
  | get
  | post
  | other
  deriving DecidableEq

/-- What the handler reads of a request: the method, the path and the first `x-admin-token`. -/
structure DashboardRequest where
  method : DashboardMethod
  path : Str
  adminToken : Option Bytes
  deriving DecidableEq

inductive DashboardStatus where
  | ok
  | forbidden
  | notFound
  | internalServerError
  deriving DecidableEq

structure DashboardResponse where
  status : DashboardStatus
  headers : List (Str × Str)
  body : Bytes
  deriving DecidableEq

/-- The pages that are only read. -/
inductive DashboardPage where
  | html
  | metrics
  | doh
  | receipts
  | status
  | caCertPem
  deriving DecidableEq

/-- The pages, the printer of JSON values and the token. -/
structure DashboardEnv where
  page : DashboardPage → PinningState → DashboardResponse
  jsonToString : Json → Str
  adminToken : Str

/-- `HeaderValue::to_str`: only visible characters and tabs. -/
def headerToStr (value : Bytes) : Option Str :=
  if value.all fun byte => (32 ≤ byte && byte < 127) || byte == 9 then some value else none

namespace DashboardEnv

variable (env : DashboardEnv)

def jsonResponseWithStatus (status : DashboardStatus) (value : Json) : DashboardResponse :=
  ⟨status, [(ascii "Content-Type", ascii "application/json"),
    (ascii "Cache-Control", ascii "no-cache")], env.jsonToString value⟩

def jsonResponse (value : Json) : DashboardResponse := env.jsonResponseWithStatus .ok value

def notFound : DashboardResponse :=
  ⟨.notFound, [(ascii "Content-Type", ascii "application/json")],
    ascii "\x7b\"error\":\"not_found\"\x7d"⟩

/-- The token that a request shows. -/
def shownToken (request : DashboardRequest) : Str :=
  (request.adminToken.bind headerToStr).getD []

def servePinsReset (serde : Serde) (request : DashboardRequest) (outcomes : Outcomes FsWrite)
    (s : PinningState) : DashboardResponse × PinningState :=
  if shownToken request ≠ env.adminToken then
    (env.jsonResponseWithStatus .forbidden (.object [(ascii "error", .string (ascii "forbidden"))]),
      s)
  else
    match PinnedHosts.clearAndPersist serde s.pinned outcomes with
    | (.ok removed, pinned) =>
        (env.jsonResponse (.object [(ascii "ok", .bool true),
          (ascii "removed", .number (.posInt (.ofNat removed)))]), { s with pinned })
    | (.error _, pinned) =>
        (env.jsonResponseWithStatus .internalServerError
          (.object [(ascii "error", .string (ascii "pins_reset_failed"))]), { s with pinned })

def handleRequest (serde : Serde) (request : DashboardRequest) (outcomes : Outcomes FsWrite)
    (s : PinningState) : DashboardResponse × PinningState :=
  match request.method with
  | .get =>
      if request.path = ascii "/" then (env.page .html s, s)
      else if request.path = ascii "/api/metrics" then (env.page .metrics s, s)
      else if request.path = ascii "/api/doh" then (env.page .doh s, s)
      else if request.path = ascii "/api/receipts" then (env.page .receipts s, s)
      else if request.path = ascii "/api/status" then (env.page .status s, s)
      else if request.path = ascii "/download/ca.crt" then (env.page .caCertPem s, s)
      else (notFound, s)
  | .post =>
      if request.path = ascii "/api/pins/reset" then env.servePinsReset serde request outcomes s
      else (notFound, s)
  | .other => (notFound, s)

/-- The requests that clear the set. -/
def Clears (request : DashboardRequest) : Prop :=
  request.method = .post ∧ request.path = ascii "/api/pins/reset" ∧
    shownToken request = env.adminToken

instance (request : DashboardRequest) : Decidable (env.Clears request) :=
  inferInstanceAs (Decidable (_ ∧ _ ∧ _))

end DashboardEnv

/-! ## Beside the connections -/

inductive ServiceRequest where
  /-- Anything that happens to the connections. -/
  | proxy (event : PinningEvent)
  | dashboard (request : DashboardRequest) (outcomes : Outcomes FsWrite)

/-- The connections and the dashboard over one set of pinned hosts. -/
def ProxyConfig.withDashboard (config : ProxyConfig) (serde : Serde) (env : DashboardEnv) :
    Machine PinningState ServiceRequest DashboardResponse Empty where
  polls s
    | .proxy (.reset _) => false
    | .proxy event => (config.pinning serde).polls s event
    | .dashboard _ _ => true
  react s
    | .proxy event => ⟨[], ((config.pinning serde).react s event).status⟩
    | .dashboard request outcomes =>
        ⟨[(env.handleRequest serde request outcomes s).1],
          .running (env.handleRequest serde request outcomes s).2⟩

namespace DashboardEnv

variable {config : ProxyConfig} {serde : Serde} {env : DashboardEnv} {request : DashboardRequest}

theorem servePinsReset_clears (token : shownToken request = env.adminToken)
    (outcomes : Outcomes FsWrite) (s : PinningState) :
    (env.servePinsReset serde request outcomes s).2 =
      { s with pinned := (PinnedHosts.clearAndPersist serde s.pinned outcomes).2 } := by
  rw [servePinsReset, if_neg (not_not.mpr token)]
  split
  · rename_i removed pinned clears
    rw [clears]
  · rename_i error pinned clears
    rw [clears]

theorem handleRequest_clears (clears : env.Clears request) (outcomes : Outcomes FsWrite)
    (s : PinningState) :
    (env.handleRequest serde request outcomes s).2 =
      { s with pinned := (PinnedHosts.clearAndPersist serde s.pinned outcomes).2 } := by
  obtain ⟨post, path, token⟩ := clears
  rw [handleRequest, post]
  dsimp only
  rw [if_pos path, servePinsReset_clears token]

theorem handleRequest_keeps (keeps : ¬ env.Clears request) (outcomes : Outcomes FsWrite)
    (s : PinningState) : (env.handleRequest serde request outcomes s).2 = s := by
  cases method : request.method with
  | get =>
      rw [handleRequest, method]
      dsimp only
      split_ifs <;> rfl
  | post =>
      rw [handleRequest, method]
      dsimp only
      split_ifs with path
      · have refused : shownToken request ≠ env.adminToken :=
          fun token => keeps ⟨method, path, token⟩
        rw [servePinsReset, if_pos refused]
      · rfl
  | other => rw [handleRequest, method]

/-- A request that does not carry the token cannot clear the set. -/
theorem not_clears {random : Option (Fin 16 → UInt8)} {nanos : Nat}
    (token : env.adminToken = makeAdminToken random nanos)
    (unknown : request.adminToken ≠ some env.adminToken) : ¬ env.Clears request := by
  rintro ⟨-, -, shown⟩
  have filled : shownToken request ≠ [] := by
    rw [shown, token]
    exact makeAdminToken_ne_nil random nanos
  cases given : request.adminToken with
  | none =>
      rw [shownToken, given] at filled
      exact filled rfl
  | some value =>
      rw [shownToken, given, Option.bind_some, headerToStr] at shown filled
      split at shown
      · exact unknown (given.trans (congrArg some shown))
      · rename_i unreadable
        rw [if_neg unreadable] at filled
        exact filled rfl

/-- What the connections see of the dashboard. -/
def pinningView (env : DashboardEnv) :
    Machine.View PinningState ServiceRequest DashboardResponse PinningState PinningEvent Empty where
  state s := s
  event
    | .proxy (.reset _) => none
    | .proxy event => some event
    | .dashboard request outcomes => if env.Clears request then some (.reset outcomes) else none
  output _ := none

theorem pinning_part :
    (config.withDashboard serde env).Part (config.pinning serde) env.pinningView where
  polls {s event own} same polled := by
    cases event with
    | proxy event =>
        cases event with
        | reset outcomes => cases polled
        | _ =>
            cases same
            exact polled
    | dashboard request outcomes =>
        obtain ⟨-, same⟩ := Option.ite_none_right_eq_some.mp same
        cases Option.some.inj same
        rfl
  reacts {s next event own now} same polled reacts := by
    cases event with
    | proxy event =>
        cases event with
        | reset outcomes => cases polled
        | _ =>
            cases same
            exact congrArg₂ Reaction.mk (Subsingleton.elim _ _) (congrArg Reaction.status reacts)
    | dashboard request outcomes =>
        obtain ⟨clears, same⟩ := Option.ite_none_right_eq_some.mp same
        cases Option.some.inj same
        cases reacts
        rw [handleRequest_clears clears]
        rfl
  silent {s next event now} unseen polled reacts := by
    cases event with
    | proxy event =>
        cases event with
        | reset outcomes => cases polled
        | _ => cases unseen
    | dashboard request outcomes =>
        have keeps : ¬ env.Clears request := fun clears => by
          simp only [pinningView, if_pos clears] at unseen
          cases unseen
        cases reacts
        exact ⟨handleRequest_keeps keeps outcomes s, rfl⟩

/-- A dashboard with blank pages. -/
def sampleEnv : DashboardEnv where
  page _ _ := ⟨.ok, [], []⟩
  jsonToString _ := []
  adminToken := makeAdminToken (some fun _ => 171) 0

/-- Somebody who does not know the token tries to clear the set. -/
def sampleGuess : ServiceRequest :=
  .dashboard ⟨.post, ascii "/api/pins/reset", some (ascii "guess")⟩ .smooth

def seenBeside (reaction : Reaction PinningState DashboardResponse Empty) :
    Option (Nat × Option (Bool × Bool)) :=
  PinningState.seenOf ⟨[], reaction.status⟩

def agedBeside (reaction : Reaction PinningState DashboardResponse Empty) :
    Option (Nat × Option Bool) :=
  PinningState.agedOf ⟨[], reaction.status⟩

end DashboardEnv

end PrivacyEngine
