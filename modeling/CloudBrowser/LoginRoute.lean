import CloudBrowser.CapabilityCodec
import CloudBrowser.IdempotentStore
import CloudBrowser.RelyGuarantee

/-! The login route of the broker, up to its coordinator: a request is decoded at a reading of
the wall clock, gets a deadline on the monotonic clock, and consumes its capability's nonce. -/
namespace CloudBrowser
namespace LoginRoute

open Interleave Capability
open Idempotency (BrokerResult OperationScope errorBounded)

inductive ServerError
  | deadlineExceeded
  | lookupError (message : String)
  | valueError (message : String)
  | nonceStore (message : String)
  | idempotencyStore
  | osError
  | sqlite
  | other
  deriving DecidableEq, Repr

section Data

structure NonceKey where
  deployment : String
  audience : String
  nonce : String
  deriving DecidableEq, Repr

/-- A row of `consumed_nonces`. -/
structure NonceRow where
  key : NonceKey
  expiresAt : ℤ
  deriving DecidableEq, Repr

abbrev Nonces := Keyed.Table NonceRow.key

def nonceKey (c : Claims) : NonceKey := ⟨c.deployment,c.audience,c.nonce⟩

/-- The settings of the server; without a codec, an audience, a deployment or the stores it is
not configured. -/
structure Server where
  codec : Option Codec
  audience : String
  deployment : String
  hasStores : Bool
  hasCoordinator : Bool
  outerTimeout : Time
  maxRecords : ℕ
  outerTimeout_pos : 0 < outerTimeout
  maxRecords_pos : 0 < maxRecords

theorem deadlineExceeded_bounded : errorBounded (some "deadline_exceeded") = true := by decide

/-- `_failure`. -/
def failure (requestId code : String) (h : errorBounded (some code) = true := by decide) :
    BrokerResult where
  requestId := requestId
  status := "failed"
  errorCode := some code
  status_known := Idempotency.failed_known
  durationMs_nonneg := Idempotency.durationMs_default
  errorCode_bounded := h

/-- The scope of the login in the idempotency store. -/
def operationScope (c : Claims) : OperationScope :=
  ⟨c.deployment,c.audience,c.operation,c.profileId,c.principalId,c.browserId,c.generation,c.siteId,
    c.targetTabId,c.requestId⟩

/-- The checks of `consume` on its arguments. -/
def checkConsume (c : Claims) (now : ℤ) : Except ServerError Unit :=
  match [("deployment",c.deployment),("audience",c.audience),("nonce",c.nonce)].find?
      fun f => !requireText 256 f.2 with
  | some f => .error (.valueError (f.1 ++ " is invalid"))
  | none =>
    if c.expiresAt ≤ now then .error (.valueError "cannot consume an expired nonce") else .ok ()

theorem checkConsume_ok {c : Claims} {now : ℤ} (h : checkConsume c now = .ok ()) :
    now < c.expiresAt := by
  unfold checkConsume at h
  split at h
  · cases h
  split at h
  · cases h
  · omega

end Data

section Calls

inductive Action
  | clock
  | monotonic
  | deadline (expiresAt : Time)
  | consume (capability : CredentialCapability) (now : ℤ) (deadline : Time)
  | execute (capability : CredentialCapability) (deadline : Time)
  deriving DecidableEq

@[reducible] def Answer : Action → Type
  | .clock => Time
  | .monotonic => Time
  | .consume _ _ _ => Bool
  | .execute _ _ => BrokerResult
  | _ => Unit

abbrev Call (α : Type) := Program Action Answer ServerError α

abbrev perform (a : Action) : Call (Answer a) := Program.perform a

/-- What a `try` has come to. -/
def attempt {α : Type} (p : Call α) : Call (Except ServerError α) :=
  Program.tryCatch (do let x ← p; return .ok x) fun e => return .error e

/-- `sqlite3.Error` and `OSError` of the nonce store. -/
def asNonceStore {α : Type} (deadline : Time) (e : ServerError) : Call α :=
  if e = .sqlite ∨ e = .osError then do
    perform (.deadline deadline)
    throw (.nonceStore "nonce store is unavailable")
  else throw e

def consume (capability : CredentialCapability) (now : ℤ) (deadline : Time) : Call Bool := do
  Program.ofExcept (checkConsume capability.toClaims now)
  Program.tryCatch (do
    perform (.deadline deadline)
    -- `_connect` checks the deadline three times
    perform (.deadline deadline)
    perform (.deadline deadline)
    perform (.deadline deadline)
    perform (.consume capability now deadline)) (asNonceStore deadline)

/-- The request after its capability has been consumed. -/
def runLogin (server : Server) (capability : CredentialCapability) (deadline : Time) :
    Call BrokerResult :=
  if !server.hasCoordinator then return failure capability.requestId "broker_not_configured"
  else do
    let outcome ← attempt (do
      perform (.deadline deadline)
      perform (.execute capability deadline))
    match outcome with
    | .ok result => return result
    | .error .deadlineExceeded => return failure capability.requestId "deadline_exceeded" deadlineExceeded_bounded
    | .error .idempotencyStore => return failure capability.requestId "idempotency_unavailable"
    | .error .osError => return failure capability.requestId "idempotency_unavailable"
    | .error _ => return failure capability.requestId "internal_error"

/-- The request after its capability has been decoded, at the clock reading `nowRaw`. -/
def admitLogin (server : Server) (capability : CredentialCapability) (nowRaw : Time) :
    Call BrokerResult := do
  let receipt ← perform .monotonic
  let budget := min server.outerTimeout (capability.expiresAt-nowRaw)
  if budget ≤ 0 then return failure capability.requestId "deadline_exceeded" deadlineExceeded_bounded
  else do
    let deadline := receipt+budget
    let checked ← attempt (perform (.deadline deadline))
    match checked with
    | .error _ => return failure capability.requestId "deadline_exceeded" deadlineExceeded_bounded
    | .ok _ => do
      let consumed ← attempt (do
        perform (.deadline deadline)
        consume capability (truncate nowRaw) deadline)
      match consumed with
      | .error .deadlineExceeded => return failure capability.requestId "deadline_exceeded" deadlineExceeded_bounded
      | .error (.nonceStore _) => return failure capability.requestId "replay_protection_unavailable"
      | .error .osError => return failure capability.requestId "replay_protection_unavailable"
      | .error e => throw e
      | .ok false => return failure capability.requestId "capability_replayed"
      | .ok true => runLogin server capability deadline

structure Request where
  path : String
  payload : List (String × Json)

/-- The capability token of a request of the right shape. -/
def Request.token (r : Request) : Option String :=
  if r.payload.map (·.1) = ["capability"] then
    match Json.get r.payload "capability" with
    | .str token => if token = "" then none else some token
    | _ => none
  else none

def handle (server : Server) (r : Request) : Call BrokerResult :=
  if r.path ≠ "/v1/credential/login" then throw (.lookupError "broker route not found")
  else match r.token with
  | none => return failure "missing" "invalid_request"
  | some token =>
    match server.codec with
    | none => return failure "missing" "broker_not_configured"
    | some codec =>
      if !server.hasStores ∨ server.audience = "" ∨ server.deployment = "" then
        return failure "missing" "broker_not_configured"
      else do
        let nowRaw ← perform .clock
        match codec.decode token nowRaw server.audience server.deployment "credential.login" with
        | .error _ => return failure "missing" "invalid_capability"
        | .ok capability => admitLogin server capability nowRaw

/-- A request with a token of the right kind, as far as the time and the context go. -/
def receive (server : Server) (capability : CredentialCapability) : Call BrokerResult := do
  let nowRaw ← perform .clock
  match capability.admit nowRaw server.audience server.deployment "credential.login" with
  | .error _ => return failure "missing" "invalid_capability"
  | .ok capability => admitLogin server capability nowRaw

/-- A request is received as what its token spells. -/
theorem handle_eq {server : Server} {r : Request} {token : String} {codec : Codec}
    {capability : CredentialCapability} (hpath : r.path = "/v1/credential/login")
    (htoken : r.token = some token) (hcodec : server.codec = some codec)
    (hstores : server.hasStores = true) (haudience : server.audience ≠ "")
    (hdeployment : server.deployment ≠ "") (hauth : codec.authenticate token = .ok capability) :
    handle server r = receive server capability := by
  simp only [handle,hpath,htoken,hcodec,hstores,haudience,hdeployment,Codec.decode,hauth,receive]
  rfl

end Calls

section Machine

/-- What happened so far: which requests consumed a capability, the nonces whose rows were
deleted again, and which requests reached the coordinator. No request reads it. -/
structure Record where
  consumed : List (ℕ × CredentialCapability)
  pruned : List NonceKey
  reached : List ℕ

/-- The nonce table, and the two clocks. -/
structure State where
  nonces : Nonces
  clock : Time
  monotonic : Time
  record : Record

/-- Whether the database answers, and what the coordinator comes to. -/
structure Choice where
  available : Bool := true
  outcome : Except ServerError BrokerResult := .error .other

variable (server : Server)

/-- The transaction of `consume`; what it deletes comes back when it does not commit. -/
def State.consume (s : State) (t : ℕ) (capability : CredentialCapability) (now : ℤ) :
    Except ServerError Bool × State :=
  let key := nonceKey capability.toClaims
  let kept := s.nonces.keep fun row => now < row.expiresAt
  if (kept.find key).isSome then (.ok false,s)
  else if server.maxRecords ≤ kept.rows.length then
    (.error (.nonceStore "nonce store capacity reached"),s)
  else (.ok true,{ s with
    nonces := kept.put ⟨key,capability.expiresAt⟩
    record := { s.record with
      consumed := (t,capability) :: s.record.consumed
      pruned := (s.nonces.rows.filter fun row => row.expiresAt ≤ now).map (·.key) ++
        s.record.pruned } })

def exec (t : ℕ) : (a : Action) → Choice → State → Option (Except ServerError (Answer a) × State)
  | .clock, _, s => some (.ok s.clock,s)
  | .monotonic, _, s => some (.ok s.monotonic,s)
  | .deadline expiresAt, _, s =>
    if s.monotonic < expiresAt then some (.ok (),s) else some (.error .deadlineExceeded,s)
  | .consume capability now deadline, x, s =>
    if !x.available then some (.error .sqlite,s)
    else if s.monotonic < deadline then some (s.consume server t capability now)
    else some (.error .deadlineExceeded,s)
  | .execute _ _, x, s =>
    some (x.outcome,{ s with record := { s.record with reached := t :: s.record.reached } })

/-- Neither clock ever goes back. -/
inductive Move
  | tick (wall monotonic : Time)
  deriving DecidableEq

def environment : Move → State → Option State
  | .tick wall monotonic, s =>
    if 0 ≤ wall ∧ 0 ≤ monotonic then
      some { s with clock := s.clock+wall, monotonic := s.monotonic+monotonic }
    else none

def machine : Machine Action Answer ServerError State Choice Move where
  exec t a x s := exec server t a x s
  environment v s := environment v s

abbrev World := Interleave.Config Action Answer ServerError BrokerResult State

def World.boot (requests : ℕ → Request) (clock monotonic : Time) : World where
  shared := { nonces := .empty, clock := clock, monotonic := monotonic, record := ⟨[],[],[]⟩ }
  calls t := handle server (requests t)

end Machine
end LoginRoute
end CloudBrowser
