import CloudBrowser.AgentControl
import CloudBrowser.Stateful
import Mathlib.Algebra.Order.Ring.Unbundled.Rat

/-! The HTTP Basic capability of the browser service: one call of `submit` over a DevTools
connection whose answers may be anything. -/
namespace CloudBrowser
namespace BasicAuth

open Stateful

inductive AuthError
  | valueError (message : String)
  /-- `BrowserUnavailable`, and whether a timeout is among its causes. -/
  | unavailable (message : String) (timeout : Bool)
  | timeoutError
  | osError
  | deadlineExceeded
  | other
  /-- A loop that polls is still running. -/
  | polling
  deriving DecidableEq, Repr

/-- The fields of a split URL that the capability looks at; reading the port may raise. -/
structure SplitUrl extends AgentControl.SplitResult where
  hostname : Option String
  port : Except Unit (Option ℕ)

/-- A message of the DevTools, a decoded dictionary. -/
abbrev Message := List (String × Json)

/-- The value, if it is a dictionary, and else an empty one. -/
def asDict : Json → Message
  | .obj fields => fields
  | _ => []

structure Command where
  id : ℕ
  method : String
  params : Json

def continueWithAuth (id : ℕ) (requestId : String) (response : Message) : Command :=
  ⟨id,"Fetch.continueWithAuth",
    .obj [("requestId",.str requestId),("authChallengeResponse",.obj response)]⟩

def provide (requestId username password : String) : Command :=
  continueWithAuth 4 requestId
    [("response",.str "ProvideCredentials"),("username",.str username),("password",.str password)]

def cancel (requestId : String) : Command :=
  continueWithAuth 6 requestId [("response",.str "CancelAuth")]

def enableFetch : Command := ⟨1,"Fetch.enable",.obj [("handleAuthRequests",.bool true)]⟩

def navigate (url : String) : Command := ⟨3,"Page.navigate",.obj [("url",.str url)]⟩

def resumeRequest (requestId : String) : Command :=
  ⟨5,"Fetch.continueRequest",.obj [("requestId",.str requestId)]⟩

def disableFetch : Command := ⟨99,"Fetch.disable",.obj []⟩

/-- A `Fetch.continueWithAuth` with `ProvideCredentials`. -/
def Command.provides (c : Command) : Bool :=
  c.method = "Fetch.continueWithAuth" &&
    (Json.get (asDict (Json.get (asDict c.params) "authChallengeResponse")) "response").asString =
      some "ProvideCredentials"

@[simp] theorem provides_provide (requestId username password : String) :
    (provide requestId username password).provides = true := rfl

@[simp] theorem provides_cancel (requestId : String) : (cancel requestId).provides = false := rfl

/-- What happens on the connection: a message is received, or a command is sent, which may raise. -/
inductive Effect
  | received (message : Message)
  | sent (command : Command) (returned : Bool)

def Effect.provides : Effect → Bool
  | .received _ => false
  | .sent c _ => c.provides

structure BasicAuthState where
  targetId : String
  url : String
  challengeOrigin : Option String
  applicationAuthenticated : Bool
  deriving DecidableEq

/-- The capability, with the clock readings and target lists it has taken and the effects on its
connection. -/
structure Session where
  state : BasicAuthState
  locked : Bool := false
  readings : ℕ := 0
  requests : ℕ := 0
  trace : List Effect := []

/-- What the capability meets: the monotonic clock, Chrome's target lists, and the connection, whose
answers go by the position in the trace. A received text that is not JSON is `none`. -/
structure Surroundings where
  urlsplit : String → Except Unit SplitUrl
  clock : ℕ → Time
  targets : ℕ → Except AuthError Json
  connect : Except AuthError Unit
  send : ℕ → Except AuthError Unit
  recv : ℕ → Except AuthError (Option Json)
  close : Except AuthError Unit

abbrev Action (α : Type) := Op AuthError Session α

/-! ### URLs and arguments -/

section Checks

variable (urlsplit : String → Except Unit SplitUrl)

/-- `_origin`. -/
def originOf (url : String) : Except AuthError (Option String) :=
  match urlsplit url with
  | .error _ => .error (.valueError "urlsplit")
  | .ok parsed =>
    if parsed.scheme ≠ "https" ∨ parsed.hostname.getD "" = "" ∨ parsed.username.isSome ∨
        parsed.password.isSome then .ok none
    else .ok (some ("https://" ++ parsed.netloc))

/-- `_challenge_origin`; only a string is "basic" as a text in lower case. -/
def challengeOrigin (challenge : Json) : Except AuthError (Option String) :=
  match challenge with
  | .obj fields =>
    match Json.get fields "scheme", Json.get fields "origin" with
    | .str scheme, .str origin =>
      if Text.lower scheme = "basic".toList then originOf urlsplit origin else .ok none
    | _, _ => .ok none
  | _ => .ok none

def isLocalWebsocket (url : String) : Bool :=
  match urlsplit url with
  | .error _ => false
  | .ok parsed =>
    match parsed.port with
    | .ok (some port) =>
      parsed.scheme = "ws" && [some "127.0.0.1",some "localhost",some "::1"].contains parsed.hostname &&
        1 ≤ port && port ≤ 65535 && parsed.path ≠ "" && parsed.username.isNone &&
        parsed.password.isNone && parsed.fragment = ""
    | _ => false

def hasBreak (s : String) : Bool := s.toList.any fun c => c = '\r' || c = '\n' || c = '\x00'

def validateTargetId (targetId : String) : Except AuthError Unit :=
  if targetId = "" ∨ 256 < targetId.length ∨ hasBreak targetId then
    .error (.valueError "Basic Auth target_id is invalid")
  else .ok ()

def validateSuccessPath (path : String) : Except AuthError Unit :=
  if ¬['/'].isPrefixOf path.toList ∨ ['/','/'].isPrefixOf path.toList ∨ '?' ∈ path.toList ∨
      '#' ∈ path.toList ∨ 2048 < path.length then
    .error (.valueError "Basic Auth success_path is invalid")
  else .ok ()

def validateValue (value : String) (maximum : ℕ) (label : String) : Except AuthError Unit :=
  if value = "" ∨ maximum < value.length then
    .error (.valueError ("Basic Auth " ++ label ++ " is invalid"))
  else if hasBreak value then
    .error (.valueError ("Basic Auth " ++ label ++ " contains forbidden characters"))
  else .ok ()

def validateCredential (origin username password : String) : Except AuthError Unit := do
  if (← originOf urlsplit origin) ≠ some origin then
    throw (.valueError "Basic Auth origin must be an exact HTTPS origin")
  validateValue username 512 "username"
  validateValue password 4096 "password"

end Checks

/-! ### Messages -/

def isMethod (message : Message) (name : String) : Bool :=
  (Json.get message "method").asString = some name

def paramsOf (message : Message) : Message := asDict (Json.get message "params")

/-- The request id of a message, if it is a string and not empty. -/
def requestId (message : Message) : Option String :=
  (Json.get (paramsOf message) "requestId").asString.filter (· ≠ "")

def requestUrl (message : Message) : Option String :=
  (Json.get (asDict (Json.get (paramsOf message) "request")) "url").asString

section Steps

variable (t : Surroundings)

/-- Whether an `authRequired` event is answered with the credentials: `some` request id then. -/
def matching (origin : String) (message : Message) : Except AuthError (Option String) := do
  let challenge ← challengeOrigin t.urlsplit (Json.get (paramsOf message) "authChallenge")
  match requestId message, requestUrl message with
  | some id, some url =>
    let found ← originOf t.urlsplit url
    return if found = some origin ∧ challenge = some origin then some id else none
  | _, _ => return none

/-! ### The clock, the targets and the connection -/

def readClock : Action Time := do
  let s ← get
  set { s with readings := s.readings+1 }
  return t.clock s.readings

/-- `deadline.check()`, if there is a deadline. -/
def checkDeadline (deadline : Option Time) : Action Unit :=
  match deadline with
  | none => return ()
  | some expiresAt => do
    if expiresAt - (← readClock t) ≤ 0 then throw .deadlineExceeded

/-- `deadline.check() if deadline is not None else default`. -/
def remaining (deadline : Option Time) (default : Time) : Action Time :=
  match deadline with
  | none => return default
  | some expiresAt => do
    let left := expiresAt - (← readClock t)
    if left ≤ 0 then throw .deadlineExceeded
    return left

def jsonList : Action Json := do
  let s ← get
  set { s with requests := s.requests+1 }
  check (t.targets s.requests)

def isTarget (targetId : String) (target : Json) : Bool :=
  (Json.get (asDict target) "type").asString = some "page" &&
    (Json.get (asDict target) "id").asString = some targetId

/-- `_target`. -/
def target (targetId : String) : Action Message := do
  check (validateTargetId targetId)
  match ← jsonList t with
  | .arr targets =>
    match targets.find? (isTarget targetId) with
    | some found => return asDict found
    | none => throw (.unavailable "requested page target is not available" false)
  | _ => throw (.unavailable "invalid Chrome target response" false)

def currentUrl (targetId : String) (deadline : Option Time) : Action String := do
  checkDeadline t deadline
  match (Json.get (← target t targetId) "url").asString.filter (· ≠ "") with
  | some url => return url
  | none => throw (.unavailable "target URL is unavailable" false)

def targetUrlOrLast (targetId : String) (deadline : Option Time) : Action String := do
  checkDeadline t deadline
  match ← outcome (currentUrl t targetId deadline) with
  | .ok url => return url
  | .error (.unavailable message timeout) => do
    let s ← get
    if s.state.targetId = targetId ∧ s.state.url ≠ "" then return s.state.url
    else throw (.unavailable message timeout)
  | .error e => throw e

/-- The endpoint that a target names, if it names one. -/
def endpoint (found : Message) : Option (Except AuthError String) :=
  (Json.get found "webSocketDebuggerUrl").asString.map fun url =>
    if isLocalWebsocket t.urlsplit url then .ok url
    else .error (.unavailable "target DevTools endpoint is unavailable" false)

/-- The loop of `_page_websocket`. -/
def retryWebsocket (targetId : String) (deadline : Option Time) (retryEnd : Time) :
    ℕ → Action String
  | 0 => throw .polling
  | fuel+1 => do
    if (← readClock t) < retryEnd then do
      checkDeadline t deadline
      match endpoint t (← target t targetId) with
      | some result => check result
      | none => retryWebsocket targetId deadline retryEnd fuel
    else throw (.unavailable "target DevTools endpoint is unavailable" false)

def pageWebsocket (timeout : Time) (targetId : String) (deadline : Option Time) (fuel : ℕ) :
    Action String := do
  checkDeadline t deadline
  let found ← target t targetId
  checkDeadline t deadline
  match endpoint t found with
  | some result => check result
  | none => do
    let now ← readClock t
    let left ← remaining t deadline 1
    retryWebsocket t targetId deadline (now + min timeout left) fuel

/-- The loop of `_settled_target_url`. -/
def settle (targetId fallback : String) (deadline : Option Time) (settleEnd : Time) :
    ℕ → Action String
  | 0 => throw .polling
  | fuel+1 => do
    checkDeadline t deadline
    let observed ← targetUrlOrLast t targetId deadline
    if (← check (originOf t.urlsplit observed)).isSome then return observed
    else if settleEnd ≤ (← readClock t) then return fallback
    else settle targetId fallback deadline settleEnd fuel

def settledTargetUrl (timeout : Time) (targetId fallback : String) (deadline : Option Time)
    (fuel : ℕ) : Action String := do
  let now ← readClock t
  let left ← remaining t deadline 1
  settle t targetId fallback deadline (now + min timeout left) fuel

/-- `_send`. -/
def send (command : Command) : Action Unit := do
  let s ← get
  match t.send s.trace.length with
  | .ok () => set { s with trace := s.trace ++ [Effect.sent command true] }
  | .error e => do
    set { s with trace := s.trace ++ [Effect.sent command false] }
    throw e

/-- `_recv`. -/
def receive : Action Message := do
  let s ← get
  match t.recv s.trace.length with
  | .error e => throw e
  | .ok (some (.obj message)) => do
    set { s with trace := s.trace ++ [Effect.received message] }
    if (message.lookup "error").isSome then
      throw (.unavailable "DevTools rejected Basic Auth command" false)
    else return message
  | .ok _ => throw (.unavailable "DevTools returned invalid Basic Auth event" false)

def cancelAuth (message : Message) : Action Unit :=
  match requestId message with
  | some id => send t (cancel id)
  | none => return ()

def continueRequest (message : Message) : Action Unit :=
  match requestId message with
  | some id => send t (resumeRequest id)
  | none => return ()

/-! ### The submission -/

structure Flags where
  challengeSeen : Bool := false
  credentialsSent : Bool := false
  challengeLoop : Bool := false
  deriving DecidableEq

/-- What a failed receive is once the credentials are sent: the end of the challenges. -/
def AuthError.isReceiveTimeout : AuthError → Bool
  | .unavailable _ timeout => timeout
  | .timeoutError | .osError | .deadlineExceeded => true
  | _ => false

/-- What a failed receive raises. -/
def AuthError.ofReceive : AuthError → AuthError
  | .timeoutError | .deadlineExceeded => .unavailable "Basic Auth challenge timed out" true
  | .osError => .unavailable "Basic Auth challenge timed out" false
  | e => e

variable (origin username password : String) (deadline : Option Time)

/-- What the loop does about an `authRequired` event, and how it goes on. -/
def answerChallenge (flags : Flags) (message : Message) (resume : Flags → Action Flags) :
    Action Flags := do
  match ← check (matching t origin message) with
  | none => do
    cancelAuth t message
    resume flags
  | some id =>
    if flags.credentialsSent then do
      send t (cancel id)
      return { flags with challengeLoop := true }
    else do
      checkDeadline t deadline
      send t (provide id username password)
      resume { flags with challengeSeen := true, credentialsSent := true }

/-- The loop of `_submit`, with the replies it may still take. -/
def answerChallenges : ℕ → Flags → Action Flags
  | 0, flags => return flags
  | replies+1, flags => do
    checkDeadline t deadline
    match ← outcome (receive t) with
    | .error e =>
      if flags.challengeSeen ∧ flags.credentialsSent ∧ e.isReceiveTimeout then return flags
      else throw e.ofReceive
    | .ok message => do
      checkDeadline t deadline
      if isMethod message "Fetch.authRequired" then
        answerChallenge t origin username password deadline flags message
          (answerChallenges replies)
      else if isMethod message "Fetch.requestPaused" then do
        continueRequest t message
        answerChallenges replies flags
      else answerChallenges replies flags

/-- Whether the page that the target shows in the end stands for a login. -/
def proved (successPath url : String) : Except AuthError Bool := do
  if (← originOf t.urlsplit url) ≠ some origin then return false
  match t.urlsplit url with
  | .error _ => throw (.valueError "urlsplit")
  | .ok parsed => return parsed.path = successPath

/-- What `_submit` does on its connection. -/
def converse (current : String) : Action Flags := do
  send t enableFetch
  send t (navigate current)
  let flags ← answerChallenges t origin username password deadline 128 {}
  if ¬flags.challengeSeen then
    throw (.unavailable "Basic Auth challenge was not observed" false)
  return flags

def hangUp : Action Unit := do
  discard (outcome (send t disableFetch))
  check t.close

def checkCurrent (current : String) : Except AuthError Unit := do
  if (← originOf t.urlsplit current) ≠ some origin then
    throw (.valueError "current page is not the declared Basic Auth origin")

/-- What the submission leaves as the state of the capability. -/
def recordState (timeout : Time) (targetId successPath current : String) (fuel : ℕ) (flags : Flags) :
    Action Unit := do
  let url ← settledTargetUrl t timeout targetId current deadline fuel
  let authenticated ← check
    (if flags.challengeLoop then .ok false else proved t origin successPath url)
  modify fun s => { s with
    state := ⟨targetId,url,if flags.challengeLoop then some origin else none,authenticated⟩ }

def submitLocked (timeout : Time) (targetId successPath : String) (fuel : ℕ) : Action Unit := do
  check (validateCredential t.urlsplit origin username password)
  check (validateTargetId targetId)
  check (validateSuccessPath successPath)
  checkDeadline t deadline
  let current ← targetUrlOrLast t targetId deadline
  check (checkCurrent t origin current)
  let _ ← remaining t deadline timeout
  let _ ← pageWebsocket t timeout targetId deadline fuel
  check t.connect
  let flags ← ensuring (converse t origin username password deadline current) (hangUp t)
  recordState t origin deadline timeout targetId successPath current fuel flags

/-- `submit`. -/
def submit (timeout : Time) (targetId successPath : String) (fuel : ℕ) : Action Unit := do
  if (← get).locked then throw (.unavailable "Basic Auth capability is busy" false)
  else do
    modify fun s => { s with locked := true }
    ensuring (submitLocked t origin username password deadline timeout targetId successPath fuel)
      (modify fun s => { s with locked := false })

end Steps
end BasicAuth
end CloudBrowser
