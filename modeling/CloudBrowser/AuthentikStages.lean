import CloudBrowser.SingleSignOn

/-! The browser's side of a single sign-on: the identification page is filled by one transaction
that is tried until it is answered, and its outcome is polled for through the pages that follow. -/
namespace CloudBrowser
namespace AuthentikStages

open Stateful LoginCoordinator
open BasicAuth (SplitUrl)

variable {σ α : Type}

/-- What the page actions and the checks around them raise. -/
inductive Fault
  | raised (e : Raised)
  | assertionError
  | indexError
  | typeError
  | other
  /-- A loop that polls is still running. -/
  | polling
  deriving DecidableEq, Repr

abbrev Action (σ α : Type) := Op Fault σ α

def unavailable (message : String) : Fault := .raised (.browserUnavailable message)

/-- The stage of the flow that a page is at. -/
inductive Stage
  | application
  | unknown
  | mfa
  | identification
  deriving DecidableEq, Repr

structure AuthentikState where
  stage : Stage
  modality : Option String
  url : String
  deriving DecidableEq, Repr

inductive Outcome
  | submitted
  | rejected
  deriving DecidableEq, Repr

/-- The arguments of one transaction on the identification page. -/
structure IdentificationForm where
  targetId : String
  expectedOrigins : List String
  usernameSelector : String
  passwordSelector : String
  submitSelector : String
  rejectedSelector : String
  username : String
  password : String
  deriving DecidableEq, Repr

def uidSelector : String := "ak-flow-executor ak-stage-identification input[name=uidField]"

def passwordSelector : String :=
  "ak-flow-executor ak-stage-identification ak-flow-input-password input[name=password]"

def submitSelector : String := "ak-flow-executor ak-stage-identification button[type=submit]"

def rejectedSelector : String := "ak-flow-executor ak-stage-identification [role=alert]"

def mfaSelector : String := "ak-flow-executor ak-stage-authenticator-validate"

def maxUrlBytes : ℕ := 2048

/-- The page actions, which may answer anything, and the clock of the process. -/
structure AuthentikActions (σ : Type) where
  pageInfo : String → Option String → Action σ Json
  authentikMfa : Option (String → String → Action σ Json)
  identification : IdentificationForm → Action σ Json
  rejection : String → List String → String → Action σ Json
  monotonic : Action σ Time
  sleep : Time → Action σ Unit

section Urls

variable (urlsplit : String → Except Unit SplitUrl)

def parseUrl (url : String) : Except Fault SplitUrl :=
  match urlsplit url with
  | .error _ => .error (.raised (.valueError "urlsplit"))
  | .ok parsed => .ok parsed

/-- `_origin`. -/
def originOf (url : String) : Except Fault (Option String) := do
  let parsed ← parseUrl urlsplit url
  if parsed.scheme ≠ "https" ∨ parsed.netloc = "" ∨ parsed.username.getD "" ≠ "" ∨
      parsed.password.getD "" ≠ "" then return none
  return some ("https://" ++ parsed.netloc)

/-- `_state_url`: the URL without its query and its fragment. -/
def stateUrl (url : String) : Except Fault String := do
  let parsed ← parseUrl urlsplit url
  match ← originOf urlsplit url with
  | none => .error (unavailable "invalid Authentik page URL")
  | some origin => return origin ++ (if parsed.path = "" then "/" else parsed.path)

def asDict : Json → Option (List (String × Json))
  | .obj fields => some fields
  | _ => none

def infoOf (value : Json) : Except Fault (List (String × Json)) :=
  match asDict value with
  | none => .error (unavailable "invalid Authentik page state")
  | some fields => .ok fields

/-- The URL of a page, from what its actions tell of it. -/
def urlOf (value : Json) : Except Fault String := do
  let raw ← infoOf value
  match (Json.get raw "url").asString with
  | none => .error (unavailable "invalid Authentik page URL")
  | some url =>
    if url = "" ∨ maxUrlBytes < Text.utf8Length url then
      .error (unavailable "invalid Authentik page URL")
    else stateUrl urlsplit url

/-- `result.get("found") is True`, of a dictionary. -/
def isFound (value : Json) : Bool :=
  match asDict value with
  | none => false
  | some fields => match Json.get fields "found" with
    | .bool b => b
    | _ => false

/-- `result.get("stage")`, of a dictionary, where it is a text. -/
def stageText (value : Json) : Option String :=
  (asDict value).bind fun fields => (Json.get fields "stage").asString

/-- The state of a rejection check; to look for a list or a dictionary in a set raises. -/
def rejectionState (value : Json) : Except Fault String :=
  match asDict value with
  | none => .error (unavailable "invalid Authentik rejection state")
  | some fields =>
    if !(Json.get fields "state").hashable then .error .typeError
    else match (Json.get fields "state").asString with
      | none => .error (unavailable "invalid Authentik rejection state")
      | some state =>
        if state ∉ ["clear","rejected","invalid_target"] then
          .error (unavailable "invalid Authentik rejection state")
        else if state = "invalid_target" then
          .error (unavailable "invalid Authentik rejection target")
        else .ok state

/-- `_validate_credential`. -/
def validateCredential (value label : String) (maximum : ℕ) : Except Fault Unit :=
  if value = "" ∨ maximum < Text.utf8Length value ∨ '\x00' ∈ value.toList ∨ '\r' ∈ value.toList ∨
      '\n' ∈ value.toList then
    .error (.raised (.valueError ("Authentik " ++ label ++ " is invalid")))
  else .ok ()

end Urls

/-- The capability, with the deadline that it shares or that it is called with: the attribute is
replaced for a call and put back after it. -/
structure AuthentikCapability (urlsplit : String → Except Unit SplitUrl) where
  idpOrigins : List String
  applicationOrigins : List String
  successPaths : List String
  stageTimeout : Time := 30
  pollInterval : Time := 1/10
  timeout_bounded : 0 < stageTimeout ∧ stageTimeout ≤ 30
  idp_nonempty : idpOrigins ≠ []
  origins_exact : ∀ origin ∈ idpOrigins ++ applicationOrigins,
    originOf urlsplit origin = .ok (some origin)
  paths_plain : ∀ path ∈ successPaths,
    path.toList.head? = some '/' ∧ '?' ∉ path.toList ∧ '#' ∉ path.toList
  interval_bounded : 0 < pollInterval ∧ pollInterval ≤ 1/4

namespace AuthentikCapability

variable {urlsplit : String → Except Unit SplitUrl} (c : AuthentikCapability urlsplit)
  (actions : AuthentikActions σ) (deadline : Option (BrokerDeadline σ)) (targetId : String)

/-- `_check_deadline`. -/
def remaining : Action σ (Option Time) :=
  rethrow Fault.raised <| match deadline with
    | none => return none
    | some deadline => return some (← deadline.check)

/-- `_stage_end`. -/
def stageEnd : Action σ Time := do
  let shared ← remaining deadline
  let now ← actions.monotonic
  return now + min c.stageTimeout (shared.getD c.stageTimeout)

/-- `_sleep_poll`. -/
def sleepPoll (stageEnd : Time) : Action σ Unit := do
  let now ← actions.monotonic
  let shared ← remaining deadline
  let left := match shared with
    | none => stageEnd - now
    | some shared => min (stageEnd - now) shared
  if 0 < left then actions.sleep (min c.pollInterval left)

/-- `_info`, before the answer is looked at. -/
def info (selector : Option String) : Action σ Json := do
  let _ ← remaining deadline
  actions.pageInfo targetId selector

/-- The exceptions of the probe for a second factor that count as no answer. -/
def uncaught : Fault → Bool
  | .raised (.browserUnavailable _) => false
  | .assertionError => false
  | .indexError => false
  | _ => true

/-- The probe for a second factor, if the actions have one. -/
def probeMfa : Action σ (Option Json) :=
  match actions.authentikMfa with
  | none => return none
  | some callback => do
    match ← outcome (callback targetId mfaSelector) with
    | .ok value => return some value
    | .error e => if uncaught e then throw e else return none

def modalityOf (value : Json) : String :=
  let deviceClass := (asDict value).bind fun fields => (Json.get fields "device_class").asString
  if deviceClass = some "totp" then "totp" else "unknown"

/-- A page of the application that stands for success. -/
def atApplication (url : String) : Except Fault Bool := do
  let origin ← originOf urlsplit url
  let parsed ← parseUrl urlsplit url
  return origin.any (· ∈ c.applicationOrigins) && parsed.path ∈ c.successPaths

def state : Action σ AuthentikState := do
  let _ ← remaining deadline
  let url ← check (urlOf urlsplit (← info actions deadline targetId none))
  if ← check (c.atApplication url) then return ⟨.application,none,url⟩
  else if !(← check (originOf urlsplit url)).any (· ∈ c.idpOrigins) then return ⟨.unknown,none,url⟩
  else
    let found ← probeMfa actions targetId
    if found.any isFound then return ⟨.mfa,found.map modalityOf,url⟩
    else
      let identification ← info actions deadline targetId (some uidSelector)
      let _ ← check (infoOf identification)
      return ⟨if isFound identification then .identification else .unknown,none,url⟩

def form (username password : String) : IdentificationForm where
  targetId := targetId
  expectedOrigins := c.idpOrigins
  usernameSelector := uidSelector
  passwordSelector := passwordSelector
  submitSelector := submitSelector
  rejectedSelector := rejectedSelector
  username := username
  password := password

/-- The first loop: whether the page has been submitted, or has been rejected. -/
def submit (form : IdentificationForm) (stageEnd : Time) : ℕ → Action σ Outcome
  | 0 => throw .polling
  | fuel+1 => do
    if stageEnd ≤ (← actions.monotonic) then
      throw (unavailable "Authentik identification stage timed out")
    let _ ← remaining deadline
    let result ← actions.identification form
    if stageText result = some "submitted" then return .submitted
    else if stageText result = some "rejected" then return .rejected
    else if stageText result = some "invalid_target" then
      throw (unavailable "invalid Authentik identification target")
    else if stageText result ≠ some "not_ready" then
      throw (unavailable "invalid Authentik identification state")
    else
      c.sleepPoll actions deadline stageEnd
      submit form stageEnd fuel

/-- The second loop: whether the submission has been accepted. -/
def transition (stageEnd : Time) : ℕ → Action σ Outcome
  | 0 => throw .polling
  | fuel+1 => do
    if stageEnd ≤ (← actions.monotonic) then
      throw (unavailable "Authentik identification transition timed out")
    let _ ← remaining deadline
    let answer ← actions.rejection targetId c.idpOrigins rejectedSelector
    if (← check (rejectionState answer)) = "rejected" then return .rejected
    let after ← c.state actions deadline targetId
    if after.stage = .mfa ∨ after.stage = .application then return .submitted
    c.sleepPoll actions deadline stageEnd
    transition stageEnd fuel

/-- `identification`, in at most `fuel` turns of each of its loops. -/
def identification (fuel : ℕ) (username password : String) : Action σ Outcome := do
  check (validateCredential username "username" 512)
  check (validateCredential password "password" 4096)
  let stageEnd ← c.stageEnd actions deadline
  match ← c.submit actions deadline (c.form targetId username password) stageEnd fuel with
  | .rejected => return .rejected
  | .submitted => c.transition actions deadline targetId stageEnd fuel

end AuthentikCapability

/-! ### What the page is asked -/

section Calls

/-- A page action, with its arguments and its outcome. -/
inductive Call
  | pageInfo (targetId : String) (selector : Option String) (r : Except Fault Json)
  | mfa (targetId selector : String) (r : Except Fault Json)
  | identification (form : IdentificationForm) (r : Except Fault Json)
  | rejection (targetId : String) (expectedOrigins : List String) (selector : String)
      (r : Except Fault Json)

def Call.isIdentification : Call → Bool
  | .identification _ _ => true
  | _ => false

/-- A transaction that is answered by the stage `stage`. -/
def Call.Identified (stage : String) : Call → Prop
  | .identification _ (.ok result) => stageText result = some stage
  | _ => False

def AuthentikActions.observed (a : AuthentikActions σ) : AuthentikActions (Logged σ Call) where
  pageInfo targetId selector := logging (.pageInfo targetId selector) (a.pageInfo targetId selector)
  authentikMfa := a.authentikMfa.map fun callback targetId selector =>
    logging (.mfa targetId selector) (callback targetId selector)
  identification form := logging (.identification form) (a.identification form)
  rejection targetId expectedOrigins selector :=
    logging (.rejection targetId expectedOrigins selector)
      (a.rejection targetId expectedOrigins selector)
  monotonic := silently a.monotonic
  sleep seconds := silently (a.sleep seconds)

end Calls

namespace AuthentikCapability

variable {urlsplit : String → Except Unit SplitUrl} (c : AuthentikCapability urlsplit)
  (actions : AuthentikActions σ) (deadline : Option (BrokerDeadline σ)) (targetId : String)

/-- The page actions that one identification performs, in their order. -/
def calls (fuel : ℕ) (username password : String) (s : σ) : List Call :=
  (exec (c.identification actions.observed (deadline.map BrokerDeadline.observed) targetId fuel
    username password) ⟨s,[]⟩).2.log

/-- What was seen last is a page of the application that stands for success, or a page of the
identity provider that asks for a second factor. -/
inductive Passed (c : AuthentikCapability urlsplit) (targetId : String) : List Call → Prop
  | application {page : Json} {url : String} (shown : urlOf urlsplit page = .ok url)
      (reached : c.atApplication url = .ok true) :
      Passed c targetId [.pageInfo targetId none (.ok page)]
  | mfa {page found : Json} {url origin : String} (shown : urlOf urlsplit page = .ok url)
      (declared : originOf urlsplit url = .ok (some origin)) (member : origin ∈ c.idpOrigins)
      (asked : isFound found = true) :
      Passed c targetId [.pageInfo targetId none (.ok page),.mfa targetId mfaSelector (.ok found)]

/-- After the answer "submitted", and without another transaction, a rejection check on the declared
origins has come back clear, and the flow has been seen to go on. -/
def Accepted (calls : List Call) : Prop :=
  ∃ before submitted polls cleared look,
    calls = before ++ submitted ::
      (polls ++ .rejection targetId c.idpOrigins rejectedSelector (.ok cleared) :: look) ∧
    submitted.Identified "submitted" ∧ (∀ call ∈ polls, call.isIdentification = false) ∧
      rejectionState cleared = .ok "clear" ∧ Passed c targetId look

/-- No transaction follows one that was answered "submitted" or "rejected"; and what is reported as
submitted has been accepted. -/
structure Sound (calls : List Call) (answer : Except Fault Outcome) : Prop where
  settled : ∀ before call after, calls = before ++ call :: after →
    call.Identified "submitted" ∨ call.Identified "rejected" →
      ∀ later ∈ after, later.isIdentification = false
  accepted : answer = .ok .submitted → c.Accepted targetId calls

/-- What allows a page action: every transaction before another one was answered "not ready". -/
def Guarded (before : List Call) (call : Call) : Prop :=
  call.isIdentification = true → ∀ e ∈ before, e.isIdentification = true → e.Identified "not_ready"

variable {c targetId}

theorem rejectionState_cases {value : Json} {state : String}
    (h : rejectionState value = .ok state) : state = "clear" ∨ state = "rejected" := by
  unfold rejectionState at h
  split at h
  · cases h
  split_ifs at h with hhash
  split at h
  · cases h
  case h_2 fields _ text _ =>
    split_ifs at h with hknown htarget
    cases h
    simp only [List.mem_cons,List.not_mem_nil,or_false] at hknown
    rcases hknown with hknown | hknown | hknown
    · exact .inl hknown
    · exact .inr hknown
    · exact absurd hknown htarget

theorem remaining_traces {J : List Call → Call → Prop} {a : List Call} :
    Traces J a (remaining (deadline.map BrokerDeadline.observed)) fun _ l => l = a := by
  rintro l ⟨hl,rfl⟩
  cases deadline with
  | none => exact ⟨hl,rfl⟩
  | some d =>
    simp only [Option.map_some,remaining,exec_rethrow,exec_bind,exec_deadlineCheck,
      BrokerDeadline.observed,StateT.run]
    by_cases h : d.expiresAt ≤ (d.monotonicClock l.state).1
    · simpa [h,Ensures] using hl
    · simpa [h,Ensures] using hl

theorem stageEnd_traces {J : List Call → Call → Prop} {a : List Call} :
    Traces J a (c.stageEnd actions.observed (deadline.map BrokerDeadline.observed))
      fun _ l => l = a := by
  apply (remaining_traces deadline).bind
  rintro shared _ rfl
  apply Traces.silently.bind
  rintro now _ ⟨rfl,-⟩
  exact Traces.pure rfl

theorem sleepPoll_traces {J : List Call → Call → Prop} {a : List Call} (stageEnd : Time) :
    Traces J a (c.sleepPoll actions.observed (deadline.map BrokerDeadline.observed) stageEnd)
      fun _ l => l = a := by
  apply Traces.silently.bind
  rintro now _ ⟨rfl,-⟩
  apply (remaining_traces deadline).bind
  rintro shared _ rfl
  dsimp only
  generalize hleft : (match shared with
    | none => stageEnd - now
    | some shared => min (stageEnd - now) shared) = left
  by_cases h : 0 < left
  · rw [if_pos h]
    exact Traces.silently.conseq fun _ _ h => h.1
  · rw [if_neg h]
    exact Traces.pure rfl

theorem info_traces {a : List Call} (selector : Option String) :
    Traces Guarded a
      (info actions.observed (deadline.map BrokerDeadline.observed) targetId selector)
      fun value l => l = a ++ [.pageInfo targetId selector (.ok value)] := by
  apply (remaining_traces deadline).bind
  rintro _ _ rfl
  apply (Traces.logging fun _ h => by cases h).conseq
  rintro value _ ⟨rfl,-⟩
  rfl

theorem probeMfa_traces {a : List Call} :
    Traces Guarded a (probeMfa actions.observed targetId) fun found l =>
      ∃ look, l = a ++ look ∧ (∀ call ∈ look, call.isIdentification = false) ∧
        ∀ value, found = some value → look = [.mfa targetId mfaSelector (.ok value)] := by
  unfold probeMfa
  cases hcallback : actions.authentikMfa with
  | none =>
    simp only [AuthentikActions.observed,hcallback,Option.map_none]
    exact Traces.pure ⟨[],by simp⟩
  | some callback =>
    simp only [AuthentikActions.observed,hcallback,Option.map_some]
    apply (Traces.outcome_logging fun _ h => by cases h).bind
    rintro (e | value) _ rfl
    · dsimp only
      split_ifs
      · exact Traces.throw
      · exact Traces.pure ⟨_,rfl,by simp [Call.isIdentification]⟩
    · exact Traces.pure ⟨_,rfl,by simp [Call.isIdentification]⟩

theorem state_traces {a : List Call} :
    Traces Guarded a (c.state actions.observed (deadline.map BrokerDeadline.observed) targetId)
      fun after l => ∃ look, l = a ++ look ∧ (∀ call ∈ look, call.isIdentification = false) ∧
        (after.stage = .mfa ∨ after.stage = .application → Passed c targetId look) := by
  apply (remaining_traces deadline).bind
  rintro _ _ rfl
  apply (info_traces actions deadline none).bind
  rintro page _ rfl
  apply Traces.check_bind
  intro url hurl
  apply Traces.check_bind
  intro application happlication
  cases application with
  | true =>
    exact Traces.pure
      ⟨_,rfl,by simp [Call.isIdentification],fun _ => .application hurl happlication⟩
  | false =>
    simp only [Bool.false_eq_true,if_false]
    apply Traces.check_bind
    intro origin horigin
    by_cases hidp : (origin.any (· ∈ c.idpOrigins)) = true
    · simp only [hidp,Bool.not_true,Bool.false_eq_true,if_false]
      obtain ⟨name,rfl,hname⟩ : ∃ name, origin = some name ∧ name ∈ c.idpOrigins := by
        simpa [Option.any_eq_true] using hidp
      apply (probeMfa_traces actions).bind
      rintro found _ ⟨look,rfl,hlook,hvalue⟩
      by_cases hfound : found.any isFound = true
      · simp only [hfound,if_true]
        obtain ⟨value,rfl,hasked⟩ := (Option.any_eq_true _ _).mp hfound
        rw [hvalue value rfl]
        exact Traces.pure ⟨_,by rw [List.append_assoc]; rfl,by simp [Call.isIdentification],
          fun _ => .mfa hurl horigin hname hasked⟩
      · simp only [hfound]
        apply (info_traces actions deadline _).bind
        rintro identification _ rfl
        apply Traces.check_bind
        intro _ _
        refine Traces.pure ⟨_,by simp only [List.append_assoc]; rfl,?_,?_⟩
        · simpa [or_imp,forall_and,Call.isIdentification] using hlook
        · split_ifs <;> simp
    · simp only [hidp,Bool.not_false,if_true]
      exact Traces.pure ⟨_,rfl,by simp [Call.isIdentification],by simp⟩

theorem submit_traces {form : IdentificationForm} {stageEnd : Time} (fuel : ℕ) {a : List Call}
    (ha : ∀ e ∈ a, e.isIdentification = true → e.Identified "not_ready") :
    Traces Guarded a
      (c.submit actions.observed (deadline.map BrokerDeadline.observed) form stageEnd fuel)
      fun outcome l => outcome = .submitted → ∃ before submitted,
        l = before ++ [submitted] ∧ submitted.Identified "submitted" := by
  induction fuel generalizing a with
  | zero => exact Traces.throw
  | succ fuel ih =>
    apply Traces.silently.bind
    rintro now _ ⟨rfl,-⟩
    by_cases hlate : stageEnd ≤ now
    · simp only [hlate,if_true]
      exact Traces.throw_bind
    simp only [hlate,if_false]
    apply (remaining_traces deadline).bind
    rintro _ _ rfl
    apply (Traces.logging fun _ _ => ha).bind
    rintro result l ⟨rfl,-⟩
    split_ifs with hsubmitted hrejected htarget hready
    · exact Traces.pure fun _ => ⟨_,_,rfl,hsubmitted⟩
    · exact Traces.pure (by simp)
    · exact Traces.throw
    · exact Traces.throw
    · apply (sleepPoll_traces actions deadline stageEnd).bind
      rintro _ _ rfl
      apply ih
      intro e he hidentification
      rcases List.mem_append.mp he with he | he
      · exact ha e he hidentification
      · rw [List.mem_singleton.mp he]
        exact not_not.mp hready

theorem transition_traces {stageEnd : Time} (fuel : ℕ) {before polls : List Call}
    {submitted : Call} (hsubmitted : submitted.Identified "submitted")
    (hpolls : ∀ call ∈ polls, call.isIdentification = false) :
    Traces Guarded (before ++ submitted :: polls)
      (c.transition actions.observed (deadline.map BrokerDeadline.observed) targetId stageEnd fuel)
      fun outcome l => outcome = .submitted → c.Accepted targetId l := by
  induction fuel generalizing polls with
  | zero => exact Traces.throw
  | succ fuel ih =>
    apply Traces.silently.bind
    rintro now _ ⟨rfl,-⟩
    by_cases hlate : stageEnd ≤ now
    · simp only [hlate,if_true]
      exact Traces.throw_bind
    simp only [hlate,if_false]
    apply (remaining_traces deadline).bind
    rintro _ _ rfl
    apply (Traces.logging fun _ h => by cases h).bind
    rintro cleared _ ⟨rfl,-⟩
    apply Traces.check_bind
    intro rejection hrejection
    rcases rejectionState_cases hrejection with rfl | rfl
    · simp only [show "clear" ≠ "rejected" by decide,if_false]
      apply (state_traces actions deadline).bind
      rintro after _ ⟨look,rfl,hlook,hpassed⟩
      by_cases hafter : after.stage = .mfa ∨ after.stage = .application
      · simp only [hafter,if_true]
        refine Traces.pure fun _ => ⟨before,submitted,polls,cleared,look,?_,hsubmitted,hpolls,
          hrejection,hpassed hafter⟩
        simp
      · simp only [hafter,if_false]
        apply (sleepPoll_traces actions deadline stageEnd).bind
        rintro _ _ rfl
        have hrest : ∀ call ∈ polls ++ Call.rejection targetId c.idpOrigins rejectedSelector
            (.ok cleared) :: look, call.isIdentification = false := by
          simpa [or_imp,forall_and,Call.isIdentification] using ⟨hpolls,hlook⟩
        have hnext := ih hrest
        simpa using hnext
    · simp only [if_true]
      exact Traces.pure (by simp)

theorem identification_traces (fuel : ℕ) (username password : String) : Traces Guarded []
    (c.identification actions.observed (deadline.map BrokerDeadline.observed) targetId fuel username
      password) fun outcome l => outcome = .submitted → c.Accepted targetId l := by
  apply Traces.check_bind
  intro _ _
  apply Traces.check_bind
  intro _ _
  apply (stageEnd_traces actions deadline).bind
  rintro stageEnd _ rfl
  apply (submit_traces actions deadline fuel (by simp)).bind
  rintro (_ | _) l hl
  · obtain ⟨before,submitted,rfl,hsubmitted⟩ := hl rfl
    exact transition_traces actions deadline fuel hsubmitted (by simp)
  · exact Traces.pure (by simp)

/-! ### The whole sign-on -/

section Unobserved

theorem remaining_observed : Projects (Logged.state (ω:=Call))
    (remaining (deadline.map BrokerDeadline.observed)) (remaining deadline) := by
  cases deadline with
  | none => exact Projects.pure none
  | some d =>
    intro l
    simp only [Option.map_some,remaining,exec_rethrow,exec_bind,exec_deadlineCheck,
      BrokerDeadline.observed,StateT.run]
    by_cases h : d.expiresAt ≤ (d.monotonicClock l.state).1
    · simp [h]
    · simp [h]

theorem sleepPoll_observed (stageEnd : Time) : Projects Logged.state
    (c.sleepPoll actions.observed (deadline.map BrokerDeadline.observed) stageEnd)
      (c.sleepPoll actions deadline stageEnd) := by
  apply (Projects.silently _).bind
  intro now
  apply (remaining_observed deadline).bind
  intro shared
  exact Projects.ite _ (Projects.silently _) (Projects.pure _)

theorem info_observed (selector : Option String) : Projects Logged.state
    (info actions.observed (deadline.map BrokerDeadline.observed) targetId selector)
      (info actions deadline targetId selector) :=
  (remaining_observed deadline).bind fun _ => Projects.logging _ _

theorem probeMfa_observed :
    Projects Logged.state (probeMfa actions.observed targetId) (probeMfa actions targetId) := by
  unfold probeMfa
  cases hcallback : actions.authentikMfa with
  | none =>
    simp only [AuthentikActions.observed,hcallback,Option.map_none]
    exact Projects.pure none
  | some callback =>
    simp only [AuthentikActions.observed,hcallback,Option.map_some]
    apply (Projects.logging _ _).outcome.bind
    rintro (e | value)
    · exact Projects.ite _ (Projects.throw e) (Projects.pure none)
    · exact Projects.pure (some value)

theorem state_observed : Projects Logged.state
    (c.state actions.observed (deadline.map BrokerDeadline.observed) targetId)
      (c.state actions deadline targetId) := by
  apply (remaining_observed deadline).bind
  intro _
  apply (info_observed actions deadline none).bind
  intro page
  apply (Projects.check _).bind
  intro url
  apply (Projects.check _).bind
  intro application
  apply Projects.ite _ (Projects.pure _)
  apply (Projects.check _).bind
  intro origin
  apply Projects.ite _ (Projects.pure _)
  apply (probeMfa_observed actions).bind
  intro found
  apply Projects.ite _ (Projects.pure _)
  apply (info_observed actions deadline _).bind
  intro identification
  apply (Projects.check _).bind
  intro _
  exact Projects.pure _

theorem submit_observed (form : IdentificationForm) (stageEnd : Time) (fuel : ℕ) :
    Projects Logged.state
      (c.submit actions.observed (deadline.map BrokerDeadline.observed) form stageEnd fuel)
      (c.submit actions deadline form stageEnd fuel) := by
  induction fuel with
  | zero => exact Projects.throw _
  | succ fuel ih =>
    apply (Projects.silently _).bind
    intro now
    apply Projects.ite _ (Projects.throw_bind _)
    apply (remaining_observed deadline).bind
    intro _
    apply (Projects.logging _ _).bind
    intro result
    apply Projects.ite _ (Projects.pure _)
    apply Projects.ite _ (Projects.pure _)
    apply Projects.ite _ (Projects.throw _)
    apply Projects.ite _ (Projects.throw _)
    exact (sleepPoll_observed actions deadline stageEnd).bind fun _ => ih

theorem transition_observed (stageEnd : Time) (fuel : ℕ) : Projects Logged.state
    (c.transition actions.observed (deadline.map BrokerDeadline.observed) targetId stageEnd fuel)
      (c.transition actions deadline targetId stageEnd fuel) := by
  induction fuel with
  | zero => exact Projects.throw _
  | succ fuel ih =>
    apply (Projects.silently _).bind
    intro now
    apply Projects.ite _ (Projects.throw_bind _)
    apply (remaining_observed deadline).bind
    intro _
    apply (Projects.logging _ _).bind
    intro answer
    apply (Projects.check _).bind
    intro rejection
    apply Projects.ite _ (Projects.pure _)
    apply (state_observed actions deadline).bind
    intro after
    apply Projects.ite _ (Projects.pure _)
    exact (sleepPoll_observed actions deadline stageEnd).bind fun _ => ih

/-- The page actions are only watched: an identification runs as it does without. -/
theorem identification_observed (fuel : ℕ) (username password : String) : Projects Logged.state
    (c.identification actions.observed (deadline.map BrokerDeadline.observed) targetId fuel username
      password) (c.identification actions deadline targetId fuel username password) := by
  apply (Projects.check _).bind
  intro _
  apply (Projects.check _).bind
  intro _
  apply ((remaining_observed deadline).bind fun shared =>
    (Projects.silently _).bind fun now => Projects.pure _).bind
  intro stageEnd
  apply (submit_observed actions deadline _ stageEnd fuel).bind
  rintro (_ | _)
  · exact transition_observed actions deadline stageEnd fuel
  · exact Projects.pure _

end Unobserved

theorem identification_sound (fuel : ℕ) (username password : String) (s : σ) :
    c.Sound targetId (c.calls actions deadline targetId fuel username password s)
      (exec (c.identification actions deadline targetId fuel username password) s).1 := by
  have htraces := @identification_traces σ urlsplit c actions deadline targetId fuel username
    password ⟨s,[]⟩ ⟨justified_nil,rfl⟩
  have hobserved := @identification_observed σ urlsplit c actions deadline targetId fuel username
    password ⟨s,[]⟩
  rw [hobserved]
  unfold calls
  rcases hexec : exec (c.identification actions.observed (deadline.map BrokerDeadline.observed)
    targetId fuel username password) ⟨s,[]⟩ with ⟨answer,l⟩
  rw [hexec] at htraces
  have hjustified : Justified Guarded l.log := htraces.always
  constructor
  · intro before call after h hanswered later hlater
    by_contra hidentification
    obtain ⟨between,rest,rfl⟩ := List.append_of_mem hlater
    dsimp only at h
    have hready := hjustified (before ++ call :: between) later rest (by simp [h])
      (by simpa using hidentification) call (by simp)
    cases call with
    | identification form r =>
      have hready := hready rfl
      cases r with
      | error e => exact hready
      | ok result =>
        simp only [Call.Identified] at hready hanswered
        rw [hready] at hanswered
        simp at hanswered
    | _ => simp [Call.Identified] at hanswered
  · intro hanswer
    dsimp only at hanswer
    subst hanswer
    exact htraces.2 rfl

end AuthentikCapability

/-- Whatever the browser answers, the adapter is sound; and whatever the page answers, so is the
capability that fills it. -/
theorem sign_on_sound (σ : Type) (urlsplit : String → Except Unit SplitUrl)
    (deadline : Option (BrokerDeadline σ)) (s : σ) :
    (∀ (d : SingleSignOn.AuthentikSSODeclaration urlsplit)
      (material : VaultItems.CredentialMaterial) (browser : SingleSignOn.AuthentikBrowser σ)
      (expectedAccount : String),
      SingleSignOn.AuthentikSSOAdapter.Sound d material expectedAccount
        (SingleSignOn.AuthentikSSOAdapter.calls d material browser deadline expectedAccount s)
        (exec (SingleSignOn.AuthentikSSOAdapter.execute d material browser deadline expectedAccount)
          s).1) ∧
    ∀ (c : AuthentikCapability urlsplit) (actions : AuthentikActions σ) (targetId : String)
      (fuel : ℕ) (username password : String),
      c.Sound targetId (c.calls actions deadline targetId fuel username password s)
        (exec (c.identification actions deadline targetId fuel username password) s).1 :=
  ⟨fun _ _ browser _ => SingleSignOn.AuthentikSSOAdapter.execute_sound browser deadline s,
    fun _ actions _ fuel username password =>
      AuthentikCapability.identification_sound actions deadline fuel username password s⟩

end AuthentikStages
end CloudBrowser
