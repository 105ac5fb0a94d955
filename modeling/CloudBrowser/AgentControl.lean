import CloudBrowser.RelyGuarantee
import CloudBrowser.Lifecycle
import Mathlib.Algebra.GroupWithZero.Nat

/-! The agent-control service of one browser: page actions against a rotatable lease.
`handle` is a call of separate atomic steps, between which a lease rotation or a rebind of
the browser may land. -/
namespace CloudBrowser
namespace AgentControl

open Interleave

def allowedAgentOperations : List String := ["navigate","click","type","page_info","tabs_list"]

def forbiddenAgentOperations : List String :=
  ["raw_cdp","evaluate","cookies","storage","network","filesystem","process",
    "credential_material","password_values"]

def sensitiveSelectorMarkers : List String :=
  ["password","passwd","passcode","otp","one-time","token","secret","credential","cookie",
    "authorization","auth-header"]

def sensitiveTextMarkers : List String :=
  ["password=","passwd=","passcode=","otp=","token=","secret=","authorization:","cookie:",
    "set-cookie:"]

inductive AgentError
  | valueError (message : String)
  | typeError
  | browserUnavailable (message : String)
  | other
  deriving DecidableEq, Repr

def boundedIdentity (s : String) : Bool := Text.bounded String.length 256 s

/-- The identity the service expects of its requests. -/
structure Lease where
  principalId : String
  browserId : String
  generation : String
  principalId_bounded : boundedIdentity principalId = true
  browserId_bounded : boundedIdentity browserId = true
  generation_bounded : boundedIdentity generation = true
  deriving DecidableEq

def Lease.build (principalId browserId generation : String) : Except AgentError Lease :=
  if hp : boundedIdentity principalId = true then
    if hb : boundedIdentity browserId = true then
      if hg : boundedIdentity generation = true then
        .ok ⟨principalId,browserId,generation,hp,hb,hg⟩
      else .error (.valueError "generation is invalid")
    else .error (.valueError "browser_id is invalid")
  else .error (.valueError "principal_id is invalid")

structure AgentControlRequest where
  requestId : Json
  principalId : String
  browserId : String
  generation : String
  operation : Json
  params : Json

structure Tab where
  tabId : String
  url : String
  title : String
  deriving DecidableEq, Repr

inductive Page
  | state (url title text : String)
  | tabs (pages : List Tab)
  deriving DecidableEq, Repr

inductive ReplyStatus
  | ok | failed | unsupported
  deriving DecidableEq, Repr

structure Reply where
  requestId : String
  status : ReplyStatus
  errorCode : Option String := none
  page : Option Page := none
  deriving DecidableEq, Repr

def failure (requestId errorCode : String) : Reply :=
  { requestId := requestId, status := .failed, errorCode := some errorCode }

/-- The length of a page as compact JSON. -/
def Page.dumpedLength : Page → ℕ
  | .state url title text =>
    25 + Json.dumpedLength url + Json.dumpedLength title + Json.dumpedLength text
  | .tabs pages => 2 + (pages.length-1) + (pages.map fun p =>
      27 + Json.dumpedLength p.tabId + Json.dumpedLength p.url + Json.dumpedLength p.title).sum

/-- `len(json.dumps(payload))` of a successful reply. -/
def okLength (requestId : String) : Option Page → ℕ
  | none => 29 + Json.dumpedLength requestId
  | some page => 37 + Json.dumpedLength requestId + page.dumpedLength

/-- The calls that reach the browser. -/
inductive BrowserCall
  | pageInfo (tab : String) (selector : Option String)
  | listPages
  | navigate (tab url : String)
  | click (tab selector : String)
  | typeText (tab selector text : String)
  deriving DecidableEq, Repr

/-- The fields of a split URL that the service looks at. -/
structure SplitResult where
  scheme : String
  netloc : String
  path : String
  query : String
  fragment : String
  username : Option String
  password : Option String
  deriving DecidableEq, Repr

inductive Action
  | expected
  | readiness
  | current
  | browser (c : BrowserCall)
  deriving DecidableEq, Repr

@[reducible] def Answer : Action → Type
  | .expected => Lease
  | .readiness => BrowserReadiness
  | .current => String × String
  | .browser _ => Option Page

abbrev Call (α : Type) := Program Action Answer AgentError α

abbrev perform (a : Action) : Call (Answer a) := Program.perform a

/-- `_matches`. -/
def readinessMatches (ready : BrowserReadiness) (principalId generation : String) : Bool :=
  ready.owner == principalId && ready.generation == generation

def requireTargetTabId (tab : String) : Except AgentError Unit :=
  if Text.bounded Text.utf8Length 256 tab then .ok ()
  else .error (.valueError "target_tab_id is invalid")

def requireSelector : Json → Except AgentError String
  | .str s => if s ≠ "" ∧ Text.utf8Length s ≤ 512 then .ok s
    else .error (.valueError "selector is invalid")
  | _ => .error (.valueError "selector is invalid")

def isSensitiveSelector (selector : String) : Bool :=
  sensitiveSelectorMarkers.any (Text.mentions · selector)

def containsSensitiveMarker (text : String) : Bool :=
  sensitiveTextMarkers.any (Text.mentions · text)

section Requests

-- the standard library's `urlsplit`, which raises `ValueError` on some malformed hosts
variable (urlsplit : String → Except Unit SplitResult)

def safeNavigationUrl (url : String) : Except AgentError Bool :=
  match urlsplit url with
  | .error _ => .error (.valueError "urlsplit")
  | .ok parsed => .ok (decide (Text.utf8Length url ≤ 2048) &&
      ["http","https"].contains parsed.scheme && parsed.netloc ≠ "" &&
      parsed.username.isNone && parsed.password.isNone &&
      !Text.mentions ".." parsed.path && parsed.fragment = "")

/-- `_dispatch`: check the parameters of the operation, then call the browser. -/
def dispatch (operation : String) (params : List (String × Json)) : Call (Option Page) :=
  match operation with
  | "page_info" =>
    match Json.get params "target_tab_id" with
    | .str tab => do
      Program.ofExcept (requireTargetTabId tab)
      match Json.get params "selector" with
      | .null => perform (.browser (.pageInfo tab none))
      | raw =>
        let selector ← Program.ofExcept (requireSelector raw)
        perform (.browser (.pageInfo tab (some selector)))
    | _ => throw (.valueError "target_tab_id is required")
  | "tabs_list" => perform (.browser .listPages)
  | "navigate" =>
    match Json.get params "target_tab_id", Json.get params "url" with
    | .str tab, .str url => do
      Program.ofExcept (requireTargetTabId tab)
      if !(← Program.ofExcept (safeNavigationUrl urlsplit url)) then
        throw (.valueError "url is invalid")
      else do
        let _ ← perform (.browser (.navigate tab url))
        return none
    | _, _ => throw (.valueError "target_tab_id and url are required")
  | "click" =>
    match Json.get params "target_tab_id" with
    | .str tab => do
      Program.ofExcept (requireTargetTabId tab)
      let selector ← Program.ofExcept (requireSelector (Json.get params "selector"))
      let _ ← perform (.browser (.click tab selector))
      return none
    | _ => throw (.valueError "target_tab_id is required")
  | "type" =>
    match Json.get params "target_tab_id" with
    | .str tab => do
      Program.ofExcept (requireTargetTabId tab)
      let selector ← Program.ofExcept (requireSelector (Json.get params "selector"))
      if isSensitiveSelector selector then throw (.valueError "sensitive input is broker-only")
      else match Json.get params "text" with
        | .str text =>
          if text = "" ∨ Text.utf8Length text > 4096 ∨ containsSensitiveMarker text then
            throw (.valueError "text is invalid")
          else do
            let _ ← perform (.browser (.typeText tab selector text))
            return none
        | _ => throw (.valueError "text is invalid")
    | _ => throw (.valueError "target_tab_id is required")
  | _ => throw (.valueError "unsupported operation")

/-- The part of `handle` under its `try`. -/
def operate (requestId operation : String) (params : List (String × Json)) : Call Reply := do
  let ready ← perform .readiness
  let lease ← perform .current
  if !readinessMatches ready lease.1 lease.2 then return failure requestId "owner_mismatch"
  else if !ready.cdpOk then return failure requestId "browser_unavailable"
  else do
    let result ← dispatch urlsplit operation params
    -- the source re-checks here to close the owner handoff race
    let finalReady ← perform .readiness
    let lease ← perform .current
    if !readinessMatches finalReady lease.1 lease.2 then
      return failure requestId "owner_mismatch"
    else if okLength requestId result > 64*1024 then
      return failure requestId "response_too_large"
    else return { requestId := requestId, status := .ok, page := result }

def handlers (requestId : String) : AgentError → Call Reply
  | .valueError _ => return failure requestId "invalid_request"
  | .typeError => return failure requestId "invalid_request"
  | .browserUnavailable _ => return failure requestId "browser_unavailable"
  | .other => return failure requestId "operation_failed"

/-- `handle` once the expected lease has been read under the lock. -/
def handleChecked (request : AgentControlRequest) (requestId : String) (expected : Lease) : Call Reply :=
  if request.principalId ≠ expected.principalId ∨ request.browserId ≠ expected.browserId ∨
      request.generation ≠ expected.generation then
    return failure requestId "owner_mismatch"
  else if !request.operation.hashable then throw .typeError
  else match request.operation with
    | .str operation =>
      if operation ∈ forbiddenAgentOperations then
        return { requestId := requestId, status := .unsupported, errorCode := some "capability_denied" }
      else if operation ∉ allowedAgentOperations then
        return { requestId := requestId, status := .unsupported,
                 errorCode := some "operation_not_supported" }
      else match request.params with
        | .obj params =>
          Program.tryCatch (operate urlsplit requestId operation params) (handlers requestId)
        | _ => return failure requestId "invalid_request"
    | _ => return { requestId := requestId, status := .unsupported,
                    errorCode := some "operation_not_supported" }

def handle (request : AgentControlRequest) : Call Reply :=
  let requestId := request.requestId.asString.getD ""
  if requestId = "" ∨ requestId.length > 128 then return failure requestId "invalid_request"
  else do
    let expected ← perform .expected
    handleChecked urlsplit request requestId expected

end Requests

/-- One operation that reached the browser, with the readiness its call had checked last. -/
structure Dispatch where
  call : ℕ
  authorisedBy : Option BrowserReadiness
  operation : BrowserCall
  deriving DecidableEq, Repr

/-- The service, the identity its browser is bound to, and what the calls did so far. -/
structure Service where
  lease : Lease
  owner : String
  generation : String
  lastReadiness : ℕ → Option BrowserReadiness
  dispatched : List Dispatch

/-- `rotate_lease`: the three fields change together, under the lock. -/
def Service.rotateLease (s : Service) (binding : BrowserBinding) : Except AgentError Service := do
  let lease ← Lease.build binding.principalId binding.browserId binding.generation
  return { s with lease := lease }

/-- What an action leaves open: whether the readiness probe answers, and the browser's own
answer to an operation. -/
structure Choice where
  readiness : Except AgentError Bool := .ok true
  outcome : Except AgentError (Option Page) := .ok none

def exec (t : ℕ) : (a : Action) → Choice → Service → Except AgentError (Answer a) × Service
  | .expected, _, s => (.ok s.lease,s)
  | .readiness, x, s =>
    match x.readiness with
    | .error e => (.error e,s)
    | .ok cdpOk =>
      let ready : BrowserReadiness := ⟨s.owner,s.generation,cdpOk⟩
      (.ok ready,{ s with lastReadiness := Function.update s.lastReadiness t (some ready) })
  | .current, _, s => (.ok (s.lease.principalId,s.lease.generation),s)
  | .browser c, x, s =>
    (x.outcome,{ s with dispatched := ⟨t,s.lastReadiness t,c⟩ :: s.dispatched })

/-- The environment rotates the lease, or rebinds the browser to another identity. -/
inductive Move
  | rotateLease (binding : BrowserBinding)
  | rebind (owner generation : String)
  deriving DecidableEq, Repr

def machine : Machine Action Answer AgentError Service Choice Move where
  exec t a x s := some (exec t a x s)
  environment
    | .rotateLease binding, s =>
      match s.rotateLease binding with
      | .ok s' => some s'
      | .error _ => some s
    | .rebind owner generation, s => some { s with owner := owner, generation := generation }

abbrev World := Interleave.Config Action Answer AgentError Reply Service

def World.boot (urlsplit : String → Except Unit SplitResult) (lease : Lease)
    (owner generation : String) (requests : ℕ → AgentControlRequest) : World where
  shared := { lease := lease, owner := owner, generation := generation,
              lastReadiness := fun _ => none, dispatched := [] }
  calls t := handle urlsplit (requests t)

/-- The readiness reported the principal and the generation that the request carries. -/
def Carries (request : AgentControlRequest) (ready : BrowserReadiness) : Prop :=
  ready.owner = request.principalId ∧ ready.generation = request.generation

def Authorised (requests : ℕ → AgentControlRequest) (s : Service) : Prop :=
  ∀ d ∈ s.dispatched, ∃ ready, d.authorisedBy = some ready ∧ Carries (requests d.call) ready

/-- Every operation that reached the browser, and every successful reply, was authorised by
a readiness of the request's own identity. -/
structure OwnerOnly (requests : ℕ → AgentControlRequest) (c : World) : Prop where
  dispatched : Authorised requests c.shared
  replied : ∀ t reply, c.calls t = .ret reply → reply.status = .ok →
    ∃ ready, c.shared.lastReadiness t = some ready ∧ Carries (requests t) ready

/-- Where `_matches` re-reads the lease for a call, a lease that agrees with the readiness
still names the principal and the generation of the call's request. -/
def LeaseKept (requests : ℕ → AgentControlRequest) (c : World) : Event Choice Move → Prop
  | .call t _ => ∀ k ready, c.calls t = .act .current k → c.shared.lastReadiness t = some ready →
      readinessMatches ready c.shared.lease.principalId c.shared.lease.generation →
      c.shared.lease.principalId = (requests t).principalId ∧
        c.shared.lease.generation = (requests t).generation
  | .environment _ => True

section Handle

variable (requests : ℕ → AgentControlRequest) (t : ℕ)

/-- The contract of one call: only the call itself moves its last readiness, and it
dispatches nothing unauthorised as long as the lease is kept under it. -/
def contract : Contract Action Answer AgentError Service where
  step a r s s' := (∃ x, exec t a x s = (r,s')) ∧
    (a = .current → ∀ ready, s.lastReadiness t = some ready →
      readinessMatches ready s.lease.principalId s.lease.generation →
      s.lease.principalId = (requests t).principalId ∧
        s.lease.generation = (requests t).generation)
  rely s s' := s'.lastReadiness t = s.lastReadiness t
  guar s s' := (∀ u, u ≠ t → s'.lastReadiness u = s.lastReadiness u) ∧
    (Authorised requests s → Authorised requests s')
  rely_refl _ := rfl
  rely_trans _ _ _ h h' := h'.trans h

variable {requests t}

abbrev Observed (t : ℕ) (ready : BrowserReadiness) (s : Service) : Prop :=
  s.lastReadiness t = some ready

theorem stable_observed (ready : BrowserReadiness) :
    (contract requests t).Stable (Observed t ready) :=
  fun _ _ h hr => Eq.trans hr h

theorem stable_true : (contract requests t).Stable (fun _ => True) := fun _ _ _ _ => trivial

theorem readiness_triple :
    (contract requests t).Triple (fun _ => True) (perform .readiness)
      (Contract.Returns (Observed t)) := by
  apply Contract.Triple.perform stable_true (fun _ _ => trivial)
  · rintro s r s' - ⟨⟨x,hx⟩,-⟩
    simp only [exec] at hx
    cases hready : x.readiness with
    | error e =>
      simp only [hready,Prod.mk.injEq] at hx
      obtain ⟨rfl,rfl⟩ := hx
      exact ⟨⟨fun u _ => rfl,id⟩,trivial⟩
    | ok cdpOk =>
      simp only [hready,Prod.mk.injEq] at hx
      obtain ⟨rfl,rfl⟩ := hx
      exact ⟨⟨fun u hu => by simp [hu],id⟩,by simp [Contract.Returns,Observed]⟩
  · exact Contract.stable_returns stable_observed

/-- The re-read: a lease that matches the readiness makes the readiness the request's own. -/
theorem current_triple (ready : BrowserReadiness) :
    (contract requests t).Triple (Observed t ready) (perform .current)
      (Contract.Returns fun lease s => Observed t ready s ∧
        (readinessMatches ready lease.1 lease.2 → Carries (requests t) ready)) := by
  apply Contract.Triple.perform (stable_observed ready) (fun _ _ => trivial)
  · rintro s r s' hready ⟨⟨x,hx⟩,hkept⟩
    simp only [exec,Prod.mk.injEq] at hx
    obtain ⟨rfl,rfl⟩ := hx
    refine ⟨⟨fun u _ => rfl,id⟩,hready,fun hm => ?_⟩
    have hlease := hkept rfl ready hready hm
    simp only [readinessMatches,Bool.and_eq_true,beq_iff_eq] at hm
    exact ⟨hm.1.trans hlease.1,hm.2.trans hlease.2⟩
  · apply Contract.stable_returns
    intro lease s s' h hr
    exact ⟨stable_observed ready s s' h.1 hr,h.2⟩

theorem browser_triple {ready : BrowserReadiness} (hc : Carries (requests t) ready)
    (op : BrowserCall) :
    (contract requests t).Triple (Observed t ready) (perform (.browser op)) (fun _ _ => True) := by
  apply Contract.Triple.perform (stable_observed ready) (fun _ _ => trivial)
  · rintro s r s' hready ⟨⟨x,hx⟩,-⟩
    simp only [exec,Prod.mk.injEq] at hx
    obtain ⟨rfl,rfl⟩ := hx
    refine ⟨⟨fun u _ => rfl,fun hs d hd => ?_⟩,trivial⟩
    obtain rfl | hd := List.mem_cons.mp hd
    · exact ⟨ready,hready,hc⟩
    · exact hs d hd
  · exact fun _ => stable_true

theorem raise_triple {P : Service → Prop} {α : Type} (e : AgentError) :
    (contract requests t).Triple P (throw e : Call α) (fun _ _ => True) :=
  Contract.Triple.raise (fun _ _ => trivial) stable_true

theorem silent_triple {ready : BrowserReadiness} (hc : Carries (requests t) ready)
    (op : BrowserCall) :
    (contract requests t).Triple (Observed t ready)
      (do let _ ← perform (.browser op); return none : Call (Option Page)) (fun _ _ => True) :=
  Contract.Triple.bind (browser_triple hc op)
    (fun _ => Contract.Triple.ret (fun _ _ => trivial) stable_true) (fun _ _ _ => trivial)

theorem dispatch_triple (urlsplit : String → Except Unit SplitResult) {ready : BrowserReadiness}
    (hc : Carries (requests t) ready) (operation : String) (params : List (String × Json)) :
    (contract requests t).Triple (Observed t ready) (dispatch urlsplit operation params)
      (fun _ _ => True) := by
  have hstable : (contract requests t).Stable (Observed t ready) := stable_observed ready
  have check {α β : Type} (r : Except AgentError α) (f : α → Call β)
      (hf : ∀ x, (contract requests t).Triple (Observed t ready) (f x) (fun _ _ => True)) :
      (contract requests t).Triple (Observed t ready) (Program.ofExcept r >>= f)
        (fun _ _ => True) :=
    Contract.Triple.ofExcept_bind hstable (fun x _ => hf x) fun _ _ _ _ => trivial
  unfold dispatch
  split
  · split
    · apply check
      intro _
      split
      · exact browser_triple hc _
      · exact check _ _ fun selector => browser_triple hc _
    · exact raise_triple _
  · exact browser_triple hc _
  · split
    · apply check
      intro _
      apply check
      intro safe
      split
      · exact raise_triple _
      · exact silent_triple hc _
    · exact raise_triple _
  · split
    · apply check
      intro _
      exact check _ _ fun selector => silent_triple hc _
    · exact raise_triple _
  · split
    · apply check
      intro _
      apply check
      intro selector
      split
      · exact raise_triple _
      · split
        · split
          · exact raise_triple _
          · exact silent_triple hc _
        · exact raise_triple _
    · exact raise_triple _
  · exact raise_triple _

/-- What a finished call says about its reply. -/
def Replied (requests : ℕ → AgentControlRequest) (t : ℕ) (r : Except AgentError Reply)
    (s : Service) : Prop :=
  ∀ reply, r = .ok reply → reply.status = .ok →
    ∃ ready, Observed t ready s ∧ Carries (requests t) ready

theorem stable_replied (r : Except AgentError Reply) :
    (contract requests t).Stable (Replied requests t r) := by
  intro s s' h hr reply hok hst
  obtain ⟨ready,hready,hc⟩ := h reply hok hst
  exact ⟨ready,stable_observed ready s s' hready hr,hc⟩

/-- A reply that reports no success needs no authorisation. -/
theorem refused_triple {P : Service → Prop} {reply : Reply} (h : reply.status ≠ .ok) :
    (contract requests t).Triple P (pure reply : Call Reply) (Replied requests t) := by
  apply Contract.Triple.ret
  · intro s _ reply' hok hst
    cases hok
    exact absurd hst h
  · exact stable_replied _

theorem operate_triple (urlsplit : String → Except Unit SplitResult) (requestId operation : String)
    (params : List (String × Json)) :
    (contract requests t).Triple (fun _ => True) (operate urlsplit requestId operation params)
      (Replied requests t) := by
  unfold operate
  apply Contract.Triple.bind readiness_triple _ (fun _ _ _ => nofun)
  intro ready
  apply Contract.Triple.bind (current_triple ready) _ (fun _ _ _ => nofun)
  intro lease
  split
  · exact refused_triple nofun
  rename_i hmatch
  split
  · exact refused_triple nofun
  -- the first readiness matched, so it is the request's own and authorises the operation
  rintro s ⟨hready,hc⟩
  have hcarry : Carries (requests t) ready := hc (by simpa using hmatch)
  apply Contract.Triple.bind (dispatch_triple urlsplit hcarry operation params) _
    (fun _ _ _ => nofun) s hready
  intro result
  apply Contract.Triple.bind readiness_triple _ (fun _ _ _ => nofun)
  intro finalReady
  apply Contract.Triple.bind (current_triple finalReady) _ (fun _ _ _ => nofun)
  intro lease'
  split
  · exact refused_triple nofun
  rename_i hmatch'
  split
  · exact refused_triple nofun
  rintro s ⟨hready',hc'⟩ s' hr reply - -
  exact ⟨finalReady,stable_observed finalReady s s' hready' hr,hc' (by simpa using hmatch')⟩

theorem handlers_triple {P : Service → Prop} (requestId : String) (e : AgentError) :
    (contract requests t).Triple P (handlers requestId e) (Replied requests t) := by
  cases e <;> exact refused_triple nofun

theorem checked_triple (urlsplit : String → Except Unit SplitResult) (request : AgentControlRequest)
    (requestId : String) (expected : Lease) :
    (contract requests t).Triple (fun _ => True) (handleChecked urlsplit request requestId expected)
      (Replied requests t) := by
  unfold handleChecked
  split
  · exact refused_triple nofun
  split
  · exact Contract.Triple.raise (fun _ _ _ => nofun) (stable_replied _)
  split
  · split
    · exact refused_triple nofun
    split
    · exact refused_triple nofun
    split
    · exact Contract.Triple.tryCatch (operate_triple urlsplit _ _ _) (fun _ _ h => h)
        (fun e => handlers_triple _ e)
    · exact refused_triple nofun
  · exact refused_triple nofun

theorem handle_triple (urlsplit : String → Except Unit SplitResult)
    (request : AgentControlRequest) :
    (contract requests t).Triple (fun _ => True) (handle urlsplit request)
      (Replied requests t) := by
  unfold handle
  dsimp only
  split
  · exact refused_triple nofun
  · refine Contract.Triple.bind (Q:=fun _ _ => True) ?_ (fun expected => checked_triple _ _ _ _)
      (fun _ _ _ => nofun)
    apply Contract.Triple.perform stable_true (fun _ _ => trivial)
    · rintro s r s' - ⟨⟨x,hx⟩,-⟩
      simp only [exec,Prod.mk.injEq] at hx
      obtain ⟨rfl,rfl⟩ := hx
      exact ⟨⟨fun u _ => rfl,id⟩,trivial⟩
    · exact fun _ => stable_true

end Handle

theorem rotateLease_ok {s s' : Service} {binding : BrowserBinding}
    (h : s.rotateLease binding = .ok s') :
    s'.lastReadiness = s.lastReadiness ∧ s'.dispatched = s.dispatched := by
  simp only [Service.rotateLease,bind,Except.bind,pure,Except.pure] at h
  split at h
  · cases h
  · cases h
    exact ⟨rfl,rfl⟩

/-- Rotations and rebinds touch neither the observations nor the dispatched operations. -/
theorem environment_frame {v : Move} {s s' : Service} (h : machine.environment v s = some s') :
    s'.lastReadiness = s.lastReadiness ∧ s'.dispatched = s.dispatched := by
  cases v with
  | rotateLease binding =>
    simp only [machine] at h
    split at h
    · rename_i s₁ hs
      cases h
      exact rotateLease_ok hs
    · cases h
      exact ⟨rfl,rfl⟩
  | rebind owner generation =>
    cases h
    exact ⟨rfl,rfl⟩

theorem compatible (requests : ℕ → AgentControlRequest) :
    Compatible machine (contract requests) (LeaseKept requests) where
  own c t x a k r s hk he hQ := by
    refine ⟨⟨x,Option.some.inj he⟩,fun ha ready hready hm => ?_⟩
    subst ha
    exact hQ k ready hk hready hm
  others t u s s' hne hg := hg.1 u (Ne.symm hne)
  environment c v s hs _ u := congrFun (environment_frame hs).1 u

/-- Every call keeps its contract, and nothing unauthorised has been dispatched. -/
def Guarded (requests : ℕ → AgentControlRequest) (c : World) : Prop :=
  AllSafe (contract requests) (Replied requests) c ∧ Authorised requests c.shared

theorem guarded_next {requests : ℕ → AgentControlRequest} (c d : World) (e : Event Choice Move)
    (h : Guarded requests c) (hQ : LeaseKept requests c e) (hn : machine.next c e = some d) :
    Guarded requests d := by
  refine ⟨allSafe_next (compatible requests) c d e h.1 hQ hn,?_⟩
  cases e with
  | call t x => exact (allSafe_call (compatible requests) h.1 hQ hn).1.2 h.2
  | environment v =>
    obtain ⟨s,hs,rfl⟩ := Machine.next_environment hn
    have hd : s.dispatched = c.shared.dispatched := (environment_frame hs).2
    intro d hmem
    rw [hd] at hmem
    exact h.2 d hmem

theorem guarded_boot (urlsplit : String → Except Unit SplitResult) (lease : Lease)
    (owner generation : String) (requests : ℕ → AgentControlRequest) :
    Guarded requests (World.boot urlsplit lease owner generation requests) :=
  ⟨fun t => handle_triple urlsplit (requests t) _ trivial,nofun⟩

theorem Guarded.ownerOnly {requests : ℕ → AgentControlRequest} {c : World}
    (h : Guarded requests c) : OwnerOnly requests c where
  dispatched := h.2
  replied _ reply hr hok := h.1.returned hr reply rfl hok

section Rotation

def aliceLease : Lease := ⟨"alice","browser-1","generation-a",by decide,by decide,by decide⟩

def bobBinding : BrowserBinding := ⟨"profile-bob","bob","browser-1","generation-b"⟩

def listTabs (requestId principalId generation : String) : AgentControlRequest where
  requestId := .str requestId
  principalId := principalId
  browserId := "browser-1"
  generation := generation
  operation := .str "tabs_list"
  params := .obj []

def aliceRequests : ℕ → AgentControlRequest := fun _ => listTabs "r-1" "alice" "generation-a"

def aliceWorld : World :=
  World.boot (fun _ => .error ()) aliceLease "alice" "generation-a" aliceRequests

/-- The whole of one call, with nothing in between. -/
def undisturbed : List (Event Choice Move) := List.replicate 6 (.call 0 {})

theorem leaseKept_undisturbed :
    machine.EachStep (LeaseKept aliceRequests) aliceWorld undisturbed := by
  have hlease : machine.Throughout (fun c => c.shared.lease = aliceLease) aliceWorld undisturbed := by
    apply Machine.throughout_of_step (Q:=fun _ e => e = .call 0 {})
    · rintro c d e hc rfl hn
      obtain ⟨a,k,r,s,-,he,rfl⟩ := Machine.next_call hn
      have hs : s.lease = c.shared.lease := by
        have hexec : exec 0 a {} c.shared = (r,s) := Option.some.inj he
        cases a <;> (cases hexec; rfl)
      exact hs.trans hc
    · rfl
    · simp [undisturbed,Machine.EachStep]
  apply hlease.eachStep
  rintro c (⟨t,x⟩ | v) hc
  · intro k ready _ _ _
    rw [hc]
    exact ⟨rfl,rfl⟩
  · trivial

/-- The header check sees Alice's lease; then the browser is handed over to Bob, and both
re-reads compare Bob's readiness with Bob's lease. -/
def handover : List (Event Choice Move) :=
  [.call 0 {},.environment (.rotateLease bobBinding),.environment (.rebind "bob" "generation-b"),
    .call 0 {},.call 0 {},.call 0 {},.call 0 {},.call 0 {}]

end Rotation
end AgentControl
end CloudBrowser
