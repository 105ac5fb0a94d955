import CloudBrowser.CredentialFetcher
import CloudBrowser.Interpretation
import CloudBrowser.SimulatedLogin

/-! The login service as it is assembled: the custody fetcher as its gate, and the browser's side
as layers that share one deadline. -/
namespace CloudBrowser
namespace BrokerRuntime

open Stateful LoginCoordinator
open Interleave (Program)
open GrantCustody (CustodyError GrantId GrantLease GrantScope parseGrantRef)
open VaultItems (CredentialMaterial)
open CredentialFetcher (Action Answer leaseMaterial)
open Idempotency (BrokerResult)

variable {σ δ τ κ α : Type}

section BrowserSide

/-- A layer on the browser's side: it checks the shared deadline, asks the browser or a table, and
goes on by what it is told. No such layer has a handler around a check. -/
inductive Steps (σ α : Type) : Type 1
  | done (r : Except Raised α)
  | check (rest : Steps σ α)
  | ask {β : Type} (request : Operation σ β) (rest : β → Steps σ α)

def Steps.run (deadline : Option (BrokerDeadline σ)) : Steps σ α → Operation σ α
  | .done r => Stateful.check r
  | .check rest => do
    checkDeadline deadline
    rest.run deadline
  | .ask request rest => do
    let answer ← request
    (rest answer).run deadline

def Steps.bind {α β : Type} : Steps σ α → (α → Steps σ β) → Steps σ β
  | .done (.ok x), f => f x
  | .done (.error e), _ => .done (.error e)
  | .check rest, f => .check (rest.bind f)
  | .ask request rest, f => .ask request fun answer => (rest answer).bind f

theorem Steps.run_bind {α β : Type} (deadline : Option (BrokerDeadline σ)) (q : Steps σ α)
    (f : α → Steps σ β) : (q.bind f).run deadline = q.run deadline >>= fun x => (f x).run deadline := by
  induction q with
  | done r => cases r <;> rfl
  | check rest ih => simp only [Steps.bind,Steps.run,ih,bind_assoc]
  | ask request rest ih =>
    simp only [Steps.bind,Steps.run,bind_assoc]
    congr 1
    funext answer
    exact ih answer

/-- `invoke_transport`: the deadline is checked before the request and after its answer. -/
def invokeTransport (request : Operation σ α) : Steps σ α :=
  .check (.ask request fun answer => .check (.done (.ok answer)))

/-- The live binding that a browser is found to have, as the binding of the site. -/
def resolvedBinding (p : BrowserBindingProvider σ) (observed : LiveBrowserBinding) :
    Except Raised ResolvedBinding := do
  let profileId ← requiredBindingText observed.profileId "profile_id"
  let principalId ← requiredBindingText observed.principalId "principal_id"
  let browserId ← requiredBindingText observed.browserId "browser_id"
  let generation ← requiredBindingText observed.generation "generation"
  return { profileId, principalId, browserId, siteId := p.siteId, generation }

/-- The layers under `BrowserBindingProvider.resolve`, with the readiness request of the browser. -/
def bindingSteps (p : BrowserBindingProvider σ) (intent : LoginIntent) : Steps σ ResolvedBinding :=
  .check <|
    if intent.siteId ≠ p.siteId then .done (.error (.valueError "site binding is not configured"))
    else .check <| .ask p.browserFactory fun
      | none => .done (.error (.browserUnavailable "browser live binding is unavailable"))
      | some readiness => .check <| (invokeTransport readiness).bind fun
        | none => .done (.error (.browserUnavailable "browser live binding is unavailable"))
        | some observed => .check (.done (resolvedBinding p observed))

/-- The provider whose browser sends its readiness request over the shared deadline. -/
def overTransport (p : BrowserBindingProvider σ) (deadline : Option (BrokerDeadline σ)) :
    BrowserBindingProvider σ where
  browserFactory := do
    let browser ← p.browserFactory
    return browser.map fun readiness => (invokeTransport readiness).run deadline
  siteId := p.siteId
  siteId_bounded := p.siteId_bounded

theorem bindingSteps_run (p : BrowserBindingProvider σ) (deadline : Option (BrokerDeadline σ))
    (intent : LoginIntent) :
    (bindingSteps p intent).run deadline = (overTransport p deadline).resolve deadline intent := by
  have hchecked (observed : LiveBrowserBinding) :
      (do
        let profileId ← check (requiredBindingText observed.profileId "profile_id")
        let principalId ← check (requiredBindingText observed.principalId "principal_id")
        let browserId ← check (requiredBindingText observed.browserId "browser_id")
        let generation ← check (requiredBindingText observed.generation "generation")
        return { profileId, principalId, browserId, siteId := p.siteId, generation } :
          Operation σ ResolvedBinding) = check (resolvedBinding p observed) := by
    unfold resolvedBinding requiredBindingText
    split <;> (try rfl)
    split <;> (try rfl)
    split <;> (try rfl)
    split <;> rfl
  simp only [bindingSteps,Steps.run,BrowserBindingProvider.resolve,overTransport]
  congr 1
  funext _
  by_cases h : intent.siteId ≠ p.siteId
  · rw [if_pos h]
    exact (if_pos h).symm
  · rw [if_neg h]
    refine Eq.trans ?_ (if_neg h).symm
    simp only [Steps.run,invokeWithDeadline,bind_assoc]
    congr 1
    funext _
    congr 1
    funext browser
    cases browser with
    | none => rfl
    | some readiness =>
      simp only [Steps.run,Steps.run_bind,Option.map_some,pure_bind]
      congr 1
      funext _
      congr 1
      funext observed
      cases observed with
      | none => rfl
      | some observed =>
        simp only [Steps.run]
        rw [← hchecked]

end BrowserSide

section Custody

/-- What the custody store and the vault do for a call of the fetcher, and whether the lock of a
grant's scope is acquired in the time that is left. -/
structure Fetcher (σ : Type) where
  act : (a : Action) → Op CustodyError σ (Answer Unit a)
  acquire : GrantId → Time → StateM σ Bool
  rollback : StateM σ Unit
  decryptItem : List (String × Json) → String → Bytes → Except CustodyError CredentialMaterial

/-- What leaves the fetcher. No clause of the coordinator names the last ones; they pass all of
them, as a failure of the custody does. -/
def raised : CustodyError → Raised
  | .valueError message => .valueError message
  | .lookupError message => .lookupError message
  | .grantRevoked => .grantRevoked "grant revoked"
  | .authorizationChanged => .authorizationChanged "grant changed"
  | .grantMaterial message => .grantMaterial message
  | .grantCustody message => .grantCustody message
  | .dependencyUnavailable => .dependencyUnavailable "vault dependency is unavailable"
  | .deadlineExceeded => .deadlineExceeded "broker deadline expired"
  | .vaultCrypto message => .grantCustody message
  | .osError => .grantCustody ""
  | .sqliteOperational => .grantCustody ""
  | .sqliteIntegrity => .grantCustody ""
  | .other => .grantCustody ""

/-- The gate raises exceptions of its own, and those of the operation that it runs. -/
abbrev Gated (σ α : Type) := Op (CustodyError ⊕ Raised) σ α

def own (m : Op CustodyError σ α) : Gated σ α := rethrow .inl m

def within (m : Operation σ α) : Gated σ α := rethrow .inr m

def scopeOf (a : GrantAuthorization) : GrantScope where
  profileId := a.profileId
  principalId := a.principalId
  siteId := a.siteId
  targetTabId := a.targetTabId
  browserId := a.browserId
  generation := a.generation
  bounded := by
    have h := a.bounded
    simp only [List.all_cons,List.all_nil,Bool.and_true,Bool.and_eq_true] at h ⊢
    tauto

namespace Fetcher

variable (f : Fetcher σ)

-- the deadline, and the deadline as the requests to the vault read it: a login has one for both
variable (deadline vaultDeadline : Option (BrokerDeadline σ))

def expiry (deadline : Option (BrokerDeadline σ)) : Op CustodyError σ Unit :=
  rethrow (fun _ => .deadlineExceeded) (checkDeadline deadline)

def perform : (a : Action) → Op CustodyError σ (Answer Unit a)
  | .deadline _ => expiry vaultDeadline
  | a => f.act a

/-- From the first recheck of the lease to the last. -/
def material (lease : GrantLease) : Op CustodyError σ CredentialMaterial :=
  (leaseMaterial f.decryptItem lease (vaultDeadline.map (·.expiresAt))).alone (f.perform vaultDeadline)

def fetch (ref : String) : Operation σ CredentialMaterial :=
  rethrow raised do
    let lease ← f.act (.checkout ref)
    expiry deadline
    f.material vaultDeadline lease

/-- The lock of the scope, within the time that is left. -/
def lockForGrant (grantId : GrantId) : Gated σ Unit :=
  match deadline with
  | none => pure ()
  | some d => do
    let timeout ← within d.check
    let acquired ← (f.acquire grantId timeout : StateM σ Bool)
    if !acquired then throw (.inr (.deadlineExceeded "broker deadline expired"))
    within (checkDeadline deadline)

/-- An `OperationalError` around the transaction is the deadline's, if that has passed. -/
def asCustody : CustodyError ⊕ Raised → Gated σ α
  | .inl .sqliteOperational => do
    within (checkDeadline deadline)
    throw (.inl (.grantCustody "grant custody store is unavailable"))
  | e => throw e

/-- The transaction around a body; the rollback does not raise. -/
def transaction (ref : String) (body : GrantLease → Gated σ α) : Gated σ α :=
  tryCatch (do
    own (f.act .beginImmediate)
    let lease ← own (f.act (.checkout ref))
    let result ← body lease
    own (f.act .commit)
    return result) fun e => do
      (f.rollback : StateM σ Unit)
      throw e

def authorizedOperation (ref : String) (body : GrantLease → Gated σ α) : Gated σ α := do
  let grantId ← own (check (parseGrantRef ref))
  own (f.act (.selectScope grantId))
  f.lockForGrant deadline grantId
  tryCatch (do
    -- the connection: its timeout, the busy timeout, and the check after that
    within (checkDeadline deadline)
    within (checkDeadline deadline)
    within (checkDeadline deadline)
    f.transaction ref body) (asCustody deadline)

def authorizedBody (authorization : GrantAuthorization) (expected : GrantId)
    (operation : Option CredentialMaterial → Operation σ AdapterResult) (lease : GrantLease) :
    Gated σ AdapterResult := do
  within (checkDeadline deadline)
  if lease.grantId ≠ expected then throw (.inl .grantRevoked)
  if lease.epoch ≠ authorization.epoch ∨ lease.scope ≠ scopeOf authorization then
    throw (.inl .authorizationChanged)
  let material ← own (f.material vaultDeadline lease)
  let result ← within (operation (some material))
  own (f.act (.recheck lease))
  return result

def runAuthorized (authorization : GrantAuthorization)
    (operation : Option CredentialMaterial → Operation σ AdapterResult) : Operation σ AdapterResult :=
  rethrow (Sum.elim raised id) do
    let expected ← own (check (parseGrantRef authorization.usernameRef))
    f.authorizedOperation deadline authorization.usernameRef
      (f.authorizedBody deadline vaultDeadline authorization expected operation)

def gate : AuthorizationGate σ CredentialMaterial where
  suppliesMaterial := true
  runAuthorized := f.runAuthorized deadline vaultDeadline

end Fetcher
end Custody

section Runtime

/-- What a login is assembled of. The selection of an adapter finds a capability of the browser,
and the adapter runs with it. -/
structure Runtime (σ δ τ κ : Type) where
  bindingResolver : LoginIntent → Steps σ ResolvedBinding
  declarations : String → Option δ
  grantResolver : ResolvedBinding → String → String → Steps σ GrantAuthorization
  targetPreflight : LoginIntent → δ → Steps σ (Option τ)
  resolvePreFill : LoginIntent → Steps σ ResolvedBinding
  adapterSelector : String → δ → LoginIntent → Steps σ κ
  adapter : κ → δ → Option CredentialMaterial → Steps σ AdapterResult
  fetcher : Fetcher σ
  gated : Bool
  deadline : BrokerDeadline σ

namespace Runtime

variable (r : Runtime σ δ τ κ) (deadline vaultDeadline : BrokerDeadline σ)

def coordinator : BrokerCoordinator σ δ τ CredentialMaterial where
  service :=
    { bindingResolver := fun intent => (r.bindingResolver intent).run (some deadline)
      declarations := r.declarations
      grantResolver := fun binding siteId targetTabId =>
        (r.grantResolver binding siteId targetTabId).run (some deadline)
      targetPreflight := fun intent declaration => (r.targetPreflight intent declaration).run (some deadline) }
  resolvePreFill intent := (r.resolvePreFill intent).run (some deadline)
  adapterSelector siteId declaration intent := do
    let capability ← (r.adapterSelector siteId declaration intent).run (some deadline)
    return fun declaration material => (r.adapter capability declaration material).run (some deadline)
  authorizationGate :=
    if r.gated then some (r.fetcher.gate (some deadline) (some vaultDeadline)) else none

def executeWith [DecidableEq τ] (intent : LoginIntent) : Audited σ BrokerResult :=
  (r.coordinator deadline vaultDeadline).execute (r.fetcher.fetch (some deadline) (some vaultDeadline))
    (some deadline) intent

/-- A login with the one deadline. -/
def execute [DecidableEq τ] (intent : LoginIntent) : Audited σ BrokerResult :=
  r.executeWith r.deadline r.deadline intent

end Runtime
end Runtime
end BrokerRuntime
end CloudBrowser
