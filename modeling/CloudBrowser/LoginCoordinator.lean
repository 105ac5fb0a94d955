import CloudBrowser.GrantCustody
import CloudBrowser.IdempotentStore
import Mathlib.Algebra.Order.Ring.Rat
import Mathlib.Algebra.Order.Group.Unbundled.Basic

/-! The coordinator of a broker login: five stages over the services that it is given, and
the `except` clauses that answer what the services raise. -/
namespace CloudBrowser
namespace LoginCoordinator

open Stateful
open GrantCustody (boundedText)
open Idempotency (BrokerResult brokerStatusValues errorBounded)

/-- The exceptions that the services raise, with their messages. `GrantRevoked` and
`AuthorizationChanged` are `LookupError`s, `BindingMismatch` and `StaleBinding` are
`ValueError`s. -/
inductive Raised
  | lookupError (message : String)
  | grantRevoked (message : String)
  | authorizationChanged (message : String)
  | valueError (message : String)
  | bindingMismatch (message : String)
  | staleBinding (message : String)
  | deadlineExceeded (message : String)
  | browserUnavailable (message : String)
  | dependencyUnavailable (message : String)
  | grantMaterial (message : String)
  | grantCustody (message : String)
  deriving DecidableEq, Repr

/-- An operation of a service, over a state of its own. -/
abbrev Operation (σ α : Type) := Op Raised σ α

section Contracts

structure LoginIntent where
  requestId : String
  profileId : String
  principalId : String
  browserId : String
  siteId : String
  targetTabId : Option String := none
  bindingGeneration : Option String := none
  deriving DecidableEq, Repr

structure ResolvedBinding where
  profileId : String
  principalId : String
  browserId : String
  siteId : String
  generation : String
  revoked : Bool := false
  deriving DecidableEq, Repr

structure GrantAuthorization where
  usernameRef : String
  profileId : String
  principalId : String
  browserId : String
  generation : String
  siteId : String
  targetTabId : String
  epoch : ℕ := 1
  epoch_pos : 0 < epoch
  bounded : [usernameRef,profileId,principalId,browserId,generation,siteId,targetTabId].all boundedText = true
  deriving DecidableEq

/-- The authorization names the complete live scope. -/
def GrantAuthorization.matches (a : GrantAuthorization) (binding : ResolvedBinding)
    (siteId targetTabId : String) : Bool :=
  binding.profileId = a.profileId && binding.principalId = a.principalId &&
    binding.browserId = a.browserId && binding.generation = a.generation &&
    binding.siteId = a.siteId && a.siteId = siteId && a.targetTabId = targetTabId

def errorCodeChars : List Char :=
  "abcdefghijklmnopqrstuvwxyzABCDEFGHIJKLMNOPQRSTUVWXYZ0123456789_-".toList

structure AdapterResult where
  status : String
  identityVerified : Bool
  errorCode : Option String := none
  status_known : status ∈ brokerStatusValues
  errorCode_bounded : errorBounded errorCode = true
  errorCode_plain : (errorCode.all fun e => e.toList.all (· ∈ errorCodeChars)) = true

instance : DecidableEq AdapterResult := fun r r' =>
  decidable_of_iff (r.status = r'.status ∧ r.identityVerified = r'.identityVerified ∧
      r.errorCode = r'.errorCode) <| by
    cases r
    cases r'
    simp

/-- A result without a duration, as the coordinator makes them. -/
def result (intent : LoginIntent) (status errorCode : String) (hs : status ∈ brokerStatusValues := by decide)
    (he : errorBounded (some errorCode) = true := by decide) : BrokerResult where
  requestId := intent.requestId
  status := status
  errorCode := some errorCode
  status_known := hs
  durationMs_nonneg := Idempotency.durationMs_default
  errorCode_bounded := he

/-- `result_from_adapter`; the status of an adapter result is always a known one. -/
def resultFromAdapter (requestId : String) (outcome : AdapterResult) : BrokerResult :=
  if outcome.status = "authenticated" ∧ ¬outcome.identityVerified then
    { requestId := requestId
      status := "failed"
      errorCode := some (outcome.errorCode.getD "identity_unverified")
      status_known := by decide
      durationMs_nonneg := Idempotency.durationMs_default
      errorCode_bounded := by
        have hbounded := outcome.errorCode_bounded
        cases h : outcome.errorCode with
        | none => decide
        | some e => rwa [h] at hbounded }
  else
    { requestId := requestId
      status := outcome.status
      errorCode := outcome.errorCode
      status_known := outcome.status_known
      durationMs_nonneg := Idempotency.durationMs_default
      errorCode_bounded := outcome.errorCode_bounded }

end Contracts

section Deadline

variable {σ α : Type}

/-- One absolute deadline, and the clock that it is read by. -/
structure BrokerDeadline (σ : Type) where
  expiresAt : Time
  monotonicClock : StateM σ Time

def BrokerDeadline.remaining (d : BrokerDeadline σ) : Operation σ Time := do
  let now ← (d.monotonicClock : StateM σ Time)
  return max 0 (d.expiresAt - now)

def BrokerDeadline.check (d : BrokerDeadline σ) : Operation σ Time := do
  let remaining ← d.remaining
  if remaining ≤ 0 then throw (.deadlineExceeded "broker deadline expired")
  return remaining

theorem exec_remaining (d : BrokerDeadline σ) (s : σ) :
    exec d.remaining s = (.ok (max 0 (d.expiresAt - (d.monotonicClock.run s).1)),
      (d.monotonicClock.run s).2) := rfl

theorem exec_deadlineCheck (d : BrokerDeadline σ) (s : σ) :
    exec d.check s = if d.expiresAt ≤ (d.monotonicClock.run s).1 then
        (.error (.deadlineExceeded "broker deadline expired"),(d.monotonicClock.run s).2)
      else (.ok (d.expiresAt - (d.monotonicClock.run s).1),(d.monotonicClock.run s).2) := by
  simp only [BrokerDeadline.check,exec_bind,exec_remaining]
  by_cases h : d.expiresAt ≤ (d.monotonicClock.run s).1
  · have hle : max 0 (d.expiresAt - (d.monotonicClock.run s).1) ≤ 0 :=
      max_le (le_refl 0) (sub_nonpos.mpr h)
    rw [if_pos hle,if_pos h]
    rfl
  · have hlt : 0 < d.expiresAt - (d.monotonicClock.run s).1 := sub_pos.mpr (not_le.mp h)
    rw [max_eq_right hlt.le,if_neg (not_le.mpr hlt),if_neg h]
    rfl

/-- `deadline.check()`, of a call that has a deadline. -/
def checkDeadline : Option (BrokerDeadline σ) → Operation σ Unit
  | none => pure ()
  | some deadline => do
    let _ ← deadline.check

def invokeWithDeadline (deadline : Option (BrokerDeadline σ)) (call : Operation σ α) : Operation σ α := do
  checkDeadline deadline
  call

end Deadline

section Service

variable {σ δ τ : Type}

/-- What the service is made of. A preflight answers with its proof, or with `False`. -/
structure BrokerService (σ δ τ : Type) where
  bindingResolver : LoginIntent → Operation σ ResolvedBinding
  declarations : String → Option δ
  grantResolver : ResolvedBinding → String → String → Operation σ GrantAuthorization
  targetPreflight : LoginIntent → δ → Operation σ (Option τ)

def validateBinding (intent : LoginIntent) (binding : ResolvedBinding) : Except Raised Unit :=
  if binding.revoked then .error (.lookupError "grant revoked")
  else if binding.profileId ≠ intent.profileId ∨ binding.principalId ≠ intent.principalId ∨
      binding.browserId ≠ intent.browserId ∨ binding.siteId ≠ intent.siteId then
    .error (.bindingMismatch "intent binding mismatch")
  else match intent.bindingGeneration with
    | none => .ok ()
    | some requested =>
      if requested ≠ binding.generation then .error (.staleBinding "binding generation mismatch")
      else .ok ()

namespace BrokerService

variable (s : BrokerService σ δ τ) (deadline : Option (BrokerDeadline σ)) (intent : LoginIntent)

def resolveBinding : Operation σ ResolvedBinding := do
  let binding ← invokeWithDeadline deadline (s.bindingResolver intent)
  check (validateBinding intent binding)
  return binding

def preflightTarget (declaration : δ) : Operation σ τ := do
  match ← invokeWithDeadline deadline (s.targetPreflight intent declaration) with
  | none => throw (.valueError "target preflight rejected the actual target")
  | some proof => do
    checkDeadline deadline
    return proof

def resolveGrant (binding : ResolvedBinding) : Operation σ GrantAuthorization := do
  let targetTabId := intent.targetTabId.getD ""
  if targetTabId = "" then throw (.valueError "target_tab_id is required")
  let authorization ← invokeWithDeadline deadline (s.grantResolver binding intent.siteId targetTabId)
  if !authorization.matches binding intent.siteId targetTabId then
    throw (.bindingMismatch "grant authorization binding mismatch")
  return authorization

def recheckGrant : Operation σ GrantAuthorization := do
  let currentBinding ← s.resolveBinding deadline intent
  s.resolveGrant deadline intent currentBinding

/-- A declaration, or the result that refuses the intent. -/
def validateIntent : Operation σ (BrokerResult ⊕ δ) :=
  tryCatch (do
    let _ ← s.resolveBinding deadline intent
    match s.declarations intent.siteId with
    | none => return .inl (result intent "unsupported" "site_not_declared")
    | some declaration => return .inr declaration) fun
    | .bindingMismatch _ => return .inl (result intent "failed" "binding_mismatch")
    | .staleBinding _ => return .inl (result intent "failed" "stale_binding")
    | .lookupError message => return .inl (notShared message)
    | .grantRevoked message => return .inl (notShared message)
    | .authorizationChanged message => return .inl (notShared message)
    | .browserUnavailable _ => return .inl (result intent "failed" "browser_unavailable")
    | .dependencyUnavailable _ => return .inl (result intent "failed" "browser_unavailable")
    | e => throw e
where
  notShared (message : String) : BrokerResult :=
    if message = "grant revoked" then result intent "not_shared" "grant_revoked"
    else result intent "not_shared" "binding_unavailable"

end BrokerService
end Service

section Audit

inductive AuditEventType
  | brokerLogin
  | brokerLoginFailed
  | brokerMfaRequested
  | brokerMfaResolved
  | brokerRevoked
  | brokerOwnerMismatch
  deriving DecidableEq, Repr

/-- What the coordinator hands to the audit emitter. -/
structure AuditEvent where
  eventType : AuditEventType
  requestId : String
  ownerId : String
  outcome : String
  errorCode : Option String
  deriving DecidableEq, Repr

/-- The services' state, and what has been emitted. -/
structure World (σ : Type) where
  services : σ
  emitted : List AuditEvent

abbrev Audited (σ α : Type) := Op Raised (World σ) α

variable {σ : Type} (intent : LoginIntent)

/-- `_audit`, with the outcome and the error code of the result. -/
def audit (eventType : AuditEventType) (r : BrokerResult) : Audited σ Unit :=
  modify fun w => { w with
    emitted := w.emitted ++ [⟨eventType,intent.requestId,intent.principalId,r.status,r.errorCode⟩] }

/-- Emit an event about the result, and return it. -/
def answer (eventType : AuditEventType) (r : BrokerResult) : Audited σ BrokerResult := do
  audit intent eventType r
  return r

/-- `_fail`. -/
def fail (errorCode : String) (he : errorBounded (some errorCode) = true := by decide) : Audited σ BrokerResult :=
  answer intent .brokerLoginFailed (result intent "failed" errorCode (by decide) he)

/-- `_fail(…, owner_mismatch=True)`. -/
def failOwnerMismatch : Audited σ BrokerResult :=
  answer intent .brokerOwnerMismatch (result intent "failed" "binding_mismatch")

def notShared (message : String) : Audited σ BrokerResult :=
  answer intent .brokerRevoked
    (if message = "grant revoked" then result intent "not_shared" "grant_revoked"
    else result intent "not_shared" "grant_unavailable")

def resultEvent (r : BrokerResult) : AuditEventType :=
  if r.status = "mfa_required" then .brokerMfaRequested
  else if r.status = "authenticated" then .brokerLogin
  else .brokerLoginFailed

/-- `_audit_result`, before the result is returned. -/
def answerResult (r : BrokerResult) : Audited σ BrokerResult := answer intent (resultEvent r) r

end Audit

section Coordinator

variable {σ δ τ μ α : Type}

/-- Holds one grant through the operation that it is given, and may supply its material. -/
structure AuthorizationGate (σ μ : Type) where
  suppliesMaterial : Bool
  runAuthorized : GrantAuthorization → (Option μ → Operation σ AdapterResult) → Operation σ AdapterResult

structure BrokerCoordinator (σ δ τ μ : Type) where
  service : BrokerService σ δ τ
  resolvePreFill : LoginIntent → Operation σ ResolvedBinding
  adapterSelector : String → δ → LoginIntent → Operation σ (δ → Option μ → Operation σ AdapterResult)
  authorizationGate : Option (AuthorizationGate σ μ)

/-- `try` around the services: go on with what they return, or answer what they raise by the
first clause for it. -/
def attempt (body : Operation σ α) (clauses : Raised → Option (Audited σ BrokerResult))
    (rest : α → Audited σ BrokerResult) : Audited σ BrokerResult := do
  match ← focus World.services (fun w s => { w with services := s }) (outcome body) with
  | .ok x => rest x
  | .error e => (clauses e).getD (throw e)

section Clauses

variable (intent : LoginIntent)

/-- The clauses around the validation and around the fetch. -/
def dependencyClauses : Raised → Option (Audited σ BrokerResult)
  | .deadlineExceeded _ => some (fail intent "deadline_exceeded")
  | .browserUnavailable _ => some (fail intent "browser_unavailable")
  | .dependencyUnavailable _ => some (fail intent "dependency_unavailable")
  | _ => none

/-- The clauses around the two resolutions of binding, target and grant. -/
def resolveClauses : Raised → Option (Audited σ BrokerResult)
  | .bindingMismatch _ => some (failOwnerMismatch intent)
  | .staleBinding _ => some (fail intent "stale_binding")
  | .lookupError message => some (notShared intent message)
  | .grantRevoked message => some (notShared intent message)
  | .authorizationChanged message => some (notShared intent message)
  | .valueError _ => some (fail intent "invalid_target")
  | .deadlineExceeded _ => some (fail intent "deadline_exceeded")
  | .browserUnavailable _ => some (fail intent "browser_unavailable")
  | .dependencyUnavailable _ => some (fail intent "dependency_unavailable")
  | _ => none

/-- The clauses around the adapter. -/
def adapterClauses : Raised → Option (Audited σ BrokerResult)
  | .authorizationChanged _ => some (fail intent "grant_changed")
  | .lookupError message => some (notShared intent message)
  | .grantRevoked message => some (notShared intent message)
  | .valueError _ => some (answerResult intent (result intent "failed" "adapter_invalid_target"))
  | .bindingMismatch _ => some (answerResult intent (result intent "failed" "adapter_invalid_target"))
  | .staleBinding _ => some (answerResult intent (result intent "failed" "adapter_invalid_target"))
  | .deadlineExceeded _ => some (answerResult intent (result intent "failed" "deadline_exceeded"))
  | .browserUnavailable _ => some (answerResult intent (result intent "failed" "browser_unavailable"))
  | .dependencyUnavailable _ =>
    some (answerResult intent (result intent "failed" "dependency_unavailable"))
  | _ => none

end Clauses

namespace BrokerCoordinator

variable [DecidableEq τ] (c : BrokerCoordinator σ δ τ μ) (fetchCredentials : String → Operation σ μ)
  (deadline : Option (BrokerDeadline σ)) (intent : LoginIntent)

def validate : Operation σ (BrokerResult ⊕ δ) := do
  checkDeadline deadline
  c.service.validateIntent deadline intent

/-- `_revalidate_grant_before_fetch`. -/
def revalidateGrantBeforeFetch (initialGrant : GrantAuthorization) : Operation σ Bool := do
  let currentGrant ← c.service.recheckGrant deadline intent
  return currentGrant = initialGrant

/-- The target and the grant before the fetch, unless the grant has changed already. -/
def resolve (declaration : δ) : Operation σ (Option (τ × GrantAuthorization)) := do
  let initialBinding ← c.service.resolveBinding deadline intent
  let initialTarget ← c.service.preflightTarget deadline intent declaration
  let initialGrant ← c.service.resolveGrant deadline intent initialBinding
  if ← c.revalidateGrantBeforeFetch deadline intent initialGrant then
    return some (initialTarget,initialGrant)
  else return none

def gateSuppliesMaterial : Bool := c.authorizationGate.any (·.suppliesMaterial)

/-- The material, unless it is the gate that supplies it. -/
def fetch (initialGrant : GrantAuthorization) : Operation σ (Option μ) :=
  if c.gateSuppliesMaterial then pure none
  else do
    let material ← invokeWithDeadline deadline (fetchCredentials initialGrant.usernameRef)
    return some material

/-- What the second resolution finds changed before the fill. -/
inductive Changed
  | grant
  | target

def recheck (declaration : δ) (initialTarget : τ) (initialGrant : GrantAuthorization) :
    Operation σ (Option Changed) := do
  let currentBinding ← invokeWithDeadline deadline (c.resolvePreFill intent)
  check (validateBinding intent currentBinding)
  let currentTarget ← c.service.preflightTarget deadline intent declaration
  let currentGrant ← c.service.resolveGrant deadline intent currentBinding
  if currentGrant ≠ initialGrant then return some .grant
  if currentTarget ≠ initialTarget then return some .target
  return none

def runAdapter (declaration : δ) (initialGrant : GrantAuthorization) (material : Option μ) :
    Operation σ BrokerResult := do
  let adapter ← invokeWithDeadline deadline (c.adapterSelector intent.siteId declaration intent)
  let run (gatedMaterial : Option μ) : Operation σ AdapterResult :=
    invokeWithDeadline deadline (adapter declaration gatedMaterial)
  let outcome ← match c.authorizationGate with
    | none => run material
    | some gate =>
      if gate.suppliesMaterial then invokeWithDeadline deadline (gate.runAuthorized initialGrant run)
      else invokeWithDeadline deadline (gate.runAuthorized initialGrant fun _ => run material)
  return resultFromAdapter intent.requestId outcome

/-- `execute`, in production mode. -/
def execute : Audited σ BrokerResult :=
  attempt (c.validate deadline intent) (dependencyClauses intent) fun
    | .inl refusal => answerResult intent refusal
    | .inr declaration =>
      attempt (c.resolve deadline intent declaration) (resolveClauses intent) fun
        | none => fail intent "grant_changed"
        | some (initialTarget,initialGrant) =>
          attempt (c.fetch fetchCredentials deadline initialGrant) (dependencyClauses intent) fun material =>
            attempt (c.recheck deadline intent declaration initialTarget initialGrant) (resolveClauses intent) fun
              | some .grant => fail intent "grant_changed"
              | some .target => fail intent "target_changed"
              | none =>
                attempt (c.runAdapter deadline intent declaration initialGrant material) (adapterClauses intent)
                  (answerResult intent)

end BrokerCoordinator
end Coordinator

section Answers

variable {σ δ τ μ α : Type} {w : World σ}

/-- The operation returns a result, and has emitted one event, with the status and the error
code of that result. -/
def AnswersOnce (m : Audited σ BrokerResult) (w : World σ) : Prop :=
  ∃ r s event, exec m w = (.ok r,⟨s,w.emitted ++ [event]⟩) ∧
    event.outcome = r.status ∧ event.errorCode = r.errorCode

theorem answer_once (intent : LoginIntent) (eventType : AuditEventType) (r : BrokerResult) (w : World σ) :
    AnswersOnce (answer intent eventType r) w :=
  ⟨r,w.services,_,rfl,rfl,rfl⟩

theorem exec_attempt (body : Operation σ α) (clauses : Raised → Option (Audited σ BrokerResult))
    (rest : α → Audited σ BrokerResult) (w : World σ) :
    exec (attempt body clauses rest) w = match exec body w.services with
      | (.ok x,s) => exec (rest x) { w with services := s }
      | (.error e,s) => exec ((clauses e).getD (throw e)) { w with services := s } := by
  rw [attempt,exec_bind]
  simp only [exec_focus,exec_outcome]
  rcases exec body w.services with ⟨_ | _,s⟩ <;> rfl

/-- What is raised past the clauses is not answered; the rest is answered by its clause, or by
what comes after. -/
theorem answersOnce_attempt {body : Operation σ α} {clauses : Raised → Option (Audited σ BrokerResult)}
    {rest : α → Audited σ BrokerResult} (hc : ∀ e m, clauses e = some m → ∀ w, AnswersOnce m w) :
    AnswersOnce (attempt body clauses rest) w ↔ match exec body w.services with
      | (.ok x,s) => AnswersOnce (rest x) { w with services := s }
      | (.error e,_) => (clauses e).isSome = true := by
  unfold AnswersOnce
  rw [exec_attempt]
  rcases exec body w.services with ⟨e | x,s⟩
  · dsimp only
    cases h : clauses e with
    | none =>
      constructor
      · rintro ⟨r,s',event,hr,-,-⟩
        cases hr
      · intro h
        cases h
    | some m => simpa [AnswersOnce] using hc e m h { w with services := s }
  · exact Iff.rfl

theorem answerResult_once (intent : LoginIntent) (r : BrokerResult) (w : World σ) :
    AnswersOnce (answerResult intent r) w := answer_once intent _ r w

theorem fail_once (intent : LoginIntent) {errorCode : String} (he : errorBounded (some errorCode) = true)
    (w : World σ) : AnswersOnce (fail intent errorCode he) w := answer_once intent _ _ w

theorem dependencyClauses_once (intent : LoginIntent) :
    ∀ e m, dependencyClauses intent e = some m → ∀ w : World σ, AnswersOnce m w := by
  intro e m hm w
  cases e <;> cases hm <;> exact answer_once _ _ _ _

theorem resolveClauses_once (intent : LoginIntent) :
    ∀ e m, resolveClauses intent e = some m → ∀ w : World σ, AnswersOnce m w := by
  intro e m hm w
  cases e <;> cases hm <;> exact answer_once _ _ _ _

theorem adapterClauses_once (intent : LoginIntent) :
    ∀ e m, adapterClauses intent e = some m → ∀ w : World σ, AnswersOnce m w := by
  intro e m hm w
  cases e <;> cases hm <;> exact answer_once _ _ _ _

inductive Stage
  | validate
  | resolve
  | fetch
  | recheck
  | adapter
  deriving DecidableEq, Repr

/-- The exceptions that no clause around the stage names: missing grant material and a custody
failure in all of them; a bad value while validating; and whatever a lookup or a check raises
while fetching. -/
def Stage.misses : Stage → Raised → Bool
  | _, .grantMaterial _ => true
  | _, .grantCustody _ => true
  | .validate, .valueError _ => true
  | .fetch, .lookupError _ => true
  | .fetch, .grantRevoked _ => true
  | .fetch, .authorizationChanged _ => true
  | .fetch, .valueError _ => true
  | .fetch, .bindingMismatch _ => true
  | .fetch, .staleBinding _ => true
  | _, _ => false

theorem dependencyClauses_isSome (intent : LoginIntent) (e : Raised) :
    (dependencyClauses (σ:=σ) intent e).isSome = !Stage.fetch.misses e := by
  cases e <;> rfl

theorem resolveClauses_isSome (intent : LoginIntent) (e : Raised) (stage : Stage)
    (hs : stage = .resolve ∨ stage = .recheck) :
    (resolveClauses (σ:=σ) intent e).isSome = !stage.misses e := by
  rcases hs with rfl | rfl <;> cases e <;> rfl

theorem adapterClauses_isSome (intent : LoginIntent) (e : Raised) :
    (adapterClauses (σ:=σ) intent e).isSome = !Stage.adapter.misses e := by
  cases e <;> rfl

variable (c : BrokerCoordinator σ δ τ μ) (fetchCredentials : String → Operation σ μ)
  (deadline : Option (BrokerDeadline σ)) (intent : LoginIntent)

theorem checkDeadline_error {s s' : σ} {e : Raised} (h : exec (checkDeadline deadline) s = (.error e,s')) :
    e = .deadlineExceeded "broker deadline expired" := by
  cases deadline with
  | none => cases h
  | some d =>
    simp only [checkDeadline,exec_bind,exec_deadlineCheck] at h
    by_cases hpassed : d.expiresAt ≤ (d.monotonicClock.run s).1
    · rw [if_pos hpassed] at h
      cases h
      rfl
    · rw [if_neg hpassed] at h
      cases h

/-- The service answers for itself what the clauses around the validation do not name, but a bad
value and a custody failure. -/
theorem validate_error {s s' : σ} {e : Raised} (h : exec (c.validate deadline intent) s = (.error e,s')) :
    (dependencyClauses (σ:=σ) intent e).isSome = !Stage.validate.misses e := by
  rw [BrokerCoordinator.validate,exec_bind] at h
  rcases hd : exec (checkDeadline deadline) s with ⟨e' | _,s₁⟩
  · rw [hd] at h
    cases h
    rw [checkDeadline_error deadline hd]
    rfl
  · rw [hd] at h
    dsimp only at h
    rw [BrokerService.validateIntent,exec_tryCatch] at h
    split at h
    · cases h
    · rename_i e' s₂ _
      cases e' <;> cases h <;> rfl

variable [DecidableEq τ]

/-- The stage at which the run of the stages stops by an exception, and the exception. -/
def BrokerCoordinator.raisedAt (s : σ) : Option (Stage × Raised) :=
  match exec (c.validate deadline intent) s with
  | (.error e,_) => some (.validate,e)
  | (.ok (.inl _),_) => none
  | (.ok (.inr declaration),s) =>
    match exec (c.resolve deadline intent declaration) s with
    | (.error e,_) => some (.resolve,e)
    | (.ok none,_) => none
    | (.ok (some (initialTarget,initialGrant)),s) =>
      match exec (c.fetch fetchCredentials deadline initialGrant) s with
      | (.error e,_) => some (.fetch,e)
      | (.ok material,s) =>
        match exec (c.recheck deadline intent declaration initialTarget initialGrant) s with
        | (.error e,_) => some (.recheck,e)
        | (.ok (some _),_) => none
        | (.ok none,s) =>
          match exec (c.runAdapter deadline intent declaration initialGrant material) s with
          | (.error e,_) => some (.adapter,e)
          | (.ok _,_) => none

/-- A login is answered, and its answer emitted once, exactly if no stage of it stops by an
exception that the stage's clauses miss. -/
theorem answersOnce_iff (w : World σ) :
    AnswersOnce (c.execute fetchCredentials deadline intent) w ↔
      ∀ stage e, c.raisedAt fetchCredentials deadline intent w.services = some (stage,e) →
        stage.misses e = false := by
  rw [BrokerCoordinator.execute,BrokerCoordinator.raisedAt,answersOnce_attempt (dependencyClauses_once intent)]
  rcases hv : exec (c.validate deadline intent) w.services with ⟨e | refusal | declaration,s₁⟩
  · simp [validate_error c deadline intent hv]
  · simp [answerResult_once]
  dsimp only
  rw [answersOnce_attempt (resolveClauses_once intent)]
  rcases exec (c.resolve deadline intent declaration) s₁ with ⟨e | _ | ⟨initialTarget,initialGrant⟩,s₂⟩
  · simp [resolveClauses_isSome intent e .resolve (.inl rfl)]
  · simp [fail_once]
  dsimp only
  rw [answersOnce_attempt (dependencyClauses_once intent)]
  rcases exec (c.fetch fetchCredentials deadline initialGrant) s₂ with ⟨e | material,s₃⟩
  · simp [dependencyClauses_isSome intent e]
  dsimp only
  rw [answersOnce_attempt (resolveClauses_once intent)]
  rcases exec (c.recheck deadline intent declaration initialTarget initialGrant) s₃ with
    ⟨e | _ | changed,s₄⟩
  · simp [resolveClauses_isSome intent e .recheck (.inr rfl)]
  · dsimp only
    rw [answersOnce_attempt (adapterClauses_once intent)]
    rcases exec (c.runAdapter deadline intent declaration initialGrant material) s₄ with ⟨e | r,s₅⟩
    · simp [adapterClauses_isSome intent e]
    · simp [answerResult_once]
  · cases changed <;> simp [fail_once]

end Answers

section BindingProvider

structure LiveBrowserBinding where
  profileId : String
  principalId : String
  browserId : String
  generation : String
  deriving DecidableEq, Repr

/-- Resolves the live binding of the browser that serves one site; the browser may be without a
live binding, or answer something that is none. -/
structure BrowserBindingProvider (σ : Type) where
  browserFactory : Operation σ (Option (Operation σ (Option LiveBrowserBinding)))
  siteId : String
  siteId_bounded : boundedText siteId = true

def requiredBindingText (value name : String) : Except Raised String :=
  if boundedText value then .ok value else .error (.valueError (name ++ " is invalid"))

variable {σ δ τ μ : Type}

def BrowserBindingProvider.resolve (p : BrowserBindingProvider σ) (deadline : Option (BrokerDeadline σ))
    (intent : LoginIntent) : Operation σ ResolvedBinding := do
  checkDeadline deadline
  if intent.siteId ≠ p.siteId then throw (.valueError "site binding is not configured")
  match ← invokeWithDeadline deadline p.browserFactory with
  | none => throw (.browserUnavailable "browser live binding is unavailable")
  | some liveBinding =>
    match ← invokeWithDeadline deadline liveBinding with
    | none => throw (.browserUnavailable "browser live binding is unavailable")
    | some observed => do
      checkDeadline deadline
      let profileId ← check (requiredBindingText observed.profileId "profile_id")
      let principalId ← check (requiredBindingText observed.principalId "principal_id")
      let browserId ← check (requiredBindingText observed.browserId "browser_id")
      let generation ← check (requiredBindingText observed.generation "generation")
      return { profileId, principalId, browserId, siteId := p.siteId, generation }

/-- The site that a browser serves, and a coordinator of logins to it. -/
def siteA : BrowserBindingProvider Unit where
  browserFactory := pure (some (pure (some ⟨"profile-a","alice","browser-a","generation-a"⟩)))
  siteId := "site-a"
  siteId_bounded := by decide

def coordinatorA : BrokerCoordinator Unit Unit Unit Unit where
  service :=
    { bindingResolver := siteA.resolve none
      declarations := fun siteId => if siteId = "site-a" then some () else none
      grantResolver := fun _ _ _ => throw (.lookupError "grant unavailable")
      targetPreflight := fun _ _ => return some () }
  resolvePreFill := siteA.resolve none
  adapterSelector := fun _ _ _ => throw (.browserUnavailable "browser readiness is unavailable")
  authorizationGate := none

/-- A login to another site than the browser's is not answered. -/
theorem other_site_unanswered : ¬∀ (c : BrokerCoordinator Unit Unit Unit Unit)
    (fetchCredentials : String → Operation Unit Unit) (deadline : Option (BrokerDeadline Unit))
    (intent : LoginIntent) (w : World Unit),
    AnswersOnce (c.execute fetchCredentials deadline intent) w := by
  intro h
  obtain ⟨r,s,event,hr,-,-⟩ := h coordinatorA (fun _ => pure ()) none
    { requestId := "request-a", profileId := "profile-a", principalId := "alice",
      browserId := "browser-a", siteId := "site-b", targetTabId := some "tab" } ⟨(),[]⟩
  cases hr

end BindingProvider
end LoginCoordinator
end CloudBrowser
