import CloudBrowser.GrantLedger
import CloudBrowser.RelyGuarantee
import CloudBrowser.VaultItems

/-! The credential fetcher of the broker: what a call does to the vault and to the custody
tables, step by step, beside other calls and the administrators' transactions. -/
namespace CloudBrowser
namespace CredentialFetcher

open Interleave GrantCustody VaultItems

/-- The grant that a login was authorised with, as `resolve` found it. -/
structure GrantAuthorization where
  usernameRef : String
  scope : GrantScope
  epoch : ℕ
  epoch_pos : 0 < epoch
  usernameRef_bounded : boundedText usernameRef = true

instance : DecidableEq GrantAuthorization := fun a a' =>
  decidable_of_iff (a.usernameRef = a'.usernameRef ∧ a.scope = a'.scope ∧ a.epoch = a'.epoch) <| by
    cases a
    cases a'
    simp

def GrantAuthorization.build (usernameRef : String) (scope : GrantScope) (epoch : ℕ) :
    Except CustodyError GrantAuthorization :=
  if he : 0 < epoch then
    if hr : boundedText usernameRef = true then .ok ⟨usernameRef,scope,epoch,he,hr⟩
    else .error (.valueError "username_ref must be bounded non-empty text")
  else .error (.valueError "epoch must be a non-negative integer")

/-- `resolve`, for the scope of the binding. -/
def resolve (db : Database) (scope : GrantScope) : Except CustodyError GrantAuthorization :=
  match db.ofScope scope with
  | none => .error (.lookupError "grant unavailable")
  | some row =>
    if !row.active then .error (.lookupError "grant revoked")
    else if row.scope.browserId ≠ scope.browserId ∨ row.scope.generation ≠ scope.generation then
      .error (.lookupError "grant unavailable")
    else GrantAuthorization.build (grantRef row.grantId) scope row.epoch

/-- An answer of the vault: its status, and its body where that is JSON. -/
structure Response where
  status : ℕ
  body : Option Json

/-- The steps of a call that others can see or interfere with. -/
inductive Action
  | selectAuthorization (scope : GrantScope)
  | selectScope (grantId : GrantId)
  | beginImmediate
  | checkout (ref : String)
  | recheck (lease : GrantLease)
  | deadline (expiresAt : Time)
  | postToken (lease : GrantLease)
  | getSync (lease : GrantLease) (accessToken : String)
  | rotate (lease : GrantLease) (token : Bytes)
  | invalidate (lease : GrantLease)
  | commit
  | rollback
  | startOperation (authorization : GrantAuthorization) (material : CredentialMaterial)
  | endOperation (authorization : GrantAuthorization)
  deriving DecidableEq

@[reducible] def Answer (ρ : Type) : Action → Type
  | .selectAuthorization _ => GrantAuthorization
  | .checkout _ => GrantLease
  | .postToken _ => Response
  | .getSync _ _ => Response
  | .endOperation _ => ρ
  | _ => Unit

section Calls

variable {ρ : Type}

abbrev Call (ρ α : Type) := Program Action (Answer ρ) CustodyError α

abbrev perform (a : Action) : Call ρ (Answer ρ a) := Program.perform a

/-- `deadline.check()`, of a call that has a deadline. -/
def checkDeadline : Option Time → Call ρ Unit
  | none => pure ()
  | some expiresAt => perform (.deadline expiresAt)

/-- `OSError`, `TimeoutError` and `ValueError`; the broker's own deadline is a `TimeoutError`. -/
def isTransportError : CustodyError → Bool
  | .osError => true
  | .deadlineExceeded => true
  | .valueError _ => true
  | _ => false

def asDependency (e : CustodyError) : Call ρ Response :=
  if isTransportError e then throw .dependencyUnavailable else throw e

/-- `_call`: send one request to the vault, within the deadline. -/
def callVault (deadline : Option Time) (send : Call ρ Response) : Call ρ Response :=
  Program.tryCatch (do
    checkDeadline deadline
    let response ← send
    checkDeadline deadline
    return response) asDependency

/-- The vault refused the session leg: erase the grant for good, and fail. The commit is of
the write transaction of the call; a call without one has none to make. -/
def reject {α : Type} (lease : GrantLease) : Call ρ α := do
  perform (.invalidate lease)
  perform .commit
  throw .grantRevoked

/-- The `refresh_token` field of a token answer. -/
def rotatedToken : Json → Except CustodyError (Option Bytes)
  | .null => .ok none
  | .str s => do
    validateRefreshToken (Text.encodeUtf8 s)
    return some (Text.encodeUtf8 s)
  | _ => .error .dependencyUnavailable

def mintSession (lease : GrantLease) (deadline : Option Time) : Call ρ (String × Option Bytes) := do
  Program.ofExcept (match Text.decodeUtf8 lease.refreshToken with
    | some _ => .ok ()
    | none => .error (.valueError "utf-8"))
  let response ← callVault deadline (perform (.postToken lease))
  if response.status = 400 ∨ response.status = 401 then reject lease
  else if response.status ≠ 200 then throw .dependencyUnavailable
  else match response.body with
    | some (.obj document) =>
      match Json.get document "access_token" with
      | .str access =>
        if access = "" then reject lease
        else do
          let rotated ← Program.ofExcept (rotatedToken (Json.get document "refresh_token"))
          return (access,rotated)
      | _ => reject lease
    | _ => throw .dependencyUnavailable

-- nothing sets the rotated token of a lease, so `_take_rotated_refresh_token` finds none
def sync (accessToken : String) (lease : GrantLease) (deadline : Option Time) :
    Call ρ (List (String × Json)) := do
  perform (.recheck lease)
  let response ← callVault deadline (perform (.getSync lease accessToken))
  if response.status = 401 then reject lease
  else if response.status ≠ 200 then throw .dependencyUnavailable
  else match response.body with
    | some (.obj document) => return document
    | _ => throw .dependencyUnavailable

/-- Store a token that the vault rotated, unless it is the one already checked out. -/
def storeRotated (lease : GrantLease) : Option Bytes → Call ρ Unit
  | none => pure ()
  | some token => if token ≠ lease.refreshToken then perform (.rotate lease token) else pure ()

section Material

-- what the vault's answer to a sync holds for an item reference and a vault key
variable (decryptItem : List (String × Json) → String → Bytes → Except CustodyError CredentialMaterial)

/-- The part that `fetch` and `run_authorized` share. -/
def leaseMaterial (lease : GrantLease) (deadline : Option Time) : Call ρ CredentialMaterial := do
  perform (.recheck lease)
  let (token,rotated) ← mintSession lease deadline
  perform (.recheck lease)
  let document ← sync token lease deadline
  perform (.recheck lease)
  storeRotated lease rotated
  perform (.recheck lease)
  let material ← Program.ofExcept (decryptItem document lease.itemRef lease.vaultKey)
  perform (.recheck lease)
  return material

def fetch (ref : String) (deadline : Option Time) : Call ρ CredentialMaterial := do
  let lease ← perform (.checkout ref)
  checkDeadline deadline
  leaseMaterial decryptItem lease deadline

/-- `sqlite3.OperationalError` of a gated call: the deadline, if that is what ran out. -/
def asCustody {α : Type} (deadline : Option Time) : CustodyError → Call ρ α
  | .sqliteOperational => do
    checkDeadline deadline
    throw (.grantCustody "grant custody store is unavailable")
  | e => throw e

/-- The transaction of `authorized_operation`. After `commit_invalidation` there is none left
and the rollback does nothing. -/
def gated {α : Type} (ref : String) (body : GrantLease → Call ρ α) : Call ρ α :=
  Program.tryCatch (do
    perform .beginImmediate
    let lease ← perform (.checkout ref)
    let result ← body lease
    perform .commit
    return result) fun e => do
      perform .rollback
      throw e

/-- `authorized_operation` around a body. The lock of the scope is not modelled: it only
keeps calls of one process apart. The checks before the transaction are those of the lock
and of the connection. -/
def authorizedOperation {α : Type} (ref : String) (deadline : Option Time)
    (body : GrantLease → Call ρ α) : Call ρ α := do
  let grantId ← Program.ofExcept (parseGrantRef ref)
  perform (.selectScope grantId)
  checkDeadline deadline
  checkDeadline deadline
  Program.tryCatch (do
    checkDeadline deadline
    checkDeadline deadline
    checkDeadline deadline
    gated ref body) (asCustody deadline)

/-- The body of `run_authorized`. -/
def authorizedBody (authorization : GrantAuthorization) (expected : GrantId)
    (deadline : Option Time) (lease : GrantLease) : Call ρ ρ := do
  checkDeadline deadline
  if lease.grantId ≠ expected then throw .grantRevoked
  else if lease.epoch ≠ authorization.epoch ∨ lease.scope ≠ authorization.scope then
    throw .authorizationChanged
  else do
    let material ← leaseMaterial decryptItem lease deadline
    perform (.startOperation authorization material)
    let result ← perform (.endOperation authorization)
    perform (.recheck lease)
    return result

def runAuthorized (authorization : GrantAuthorization) (deadline : Option Time) : Call ρ ρ := do
  let expected ← Program.ofExcept (parseGrantRef authorization.usernameRef)
  authorizedOperation authorization.usernameRef deadline
    (authorizedBody decryptItem authorization expected deadline)

/-- A login: its authorization is captured first, and used later. -/
def login (scope : GrantScope) (deadline : Option Time) : Call ρ ρ := do
  let authorization ← perform (.selectAuthorization scope)
  runAuthorized decryptItem authorization deadline

inductive Task
  | fetch (ref : String) (deadline : Option Time)
  | runAuthorized (authorization : GrantAuthorization) (deadline : Option Time)
  | login (scope : GrantScope) (deadline : Option Time)
  deriving DecidableEq

inductive Returned (ρ : Type)
  | material (m : CredentialMaterial)
  | result (r : ρ)
  deriving DecidableEq

def Task.call : Task → Call ρ (Returned ρ)
  | .fetch ref deadline => do
    let material ← CredentialFetcher.fetch decryptItem ref deadline
    return .material material
  | .runAuthorized authorization deadline => do
    let result ← CredentialFetcher.runAuthorized decryptItem authorization deadline
    return .result result
  | .login scope deadline => do
    let result ← CredentialFetcher.login decryptItem scope deadline
    return .result result

end Material
end Calls

section Machine

/-- The rotated token of a token answer, where it is a valid one. -/
def Response.minted (response : Response) : Option Bytes :=
  match response.status, response.body with
  | 200, some (.obj document) =>
    match rotatedToken (Json.get document "refresh_token") with
    | .ok rotated => rotated
    | .error _ => none
  | _, _ => none

/-- The answer refuses the session leg it was asked with: by its status, or by an answer
without an access token. -/
def Response.refuses (response : Response) : Bool :=
  match response.status, response.body with
  | 400, _ => true
  | 401, _ => true
  | 200, some (.obj document) =>
    match Json.get document "access_token" with
    | .str access => access = ""
    | _ => true
  | _, _ => false

/-- What the calls went through so far. No call reads it. -/
structure Record where
  resolved : ℕ → Option GrantAuthorization
  began : ℕ → Option Database
  hindered : ℕ → Bool
  minted : ℕ → Option (GrantLease × Bytes)
  refused : List Bytes

/-- The committed tables, the open write transaction with its working copy, the monotonic
clock, the refresh tokens that the vault accepts, and the grant ids drawn so far. -/
structure State where
  committed : Database
  writer : Option (ℕ × Database)
  clock : Time
  accepted : List Bytes
  drawn : List FreshId
  record : Record

/-- The tables that a statement of the call reads and writes, unless another call has the
write lock. -/
def State.tables (s : State) (t : ℕ) : Option Database :=
  match s.writer with
  | none => some s.committed
  | some (u,work) => if u = t then some work else none

/-- The database is unreachable or busy, or the deadline has passed. -/
def State.hinder (s : State) (t : ℕ) : State :=
  { s with record := { s.record with hindered := Function.update s.record.hindered t true } }

def Record.refuse (r : Record) (lease : GrantLease) (refused : Bool) : Record :=
  if refused then { r with refused := lease.refreshToken :: r.refused } else r

/-- A token answer arrives. -/
def State.answer (s : State) (t : ℕ) (lease : GrantLease) (response : Response) : State :=
  let record := s.record.refuse lease response.refuses
  match response.minted with
  | none => { s with record := record }
  | some token =>
    { s with
      accepted := s.accepted.map fun b => if b = lease.refreshToken then token else b
      record := { record with minted := Function.update record.minted t (some (lease,token)) } }

theorem length_zeroIv : (List.replicate 12 (0 : UInt8)).length = 12 := rfl

/-- What an action leaves open: whether the database answers, the time and the vector of a
write, the vault's answer, the outcome of the operation. -/
structure Choice (ρ : Type) where
  available : Bool := true
  now : ℕ := 0
  iv : { iv : Bytes // iv.length = 12 } := ⟨List.replicate 12 0,length_zeroIv⟩
  response : Except CustodyError Response := .error .osError
  outcome : Except CustodyError ρ := .error .other

variable {ρ : Type} (broker : Broker)

/-- A read of the committed tables. -/
def State.select {α : Type} (s : State) (t : ℕ) (x : Choice ρ) (r : Except CustodyError α) :
    Except CustodyError α × State :=
  if x.available then (r,s) else (.error .sqliteOperational,s.hinder t)

/-- A change of the tables: on the write connection of the call if it has one, else in a
transaction of its own. -/
def State.change (s : State) (t : ℕ) (x : Choice ρ) (r : Request) :
    Option (Except CustodyError Unit × State) :=
  if x.available then
    match s.writer with
    | none => some ((Stateful.exec (r.perform broker x.now) s.committed).1,
        { s with committed := s.committed.step broker (r,x.now) })
    | some (u,work) =>
      if u = t then some ((Stateful.exec (r.perform broker x.now) work).1,
        { s with writer := some (t,work.step broker (r,x.now)) })
      else none
  else some (.error .sqliteOperational,s.hinder t)

section Tables

variable {broker} {s s' : State} {t : ℕ} {x : Choice ρ}

theorem State.select_cases {α : Type} {r r' : Except CustodyError α}
    (h : s.select t x r = (r',s')) :
    (r' = r ∧ s' = s) ∨ (r' = .error .sqliteOperational ∧ s' = s.hinder t) := by
  unfold State.select at h
  split_ifs at h
  · cases h
    exact .inl ⟨rfl,rfl⟩
  · cases h
    exact .inr ⟨rfl,rfl⟩

/-- A change is made in the committed tables, in the working copy of the call, or not at all. -/
theorem State.change_cases {request : Request} {r : Except CustodyError Unit}
    (h : s.change broker t x request = some (r,s')) :
    (s.writer = none ∧ r = (Stateful.exec (request.perform broker x.now) s.committed).1 ∧
      s' = { s with committed := s.committed.step broker (request,x.now) }) ∨
    (∃ work, s.writer = some (t,work) ∧
      r = (Stateful.exec (request.perform broker x.now) work).1 ∧
      s' = { s with writer := some (t,work.step broker (request,x.now)) }) ∨
    (x.available = false ∧ r = .error .sqliteOperational ∧ s' = s.hinder t) := by
  unfold State.change at h
  split_ifs at h with havailable
  · cases hw : s.writer with
    | none =>
      rw [hw] at h
      cases h
      exact .inl ⟨rfl,rfl,rfl⟩
    | some writer =>
      obtain ⟨u,work⟩ := writer
      simp only [hw] at h
      split_ifs at h with hu
      subst hu
      cases h
      exact .inr (.inl ⟨work,rfl,rfl,rfl⟩)
  · cases h
    exact .inr (.inr ⟨Bool.eq_false_iff.mpr havailable,rfl,rfl⟩)

end Tables

def exec (t : ℕ) : (a : Action) → Choice ρ → State → Option (Except CustodyError (Answer ρ a) × State)
  | .selectAuthorization scope, x, s =>
    match s.select t x (resolve s.committed scope) with
    | (.error e,s') => some (.error e,s')
    | (.ok authorization,s') => some (.ok authorization,{ s' with
        record := { s'.record with
          resolved := Function.update s'.record.resolved t (some authorization) } })
  | .selectScope grantId, x, s =>
    some (s.select t x (if (s.committed.ofGrant grantId).isSome then .ok () else .error .grantRevoked))
  | .beginImmediate, x, s =>
    if x.available then
      match s.writer with
      | none => some (.ok (),{ s with
          writer := some (t,s.committed)
          record := { s.record with began := Function.update s.record.began t (some s.committed) } })
      | some _ => none
    else some (.error .sqliteOperational,s.hinder t)
  | .checkout ref, x, s => some (s.select t x (s.committed.checkout broker ref))
  | .recheck lease, x, s =>
    some (s.select t x (s.committed.recheck lease.grantId lease.scope lease.epoch))
  | .deadline expiresAt, _, s =>
    if s.clock < expiresAt then some (.ok (),s) else some (.error .deadlineExceeded,s.hinder t)
  | .postToken lease, x, s =>
    match x.response with
    | .error e => some (.error e,s)
    | .ok response => some (.ok response,s.answer t lease response)
  | .getSync lease _, x, s =>
    match x.response with
    | .error e => some (.error e,s)
    | .ok response => some (.ok response,{ s with
        record := s.record.refuse lease (response.status = 401) })
  | .rotate lease token, x, s => s.change broker t x (.rotate lease token x.iv.1)
  | .invalidate lease, x, s => s.change broker t x (.invalidate lease)
  | .commit, x, s =>
    match s.writer with
    | none => some (.ok (),s)
    | some (u,work) =>
      if u = t then
        if x.available then some (.ok (),{ s with committed := work, writer := none })
        else some (.error .sqliteOperational,s.hinder t)
      else some (.ok (),s)
  | .rollback, _, s =>
    match s.writer with
    | none => some (.ok (),s)
    | some (u,_) => if u = t then some (.ok (),{ s with writer := none }) else some (.ok (),s)
  | .startOperation _ _, _, s => some (.ok (),s)
  | .endOperation _, x, s => some (x.outcome,s)

/-- An administrator's transaction, a session that the vault opens or whose token it replaces
in an answer that gets lost, or time that passes. -/
inductive Move
  | administer (request : Request) (now : ℕ)
  | openSession (token : Bytes)
  | loseAnswer (old new : Bytes)
  | tick (duration : Time)

/-- An administrator waits for the write lock, and draws no grant id that was drawn before. -/
def environment : Move → State → Option State
  | .administer request now, s =>
    match s.writer, request.drawn with
    | some _, _ => none
    | none, none => some { s with committed := s.committed.step broker (request,now) }
    | none, some d =>
      if d ∈ s.drawn then none
      else some { s with committed := s.committed.step broker (request,now), drawn := d :: s.drawn }
  | .openSession token, s =>
    if token ∈ s.accepted then none else some { s with accepted := token :: s.accepted }
  | .loseAnswer old new, s =>
    if new ∈ s.accepted then none
    else some { s with accepted := s.accepted.map fun b => if b = old then new else b }
  | .tick duration, s => if 0 ≤ duration then some { s with clock := s.clock + duration } else none

def machine : Machine Action (Answer ρ) CustodyError State (Choice ρ) Move where
  exec t a x s := exec broker t a x s
  environment v s := environment broker v s

abbrev World (ρ : Type) := Interleave.Config Action (Answer ρ) CustodyError (Returned ρ) State

def Record.blank : Record := ⟨fun _ => none,fun _ => none,fun _ => false,fun _ => none,[]⟩

def World.boot (decryptItem : List (String × Json) → String → Bytes → Except CustodyError CredentialMaterial)
    (tasks : ℕ → Task) : World ρ where
  shared := { committed := .initial, writer := none, clock := 0, accepted := [], drawn := [],
              record := .blank }
  calls t := (tasks t).call decryptItem

end Machine
end CredentialFetcher
end CloudBrowser
