import CloudBrowser.KeyedTable
import CloudBrowser.Program
import CloudBrowser.Text
import Mathlib.Algebra.Order.Ring.Unbundled.Rat

/-! The durable idempotency store of the broker: its transactions over the table of
operations, and the calls that are made of them. -/
namespace CloudBrowser
namespace Idempotency

open Interleave

inductive BrokerError
  | deadlineExceeded
  | store (message : String)
  | storeFull
  | sqlite
  | valueError (message : String)
  | other
  deriving DecidableEq, Repr

section Data

structure OperationScope where
  deployment : String
  audience : String
  operation : String
  profileId : String
  principalId : String
  browserId : String
  generation : String
  siteId : String
  targetTabId : String
  requestId : String
  deriving DecidableEq, Repr

/-- The fields of a scope under their names, in the order of the primary key. -/
def OperationScope.fields (scope : OperationScope) : List (String × String) :=
  [("deployment",scope.deployment),("audience",scope.audience),("operation",scope.operation),
    ("profile_id",scope.profileId),("principal_id",scope.principalId),
    ("browser_id",scope.browserId),("generation",scope.generation),("site_id",scope.siteId),
    ("target_tab_id",scope.targetTabId),("request_id",scope.requestId)]

/-- `values`: the key of the scope, or the first of its fields that is invalid. -/
def OperationScope.values (scope : OperationScope) : Except BrokerError (List String) :=
  match scope.fields.find? fun f => !Text.bounded Text.utf8Length 256 f.2 with
  | some f => .error (.valueError (f.1 ++ " is invalid"))
  | none => .ok (scope.fields.map (·.2))

def brokerStatusValues : List String :=
  ["authenticated","mfa_required","failed","not_shared","unsupported"]

def errorBounded (errorCode : Option String) : Bool :=
  errorCode.all fun e => e ≠ "" && e.length ≤ 64

structure BrokerResult where
  requestId : String
  status : String
  errorCode : Option String := none
  durationMs : ℤ := 0
  status_known : status ∈ brokerStatusValues
  durationMs_nonneg : 0 ≤ durationMs
  errorCode_bounded : errorBounded errorCode = true
  deriving DecidableEq

/-! What results are made of passes their checks. -/

theorem failed_known : "failed" ∈ brokerStatusValues := by decide

theorem authenticated_known : "authenticated" ∈ brokerStatusValues := by decide

theorem unsupported_known : "unsupported" ∈ brokerStatusValues := by decide

theorem errorCode_default : errorBounded none = true := rfl

theorem durationMs_default : (0 : ℤ) ≤ 0 := Int.le_refl 0

@[ext] theorem BrokerResult.ext {r r' : BrokerResult} (hid : r.requestId = r'.requestId)
    (hstatus : r.status = r'.status) (herror : r.errorCode = r'.errorCode)
    (hduration : r.durationMs = r'.durationMs) : r = r' := by
  cases r
  cases r'
  cases hid
  cases hstatus
  cases herror
  cases hduration
  rfl

def BrokerResult.build (requestId status : String) (errorCode : Option String) (durationMs : ℤ) :
    Except BrokerError BrokerResult :=
  if hs : status ∈ brokerStatusValues then
    if hd : 0 ≤ durationMs then
      if he : errorBounded errorCode = true then
        .ok ⟨requestId,status,errorCode,durationMs,hs,hd,he⟩
      else .error (.valueError "error_code must be bounded")
    else .error (.valueError "duration_ms must be non-negative")
  else .error (.valueError "invalid broker status")

theorem BrokerResult.build_ok {requestId status : String} {errorCode : Option String}
    {durationMs : ℤ} {r : BrokerResult} (h : build requestId status errorCode durationMs = .ok r) :
    r.requestId = requestId ∧ r.status = status ∧ r.errorCode = errorCode ∧
      r.durationMs = durationMs := by
  unfold build at h
  repeat' split at h
  all_goals cases h
  exact ⟨rfl,rfl,rfl,rfl⟩

/-- `_unknown_result`. -/
def unknownResult (scope : OperationScope) : BrokerResult where
  requestId := scope.requestId
  status := "failed"
  errorCode := some "unknown_outcome"
  status_known := failed_known
  durationMs_nonneg := durationMs_default
  errorCode_bounded := by decide

/-- The columns of a row that its state fills. -/
inductive Progress
  | reserved (leaseExpiresAt : ℤ)
  | complete (status : String) (errorCode : Option String) (durationMs : ℤ) (retainedUntil : ℤ)
  deriving DecidableEq, Repr

structure Row where
  scope : OperationScope
  ownerToken : String
  progress : Progress
  deriving DecidableEq, Repr

/-- The table of operations; the scope is its primary key. -/
abbrev Operations := Keyed.Table Row.scope

def Row.isReserved (row : Row) : Bool :=
  match row.progress with
  | .reserved _ => true
  | .complete _ _ _ _ => false

def Row.retainedUntil (row : Row) : Option ℤ :=
  match row.progress with
  | .reserved _ => none
  | .complete _ _ _ retainedUntil => some retainedUntil

/-- A reserved row whose lease has expired at `now`. -/
def Row.expired (now : ℤ) (row : Row) : Bool :=
  match row.progress with
  | .reserved leaseExpiresAt => leaseExpiresAt ≤ now
  | .complete _ _ _ _ => false

/-- A complete row that is retained no longer at `now`. -/
def Row.over (now : ℤ) (row : Row) : Bool := row.retainedUntil.any (· ≤ now)

/-- The row is complete, with the columns of the result. -/
def Row.shows (row : Row) (r : BrokerResult) : Prop :=
  r.requestId = row.scope.requestId ∧
    ∃ until', row.progress = .complete r.status r.errorCode r.durationMs until'

theorem Row.shows_unique {row : Row} {r r' : BrokerResult} (h : row.shows r) (h' : row.shows r') :
    r = r' := by
  obtain ⟨hid,u,hu⟩ := h
  obtain ⟨hid',u',hu'⟩ := h'
  rw [hu] at hu'
  injection hu' with hstatus herror hduration
  exact BrokerResult.ext (hid.trans hid'.symm) hstatus herror hduration

theorem Row.not_shows {row : Row} {r : BrokerResult} (h : row.isReserved = true) : ¬row.shows r := by
  rintro ⟨-,u,hu⟩
  rw [Row.isReserved,hu] at h
  cases h

/-- `_row_result`. -/
def rowResult (scope : OperationScope) (row : Row) : Except BrokerError BrokerResult :=
  match row.progress with
  | .reserved _ => .error (.store "idempotency row is not terminal")
  | .complete status errorCode durationMs _ =>
    match BrokerResult.build scope.requestId status errorCode durationMs with
    | .ok r => .ok r
    | .error _ => .error (.store "idempotency row is invalid")

theorem shows_rowResult {row : Row} {r : BrokerResult} (h : rowResult row.scope row = .ok r) :
    row.shows r := by
  unfold rowResult at h
  split at h
  · cases h
  · rename_i u hprogress
    split at h
    · rename_i r' hr
      cases h
      obtain ⟨hid,rfl,rfl,rfl⟩ := BrokerResult.build_ok hr
      exact ⟨hid,u,hprogress⟩
    · cases h

structure Reservation where
  acquired : Bool
  ownerToken : String := ""
  result : Option BrokerResult := none
  deriving DecidableEq

/-- The settings of a store. -/
structure Store where
  waitTimeout : Time := 30
  pollInterval : Time := 1/100
  reservationLease : ℕ := 60
  retention : ℕ := 86400
  maxRecords : ℕ := 100000
  waitTimeout_pos : 0 < waitTimeout
  pollInterval_pos : 0 < pollInterval
  reservationLease_pos : 0 < reservationLease
  retention_pos : 0 < retention
  maxRecords_pos : 0 < maxRecords

/-- Finalize as unknown the reserved rows among those that `p` selects. -/
def Operations.finalize (ops : Operations) (p : Row → Bool) (until' : ℤ) : Operations :=
  ops.mapRows (fun row => if p row && row.isReserved then
      { row with progress := .complete "failed" (some "unknown_outcome") 0 until' } else row)
    fun row => by split <;> rfl

/-- The row that a `complete` or a `release` may change: reserved, and of that owner. -/
def Row.owned (scope : OperationScope) (token : String) (row : Row) : Bool :=
  row.scope = scope && row.ownerToken = token && row.isReserved

/-- The update of `complete`. -/
def Operations.settle (ops : Operations) (scope : OperationScope) (token : String)
    (r : BrokerResult) (until' : ℤ) : Operations :=
  ops.mapRows (fun row => if row.owned scope token then
      { row with progress := .complete r.status r.errorCode r.durationMs until' } else row)
    fun row => by split <;> rfl

end Data

section Transactions

/-- A reservation that was acquired, and when. -/
structure Window where
  token : String
  opened : ℤ
  deriving DecidableEq, Repr

/-- A result that a transaction of a call has found, or stored, for a reservation. -/
structure Outcome where
  caller : ℕ
  scope : OperationScope
  token : String
  result : BrokerResult
  deriving DecidableEq

/-- What happened to the reservations so far: who acquired them, the latest first; the rows
that were deleted, and when their retention was over; the reservations that were finalized as
unknown, and those that were completed; the operations that were started, and the results that
callers got. No call reads it. -/
structure Record where
  holder : String → Option (ℕ × OperationScope)
  windows : OperationScope → List Window
  retired : List (String × ℤ)
  abandoned : List String
  completed : List Outcome
  started : List String
  outcomes : List Outcome

/-- The table, the wall clock in seconds, and the monotonic clock. -/
structure State where
  operations : Operations
  clock : ℤ
  monotonic : Time
  record : Record

def State.finalize (s : State) (p : Row → Bool) (until' : ℤ) : State :=
  { s with
    operations := s.operations.finalize p until'
    record := { s.record with abandoned :=
      (s.operations.rows.filter fun row => p row && row.isReserved).map (·.ownerToken) ++
        s.record.abandoned } }

def State.delete (s : State) (p : Row → Bool) : State :=
  { s with
    operations := s.operations.keep fun row => !p row
    record := { s.record with retired :=
      ((s.operations.rows.filter p).filterMap fun row =>
        row.retainedUntil.map fun u => (row.ownerToken,u)) ++ s.record.retired } }

def State.insert (s : State) (t : ℕ) (scope : OperationScope) (token : String) (lease : ℤ) : State :=
  { s with
    operations := s.operations.put ⟨scope,token,.reserved lease⟩
    record := { s.record with
      holder := Function.update s.record.holder token (some (t,scope))
      windows := Function.update s.record.windows scope (⟨token,s.clock⟩ :: s.record.windows scope) } }

def State.settle (s : State) (t : ℕ) (scope : OperationScope) (token : String) (r : BrokerResult)
    (until' : ℤ) : State :=
  { s with
    operations := s.operations.settle scope token r until'
    record := { s.record with completed := ⟨t,scope,token,r⟩ :: s.record.completed } }

def State.reply (s : State) (t : ℕ) (scope : OperationScope) (token : String) (r : BrokerResult) : State :=
  { s with record := { s.record with outcomes := ⟨t,scope,token,r⟩ :: s.record.outcomes } }

variable (store : Store)

/-- The end of `reserve`: finalize every expired reservation, delete what is retained no
longer, and insert the new row unless the table is full. -/
def State.makeRoom (s : State) (t : ℕ) (scope : OperationScope) (token : String) (now : ℤ) :
    Except BrokerError Reservation × State :=
  let swept := (s.finalize (Row.expired now) (now+store.retention)).delete (Row.over now)
  if store.maxRecords ≤ swept.operations.rows.length then (.error .storeFull,swept)
  else (.ok { acquired := true, ownerToken := token },
    swept.insert t scope token (now+store.reservationLease))

/-- The transaction of `reserve`. -/
def State.reserve (s : State) (t : ℕ) (scope : OperationScope) (token : String) (now : ℤ) :
    Except BrokerError Reservation × State :=
  match s.operations.find scope with
  | none => s.makeRoom store t scope token now
  | some row =>
    match row.progress with
    | .reserved leaseExpiresAt =>
      if now < leaseExpiresAt then (.ok { acquired := false },s)
      else (.ok { acquired := false, result := some (unknownResult scope) },
        (s.finalize (·.scope = scope) (now+store.retention)).reply t scope row.ownerToken
          (unknownResult scope))
    | .complete _ _ _ retainedUntil =>
      if now < retainedUntil then
        match rowResult scope row with
        | .ok r => (.ok { acquired := false, result := some r },s.reply t scope row.ownerToken r)
        | .error e => (.error e,s)
      else (s.delete (·.scope = scope)).makeRoom store t scope token now

/-- The transaction of `complete`. -/
def State.complete (s : State) (t : ℕ) (scope : OperationScope) (token : String) (r : BrokerResult)
    (now : ℤ) : Except BrokerError Unit × State :=
  if s.operations.rows.any (Row.owned scope token) then
    (.ok (),(s.settle t scope token r (now+store.retention)).reply t scope token r)
  else (.error (.store "idempotency reservation is not owned"),s)

/-- The transaction of `_mark_unknown`. -/
def State.markUnknown (s : State) (scope : OperationScope) (token : String) (now : ℤ) : State :=
  s.finalize (Row.owned scope token) (now+store.retention)

end Transactions

section Calls

/-- The steps of a call; the transactions carry the clock reading that they use. -/
inductive Action
  | now
  | monotonic
  | deadline (expiresAt : Time)
  | sleep (duration : Time)
  | reserve (scope : OperationScope) (deadline : Option Time) (now : ℤ)
  | complete (scope : OperationScope) (token : String) (result : BrokerResult)
      (deadline : Option Time) (now : ℤ)
  | markUnknown (scope : OperationScope) (token : String) (now : ℤ)
  | startOperation (scope : OperationScope) (token : String)
  | endOperation (scope : OperationScope)
  deriving DecidableEq

@[reducible] def Answer : Action → Type
  | .now => ℤ
  | .monotonic => Time
  | .deadline _ => Time
  | .reserve _ _ _ => Reservation
  | .endOperation _ => BrokerResult
  | _ => Unit

abbrev Call (α : Type) := Program Action Answer BrokerError α

abbrev perform (a : Action) : Call (Answer a) := Program.perform a

def checkDeadline : Option Time → Call Unit
  | none => pure ()
  | some expiresAt => do
    let _ ← perform (.deadline expiresAt)
    return ()

/-- `sqlite3.OperationalError` and `sqlite3.DatabaseError` of a transaction. -/
def asStore {α : Type} (deadline : Option Time) : BrokerError → Call α
  | .sqlite => do
    checkDeadline deadline
    throw (.store "idempotency store is unavailable")
  | e => throw e

/-- `_connect`, as far as the deadline goes. -/
def connect (deadline : Option Time) : Call Unit := do
  checkDeadline deadline
  checkDeadline deadline
  checkDeadline deadline

def reserve (scope : OperationScope) (deadline : Option Time) : Call Reservation := do
  checkDeadline deadline
  let _ ← Program.ofExcept scope.values
  let now ← perform .now
  Program.tryCatch (do
    connect deadline
    perform (.reserve scope deadline now)) (asStore deadline)

def complete (scope : OperationScope) (token : String) (result : BrokerResult)
    (deadline : Option Time) : Call Unit := do
  checkDeadline deadline
  if result.requestId ≠ scope.requestId then
    throw (.valueError "idempotency result request_id does not match scope")
  else do
    let _ ← Program.ofExcept scope.values
    let now ← perform .now
    Program.tryCatch (do
      connect deadline
      perform (.complete scope token result deadline now)) (asStore deadline)

def markUnknown (scope : OperationScope) (token : String) : Call Unit := do
  let _ ← Program.ofExcept scope.values
  let now ← perform .now
  perform (.markUnknown scope token now)

def release (scope : OperationScope) (token : String) : Call Unit := markUnknown scope token

def inProgress : BrokerError := .store "idempotent operation remains in progress"

/-- The owner's part of `execute`. -/
def runOwned (scope : OperationScope) (token : String) (deadline : Option Time) : Call BrokerResult :=
  Program.tryCatch (do
    checkDeadline deadline
    perform (.startOperation scope token)
    let result ← perform (.endOperation scope)
    complete scope token result deadline
    return result) fun e => do
      Program.tryCatch (markUnknown scope token) fun _ => pure ()
      throw e

/-- The time that is left to wait. -/
def remaining (deadline : Option Time) (waitDeadline : Time) : Call Time :=
  match deadline with
  | none => do
    let m ← perform .monotonic
    return waitDeadline-m
  | some expiresAt => do
    let left ← perform (.deadline expiresAt)
    let m ← perform .monotonic
    return min left (waitDeadline-m)

/-- The loop of `execute`. A run polls finitely often, `rounds` says how often at most. -/
def poll (store : Store) (scope : OperationScope) (deadline : Option Time) (waitDeadline : Time) :
    ℕ → Call BrokerResult
  | 0 => throw inProgress
  | rounds+1 => do
    checkDeadline deadline
    let m ← perform .monotonic
    if waitDeadline ≤ m then throw inProgress
    else do
      let reservation ← reserve scope deadline
      match reservation.result with
      | some result => return result
      | none =>
        if reservation.acquired then runOwned scope reservation.ownerToken deadline
        else do
          let left ← remaining deadline waitDeadline
          if left ≤ 0 then do
            checkDeadline deadline
            throw inProgress
          else do
            perform (.sleep (min store.pollInterval left))
            poll store scope deadline waitDeadline rounds

def execute (store : Store) (scope : OperationScope) (deadline : Option Time) (rounds : ℕ) :
    Call BrokerResult := do
  let m ← perform .monotonic
  poll store scope deadline (m+store.waitTimeout) rounds

inductive Task
  | execute (scope : OperationScope) (deadline : Option Time) (rounds : ℕ)
  | reserve (scope : OperationScope) (deadline : Option Time)
  | complete (scope : OperationScope) (token : String) (result : BrokerResult)
      (deadline : Option Time)
  | release (scope : OperationScope) (token : String)
  deriving DecidableEq

inductive Returned
  | result (r : BrokerResult)
  | reservation (r : Reservation)
  | done
  deriving DecidableEq

def Task.call (store : Store) : Task → Call Returned
  | .execute scope deadline rounds => do
    let result ← Idempotency.execute store scope deadline rounds
    return .result result
  | .reserve scope deadline => do
    let reservation ← Idempotency.reserve scope deadline
    return .reservation reservation
  | .complete scope token result deadline => do
    Idempotency.complete scope token result deadline
    return .done
  | .release scope token => do
    Idempotency.release scope token
    return .done

end Calls

section Machine

/-- What an action leaves open: whether the database answers, the token that `uuid4` draws,
the outcome of the operation. -/
structure Choice where
  available : Bool := true
  token : String := ""
  outcome : Except BrokerError BrokerResult := .error .other

variable (store : Store)

def State.late (s : State) (deadline : Option Time) : Bool := deadline.any (· ≤ s.monotonic)

/-- A transaction, inside which the deadline is checked before anything is read. -/
def State.transact {α : Type} (s : State) (x : Choice) (deadline : Option Time)
    (r : Except BrokerError α × State) : Except BrokerError α × State :=
  if !x.available then (.error .sqlite,s)
  else if s.late deadline then (.error .deadlineExceeded,s)
  else r

/-- `uuid4` never draws a token that a reservation has; one that is not stored is of no account. -/
def exec (t : ℕ) : (a : Action) → Choice → State → Option (Except BrokerError (Answer a) × State)
  | .now, _, s => some (.ok s.clock,s)
  | .monotonic, _, s => some (.ok s.monotonic,s)
  | .deadline expiresAt, _, s =>
    if s.monotonic < expiresAt then some (.ok (expiresAt-s.monotonic),s)
    else some (.error .deadlineExceeded,s)
  | .sleep _, _, s => some (.ok (),s)
  | .reserve scope deadline now, x, s =>
    if (s.record.holder x.token).isSome then none
    else some (s.transact x deadline (s.reserve store t scope x.token now))
  | .complete scope token result deadline now, x, s =>
    some (s.transact x deadline (s.complete store t scope token result now))
  | .markUnknown scope token now, x, s =>
    some (s.transact x none (.ok (),s.markUnknown store scope token now))
  | .startOperation _ token, _, s =>
    some (.ok (),{ s with record := { s.record with started := token :: s.record.started } })
  | .endOperation _, x, s => some (x.outcome,s)

/-- Neither clock ever goes back. -/
inductive Move
  | tick (wall : ℤ) (monotonic : Time)
  deriving DecidableEq

def environment : Move → State → Option State
  | .tick wall monotonic, s =>
    if 0 ≤ wall ∧ 0 ≤ monotonic then
      some { s with clock := s.clock+wall, monotonic := s.monotonic+monotonic }
    else none

def machine : Machine Action Answer BrokerError State Choice Move where
  exec t a x s := exec store t a x s
  environment v s := environment v s

abbrev World := Interleave.Config Action Answer BrokerError Returned State

def Record.blank : Record := ⟨fun _ => none,fun _ => [],[],[],[],[],[]⟩

def World.boot (tasks : ℕ → Task) (clock : ℤ) (monotonic : Time) : World where
  shared := { operations := .empty, clock := clock, monotonic := monotonic, record := .blank }
  calls t := (tasks t).call store

end Machine
end Idempotency
end CloudBrowser
