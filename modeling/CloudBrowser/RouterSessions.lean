import Mathlib.Data.List.MinMax
import Mathlib.Data.List.Sort
import Mathlib.Data.Prod.Lex
import Mathlib.Algebra.Order.Field.Rat
import CloudBrowser.KeyedTable
import CloudBrowser.Lifecycle
import CloudBrowser.Stateful

/-! The session store of the router: who waits, who is offered a slot, who holds one.
Expiry is lazy; it runs at the start of most operations, with a clock reading of its own. -/
namespace CloudBrowser
namespace RouterSessions

open Stateful Keyed

inductive SessionStatus
  | waiting | offered | active | backedOff | stopped | left
  deriving DecidableEq, Repr

namespace SessionStatus

/-- `_LIVE`. -/
def live : SessionStatus → Bool
  | waiting | offered | active | backedOff => true
  | stopped | left => false

/-- The statuses that hold a slot. -/
def occupies : SessionStatus → Bool
  | offered | active => true
  | _ => false

/-- The order in which `for_principal` prefers live records. -/
def order : SessionStatus → ℕ
  | active => 0
  | offered => 1
  | waiting => 2
  | backedOff => 3
  | stopped => 4
  | left => 5

def value : SessionStatus → String
  | waiting => "waiting"
  | offered => "offered"
  | active => "active"
  | backedOff => "backed_off"
  | stopped => "stopped"
  | left => "left"

end SessionStatus

inductive RouterError
  | valueError (message : String)
  | keyError (message : String)
  | osError
  deriving DecidableEq, Repr

def boundedText (s : String) : Bool := s ≠ "" && s.length ≤ 256

structure SlotDescriptor where
  slotId : String
  supervisorUrl : String
  browserId : String
  bounded : (boundedText slotId && boundedText supervisorUrl && boundedText browserId) = true
  http : (supervisorUrl.startsWith "http://" || supervisorUrl.startsWith "https://") = true
  deriving DecidableEq

def SlotDescriptor.build (slotId supervisorUrl browserId : String) :
    Except RouterError SlotDescriptor :=
  if hb : (boundedText slotId && boundedText supervisorUrl && boundedText browserId) = true then
    if hu : (supervisorUrl.startsWith "http://" || supervisorUrl.startsWith "https://") = true then
      .ok ⟨slotId,supervisorUrl,browserId,hb,hu⟩
    else .error (.valueError "supervisor_url must use HTTP(S)")
  else .error (.valueError "slot descriptor values must be bounded text")

structure RouterSession where
  sessionId : String
  requestId : String
  principalId : String
  status : SessionStatus
  enqueuedAt : Time
  slotId : Option String := none
  binding : Option BrowserBinding := none
  offerExpiresAt : Option Time := none
  sessionExpiresAt : Option Time := none
  backoffUntil : Option Time := none
  displayEmail : Option String := none
  deriving DecidableEq

/-- The slots and lifetimes that the constructor accepts. -/
structure Settings where
  slots : List SlotDescriptor
  offerTtl : Time
  sessionTtl : Time
  backoffTtl : Time
  slots_ne : slots ≠ []
  slotIds_nodup : (slots.map SlotDescriptor.slotId).Nodup
  browserIds_nodup : (slots.map SlotDescriptor.browserId).Nodup
  offerTtl_pos : 0 < offerTtl
  sessionTtl_pos : 0 < sessionTtl
  backoffTtl_pos : 0 < backoffTtl

def Settings.build (slots : List SlotDescriptor) (offerTtl sessionTtl backoffTtl : Time) :
    Except RouterError Settings :=
  if hne : slots ≠ [] then
    if hs : (slots.map SlotDescriptor.slotId).Nodup then
      if hb : (slots.map SlotDescriptor.browserId).Nodup then
        if ho : 0 < offerTtl then
          if ha : 0 < sessionTtl then
            if hf : 0 < backoffTtl then
              .ok ⟨slots,offerTtl,sessionTtl,backoffTtl,hne,hs,hb,ho,ha,hf⟩
            else .error (.valueError "backoff_ttl_s must be positive")
          else .error (.valueError "session_ttl_s must be positive")
        else .error (.valueError "offer_ttl_s must be positive")
      else .error (.valueError "browser IDs must be unique")
    else .error (.valueError "slot IDs must be unique")
  else .error (.valueError "at least one slot is required")

abbrev SessionTable := Table RouterSession.sessionId

/-- The sessions in memory, and the state file when there is one. -/
structure Store where
  sessions : SessionTable
  nextSequence : ℕ
  file : Option Json

def Store.empty : Store := ⟨.empty,1,none⟩

def Store.withSessions (s : Store) (t : SessionTable) : Store := { s with sessions := t }

@[simp] theorem Store.withSessions_sessions (s : Store) (t : SessionTable) :
    (s.withSessions t).sessions = t := rfl

@[simp] theorem Store.withSessions_nextSequence (s : Store) (t : SessionTable) :
    (s.withSessions t).nextSequence = s.nextSequence := rfl

/-- What an operation finds outside the store: the readings its clock will give, and
whether each attempt to write the state file succeeds. -/
structure Outside where
  readings : ℕ → Time
  writes : ℕ → Bool

structure World where
  store : Store
  outside : Outside

abbrev Operation (α : Type) := Op RouterError World α

namespace RouterSession

/-- `_encode`, with the keys sorted. -/
def encode (r : RouterSession) : Json :=
  let time : Option Time → Json := fun t => t.elim .null .real
  let text : Option String → Json := fun s => s.elim .null .str
  .obj ([("backoff_until",time r.backoffUntil),
      ("binding",r.binding.elim .null fun b => .obj [("browser_id",.str b.browserId),
        ("generation",.str b.generation),("principal_id",.str b.principalId),
        ("profile_id",.str b.profileId)])] ++
    (r.displayEmail.elim [] fun email => [("display_email",.str email)]) ++
    [("enqueued_at",.real r.enqueuedAt),("offer_expires_at",time r.offerExpiresAt),
      ("principal_id",.str r.principalId),("request_id",.str r.requestId),
      ("session_expires_at",time r.sessionExpiresAt),("session_id",.str r.sessionId),
      ("slot_id",text r.slotId),("status",.str r.status.value)])

/-- The first-come order of the queue. -/
def before (a b : RouterSession) : Prop :=
  a.enqueuedAt < b.enqueuedAt ∨ a.enqueuedAt = b.enqueuedAt ∧ a.sessionId ≤ b.sessionId

instance : DecidableRel before := fun a b => by unfold before; infer_instance

def lapsed (now : Time) (r : RouterSession) : Bool :=
  match r.status with
  | .offered => r.offerExpiresAt.any (· ≤ now)
  | .active => r.sessionExpiresAt.any (· ≤ now)
  | .backedOff => r.backoffUntil.any (· ≤ now)
  | _ => false

/-- One record's turn in `_expire_locked`. -/
def expire (now : Time) (r : RouterSession) : RouterSession :=
  if r.lapsed now then
    match r.status with
    | .offered => { r with status := .waiting, slotId := none, binding := none,
                           offerExpiresAt := none, enqueuedAt := now }
    | .active => { r with status := .stopped, slotId := none, binding := none,
                          sessionExpiresAt := none }
    | .backedOff => { r with status := .waiting, backoffUntil := none }
    | _ => r
  else r

@[simp] theorem expire_sessionId (now : Time) (r : RouterSession) :
    (r.expire now).sessionId = r.sessionId := by
  unfold expire
  split
  · split <;> rfl
  · rfl

/-- The binding that a record gets with a slot. -/
def bindingOn (slot : SlotDescriptor) (r : RouterSession) : BrowserBinding where
  profileId := "profile-" ++ r.principalId
  principalId := r.principalId
  browserId := slot.browserId
  generation := "generation-" ++ r.sessionId

def offer (slot : SlotDescriptor) (expiresAt : Time) (r : RouterSession) : RouterSession :=
  { r with status := .offered, slotId := some slot.slotId, binding := some (r.bindingOn slot),
           offerExpiresAt := some expiresAt }

def activate (expiresAt : Time) (r : RouterSession) : RouterSession :=
  { r with status := .active, offerExpiresAt := none, sessionExpiresAt := some expiresAt }

def leave (r : RouterSession) : RouterSession :=
  { r with status := .left, slotId := none, binding := none, offerExpiresAt := none,
           sessionExpiresAt := none }

def backoff (backoffUntil : Time) (r : RouterSession) : RouterSession :=
  { r with status := .backedOff, slotId := none, binding := none, offerExpiresAt := none,
           backoffUntil := some backoffUntil }

def renew (expiresAt : Time) (r : RouterSession) : RouterSession :=
  { r with sessionExpiresAt := some expiresAt }

end RouterSession

section Tables

variable (settings : Settings) (t : SessionTable)

def expireAll (now : Time) : SessionTable :=
  t.mapRows (RouterSession.expire now) (RouterSession.expire_sessionId now)

def occupied : List (Option String) :=
  (t.rows.filter fun r => r.status.occupies).map RouterSession.slotId

def free : List SlotDescriptor := settings.slots.filter fun slot => some slot.slotId ∉ occupied t

def queue : List RouterSession :=
  (t.rows.filter fun r => r.status = .waiting).insertionSort RouterSession.before

/-- `for record, slot in zip(waiting, free)`: offer the slots in order. -/
def offerAll (expiresAt : Time) (pairs : List (RouterSession × SlotDescriptor)) : SessionTable :=
  pairs.foldl (fun t p => t.put (p.1.offer p.2 expiresAt)) t

def sessionName (n : ℕ) : String := "q-" ++ toString n

end Tables

section Internals

def clock : Operation Time := do
  let w ← get
  set { w with outside := { w.outside with readings := fun n => w.outside.readings (n+1) } }
  return w.outside.readings 0

def sessions : Operation SessionTable := do
  let w ← get
  return w.store.sessions

def setSessions (t : SessionTable) : Operation Unit :=
  modify fun w => { w with store := w.store.withSessions t }

def document (s : Store) : Json :=
  .obj [("next_sequence",.int s.nextSequence),
    ("sessions",.arr (s.sessions.rows.map RouterSession.encode)),("version",.int 1)]

/-- `_persist_locked`: the file is replaced as a whole, or left alone when a write fails. -/
def persistLocked : Operation Unit := do
  let w ← get
  let outside := { w.outside with writes := fun n => w.outside.writes (n+1) }
  if w.outside.writes 0 then
    set { store := { w.store with file := some (document w.store) }, outside := outside : World }
  else do
    set { w with outside := outside }
    throw .osError

def persistIf (changed : Bool) : Operation Unit :=
  if changed then persistLocked else pure ()

def validateText (name value : String) : Except RouterError Unit :=
  if Text.bounded String.length 256 value then .ok () else .error (.valueError (name ++ " is invalid"))

def requireLocked (sessionId : String) : Operation RouterSession := do
  check (validateText "session_id" sessionId)
  let t ← sessions
  match t.find sessionId with
  | some record => return record
  | none => throw (.keyError "session not found")

def expireLocked : Operation Bool := do
  let now ← clock
  let t ← sessions
  setSessions (expireAll t now)
  return t.rows.any (RouterSession.lapsed now)

def newIdLocked : Operation String := do
  let w ← get
  let ids := w.store.sessions.rows.map RouterSession.sessionId
  let n := Table.firstFree sessionName ids ids.length w.store.nextSequence
  set { w with store := { w.store with nextSequence := n+1 } }
  return sessionName n

end Internals

section Operations

variable (settings : Settings)

def assignWaitersLocked : Operation ℕ := do
  let t ← sessions
  let pairs := (queue t).zip (free settings t)
  let now ← clock
  setSessions (offerAll t (now+settings.offerTtl) pairs)
  return pairs.length

def forPrincipal (principalId : String) : Operation (Option RouterSession) := do
  check (validateText "principal_id" principalId)
  let expired ← expireLocked
  let promoted ← assignWaitersLocked settings
  let t ← sessions
  let candidates := t.rows.filter fun r => r.principalId = principalId && r.status.live
  persistIf (expired || 0 < promoted)
  return candidates.argmin fun r => toLex (r.status.order,-r.enqueuedAt)

def enqueue (principalId requestId : String) (displayEmail : Option String) :
    Operation RouterSession := do
  check (validateText "principal_id" principalId)
  check (validateText "request_id" requestId)
  check (displayEmail.elim (.ok ()) (validateText "display_email"))
  let _ ← expireLocked
  match ← forPrincipal settings principalId with
  | some current => return current
  | none =>
    let sessionId ← newIdLocked
    let now ← clock
    let record : RouterSession :=
      { sessionId := sessionId, requestId := requestId, principalId := principalId,
        status := .waiting, enqueuedAt := now, displayEmail := displayEmail }
    let t ← sessions
    setSessions (t.put record)
    let _ ← assignWaitersLocked settings
    persistLocked
    let t ← sessions
    match t.find sessionId with
    | some record => return record
    | none => throw (.keyError sessionId)

def activate (sessionId : String) : Operation RouterSession := do
  let record ← requireLocked sessionId
  if record.status = .active then return record
  else if record.status ≠ .offered then throw (.valueError "only offered sessions can activate")
  else do
    let now ← clock
    let record := record.activate (now+settings.sessionTtl)
    let t ← sessions
    setSessions (t.put record)
    persistLocked
    return record

def leave (sessionId : String) : Operation RouterSession := do
  let record ← requireLocked sessionId
  let record := record.leave
  let t ← sessions
  setSessions (t.put record)
  persistLocked
  return record

def backoff (sessionId : String) : Operation RouterSession := do
  let record ← requireLocked sessionId
  let now ← clock
  let record := record.backoff (now+settings.backoffTtl)
  let t ← sessions
  setSessions (t.put record)
  let _ ← assignWaitersLocked settings
  persistLocked
  return record

def promoteNext : Operation (Option RouterSession) := do
  let _ ← expireLocked
  let t ← sessions
  match queue t, free settings t with
  | record::_, slot::_ =>
    let now ← clock
    let promoted := record.offer slot (now+settings.offerTtl)
    setSessions (t.put promoted)
    persistLocked
    return some promoted
  | _, _ => return none

def getSession (sessionId : String) : Operation (Option RouterSession) := do
  let changed ← expireLocked
  let t ← sessions
  let record := t.find sessionId
  persistIf changed
  return record

def renew (principalId : String) : Operation (Option RouterSession) := do
  check (validateText "principal_id" principalId)
  match ← forPrincipal settings principalId with
  | none => return none
  | some current =>
    if current.status ≠ .active ∨ current.sessionExpiresAt = none then return some current
    else do
      let now ← clock
      let renewed := current.renew (now+settings.sessionTtl)
      let t ← sessions
      setSessions (t.put renewed)
      persistLocked
      return some renewed

structure RosterEntry where
  status : SessionStatus
  email : Option String
  deriving DecidableEq

def roster : Operation (List RosterEntry) := do
  let changed ← expireLocked
  let promoted ← assignWaitersLocked settings
  let t ← sessions
  let live := (t.rows.filter fun r => r.status.live).insertionSort RouterSession.before
  persistIf (changed || 0 < promoted)
  return live.map fun r => ⟨r.status,r.displayEmail⟩

end Operations

/-- One call of a public operation. -/
inductive Request
  | enqueue (principalId requestId : String) (displayEmail : Option String)
  | activate (sessionId : String)
  | leave (sessionId : String)
  | backoff (sessionId : String)
  | renew (principalId : String)
  | promoteNext
  | get (sessionId : String)
  | forPrincipal (principalId : String)
  | roster
  deriving DecidableEq, Repr

def Request.perform (settings : Settings) : Request → Operation Unit
  | .enqueue p r e => discard (RouterSessions.enqueue settings p r e)
  | .activate s => discard (RouterSessions.activate settings s)
  | .leave s => discard (RouterSessions.leave s)
  | .backoff s => discard (RouterSessions.backoff settings s)
  | .renew p => discard (RouterSessions.renew settings p)
  | .promoteNext => discard (RouterSessions.promoteNext settings)
  | .get s => discard (getSession s)
  | .forPrincipal p => discard (RouterSessions.forPrincipal settings p)
  | .roster => discard (RouterSessions.roster settings)

/-- The store after one operation, whether it returned or raised. -/
def Store.step (settings : Settings) (s : Store) (e : Request × Outside) : Store :=
  (exec (e.1.perform settings) ⟨s,e.2⟩).2.store

def run (settings : Settings) (s : Store) (es : List (Request × Outside)) : Store :=
  es.foldl (Store.step settings) s

end RouterSessions
end CloudBrowser
