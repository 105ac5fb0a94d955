import CloudBrowser.RelyGuarantee
import CloudBrowser.HeldSlots
import CloudBrowser.LapsedLease

/-! `activate_session` of the router API. The caller's session is looked up, its slot is woken
by a slow call to the supervisor, and the session is activated; operations on the store by
other requests may land in between. -/
namespace CloudBrowser
namespace SlotActivation

open Interleave RouterSessions Keyed

inductive ApiError
  | store (e : RouterError)
  | supervisorUnavailable (message : String)
  | supervisorClientError (message : String)
  | typeError
  | other
  deriving DecidableEq, Repr

/-- `round(q)`: halves go to the even side. -/
def roundHalfEven (q : ℚ) : ℤ :=
  let below := q.floor
  let rest := q - below
  if rest < 1/2 then below
  else if 1/2 < rest then below + 1
  else if below % 2 = 0 then below else below + 1

/-- `round(max(0.0, until - now), 3)`. -/
def secondsLeft (now expiry : Time) : Time := roundHalfEven (max 0 (expiry-now) * 1000) / 1000

structure SessionPayload where
  sessionId : String
  status : String
  slotId : Option String
  offerTtl : Option Time
  sessionTtl : Option Time
  deriving DecidableEq

inductive Body
  | failed (errorCode : String)
  | session (payload : SessionPayload)
  deriving DecidableEq

structure Reply where
  code : ℕ
  requestId : String
  body : Body
  deriving DecidableEq

/-- `_session_payload`. -/
def sessionPayload (session : RouterSession) (now : Time) : SessionPayload where
  sessionId := session.sessionId
  status := session.status.value
  slotId := session.slotId
  offerTtl := session.offerExpiresAt.map (secondsLeft now)
  sessionTtl := session.sessionExpiresAt.map (secondsLeft now)

section Supervisor

/-- What comes back when a command is posted to a slot supervisor. -/
inductive Posted
  | unreachable
  | answered (status : ℕ) (oversize : Bool) (decoded : Option Json)
  | broken

def validateSlotId (slotId : String) : Except ApiError Unit :=
  if Text.bounded String.length 64 slotId then .ok ()
  else .error (.supervisorClientError "slot_id is invalid")

def validateRequestId (requestId : String) : Except ApiError Unit :=
  if Text.bounded String.length 128 requestId then .ok ()
  else .error (.supervisorClientError "request_id is invalid")

/-- The checks of `post_control` before it posts a wake command. -/
def validateControl (knownSlots : List String) (slotId requestId : String) :
    Except ApiError Unit := do
  validateSlotId slotId
  validateRequestId requestId
  if slotId ∈ knownSlots then return ()
  else throw (.supervisorClientError "slot is not configured")

/-- What `post_control` makes of the supervisor's response. -/
def receive : Posted → Except ApiError (List (String × Json))
  | .unreachable => .error (.supervisorUnavailable "slot supervisor is unreachable")
  | .broken => .error .other
  | .answered _ true _ => .error (.supervisorUnavailable "supervisor response is too large")
  | .answered _ false none => .error (.supervisorUnavailable "supervisor returned invalid JSON")
  | .answered status false (some decoded) =>
    if 500 ≤ status then .error (.supervisorUnavailable "supervisor request failed")
    else match decoded with
      | .obj fields => .ok fields
      | _ => .error (.supervisorUnavailable "supervisor returned a non-object response")

/-- Whether the wake was answered ready; a status that cannot be hashed raises. -/
def accepted (result : List (String × Json)) : Except ApiError Bool :=
  let status := Json.get result "status"
  if !status.hashable then .error .typeError
  else .ok (status.asString.any (· ∈ ["ready","ok","adopted"]))

def refusalCode (result : List (String × Json)) : String :=
  match (Json.get result "error_code").asString with
  | some code =>
    if code ∈ ["slot_mismatch","owner_mismatch","operation_failed"] then code
    else "operation_failed"
  | none => "operation_failed"

def wakeFailure : ApiError → String
  | .supervisorUnavailable _ => "supervisor_unavailable"
  | .supervisorClientError _ => "invalid_request"
  | _ => "operation_failed"

end Supervisor

inductive Action
  | forPrincipal (principalId : String)
  | wake (slotId requestId : String) (binding : BrowserBinding)
  | activate (sessionId : String)
  | clock

@[reducible] def Answer : Action → Type
  | .forPrincipal _ => Option RouterSession
  | .wake _ _ _ => List (String × Json)
  | .activate _ => RouterSession
  | .clock => Time

abbrev Call := Program Action Answer ApiError

/-- A request, with the principal that its headers resolve to. -/
structure ActivateRequest where
  resolved : Option String
  requestId : String

section Requests

variable (knownSlots : List String) (request : ActivateRequest)

def refused (code : ℕ) (errorCode : String) : Call Reply :=
  return ⟨code,request.requestId,.failed errorCode⟩

/-- An action under a `try` of its own, whose handlers all answer with an error code. -/
def attempt (a : Action) (failed : ApiError → String) (k : Answer a → Call Reply) : Call Reply :=
  .act a fun
    | .ok x => k x
    | .error e => refused request 200 (failed e)

/-- `activate_session` once the slot was woken. -/
def activateWoken (sessionId : String) : Call Reply :=
  attempt request (.activate sessionId) (fun _ => "activate_failed") fun activated =>
    attempt request .clock (fun _ => "store_unavailable") fun now =>
      return ⟨200,request.requestId,.session (sessionPayload activated now)⟩

def activateFound (session : RouterSession) : Call Reply :=
  if session.status ≠ .offered ∧ session.status ≠ .active then
    refused request 200 "session_not_found"
  else match session.binding, session.slotId with
    | some binding, some slotId =>
      if slotId ∉ knownSlots then refused request 200 "unknown_slot"
      else attempt request (.wake slotId request.requestId binding) wakeFailure fun result =>
        match accepted result with
        | .error e => throw e
        | .ok false => refused request 200 (refusalCode result)
        | .ok true => activateWoken request session.sessionId
    | _, _ => refused request 200 "no_binding"

def activateSession : Call Reply :=
  match request.resolved with
  | none => refused request 401 "unauthorized"
  | some principalId =>
    attempt request (.forPrincipal principalId) (fun _ => "lookup_failed") fun
      | none => refused request 200 "session_not_found"
      | some session => activateFound knownSlots request session

end Requests

structure Wake where
  slotId : String
  binding : BrowserBinding

/-- What a call has done so far: the session it read, whether an operation has interrupted
that session since, the wake it sent, the tables of the store since then, and the record it
activated. -/
structure Trace where
  read : Option RouterSession := none
  interrupted : Prop := False
  wake : Option Wake := none
  seen : List SessionTable := []
  activated : Option RouterSession := none

/-- An operation on the store, as a call sees it that has not come to activate yet. -/
def Trace.observe (x : Trace) (request : Request) (outside : Outside) (before after : SessionTable) :
    Trace :=
  if x.activated.isSome then x
  else { x with
    interrupted := x.interrupted ∨
      ∃ session ∈ x.read, Interrupts request outside before session.sessionId
    seen := if x.wake.isSome then after::x.seen else x.seen }

structure Service where
  store : Store
  traces : ℕ → Trace

section Machine

variable (settings : Settings) (knownSlots : List String)

def Service.operate (s : Service) (request : Request) (outside : Outside) : Service where
  store := s.store.step settings (request,outside)
  traces t := (s.traces t).observe request outside s.store.sessions
    (s.store.step settings (request,outside)).sessions

def Service.setTrace (s : Service) (t : ℕ) (x : Trace) : Service :=
  { s with traces := Function.update s.traces t x }

/-- The call has activated the record, unless that raised. -/
def Service.took (s : Service) (t : ℕ) : Except RouterError RouterSession → Service
  | .ok record => s.setTrace t { s.traces t with activated := some record }
  | .error _ => s

/-- What an action leaves open: the clock and the disk of the store, and the supervisor. -/
structure Choice where
  outside : Outside
  posted : Posted := .unreachable

def exec (t : ℕ) : (a : Action) → Choice → Service → Except ApiError (Answer a) × Service
  | .forPrincipal principalId, x, s =>
    let found := (Stateful.exec (forPrincipal settings principalId) ⟨s.store,x.outside⟩).1
    (found.mapError .store,(s.operate settings (.forPrincipal principalId) x.outside).setTrace t
      { read := found.toOption.join })
  | .wake slotId requestId binding, x, s =>
    match validateControl knownSlots slotId requestId with
    | .error e => (.error e,s)
    | .ok () => (receive x.posted,s.setTrace t { s.traces t with
        wake := some ⟨slotId,binding⟩, seen := [s.store.sessions] })
  | .activate sessionId, x, s =>
    let activated := (Stateful.exec (activate settings sessionId) ⟨s.store,x.outside⟩).1
    (activated.mapError .store,
      (s.took t activated).operate settings (.activate sessionId) x.outside)
  | .clock, x, s => (.ok (x.outside.readings 0),s)

/-- The environment performs any operation on the store. -/
def machine : Machine Action Answer ApiError Service Choice (Request × Outside) where
  exec t a x s := some (exec settings knownSlots t a x s)
  environment v s := some (s.operate settings v.1 v.2)

abbrev World := Interleave.Config Action Answer ApiError Reply Service

def World.boot (store : Store) (requests : ℕ → ActivateRequest) : World where
  shared := ⟨store,fun _ => {}⟩
  calls t := activateSession knownSlots (requests t)

end Machine

/-- The slot and the binding of the record that was activated are those of the wake, and
since the wake nobody else was offered the slot. -/
def Trace.Woken (x : Trace) : Prop :=
  ∃ wake ∈ x.wake, ∃ record ∈ x.activated, record.slotId = some wake.slotId ∧
    record.binding = some wake.binding ∧ ∀ table ∈ x.seen, ∀ r ∈ table, r.status = .offered →
      r.slotId = some wake.slotId → r.sessionId = record.sessionId

/-- A call that reports its session active has woken the slot that it activated. -/
def WokenOnly (c : World) : Prop :=
  ∀ t reply payload, c.calls t = .ret reply → reply.body = .session payload →
    payload.status = SessionStatus.active.value → (c.shared.traces t).Woken

/-- Where a call comes to activate its session and finds it offered or active, no operation
has interrupted the session since the call read it. -/
def Uninterrupted (c : World) : Event Choice (Request × Outside) → Prop
  | .call t _ => ∀ id k, c.calls t = .act (.activate id) k → ∀ r ∈ c.shared.store.sessions,
      r.sessionId = id → r.status.occupies = true → ¬(c.shared.traces t).interrupted
  | .environment _ => True

section Traces

variable {settings : Settings} {s : Service} {request : Request} {outside : Outside} {t : ℕ}
  {session record : RouterSession} {id : String}

/-- What an activation starts from, and what it keeps. -/
theorem activate_ok {store : Store}
    (h : (Stateful.exec (activate settings id) ⟨store,outside⟩).1 = .ok record) :
    ∃ r ∈ store.sessions, r.sessionId = id ∧ r.status.occupies = true ∧ record.sessionId = id ∧
      record.slotId = r.slotId ∧ record.binding = r.binding := by
  by_cases hid : readable id = true
  · cases hfind : store.sessions.find id with
    | none => simp [-bind_pure_comp,activate,Stateful.exec_bind,exec_requireLocked,hid,hfind] at h
    | some r =>
      obtain ⟨hmem,hsame⟩ := Table.find_eq_some.mp hfind
      refine ⟨r,hmem,hsame,?_⟩
      by_cases hactive : r.status = .active
      · simp [-bind_pure_comp,activate,Stateful.exec_bind,exec_requireLocked,hid,hfind,hactive] at h
        subst h
        simp [hactive,hsame,SessionStatus.occupies]
      by_cases hoffered : r.status = .offered
      · by_cases hwrite : outside.writes 0 = true <;>
          simp [-bind_pure_comp,activate,Stateful.exec_bind,exec_requireLocked,exec_persistLocked,
            hid,hfind,hoffered,hwrite] at h
        subst h
        simp [hoffered,hsame,SessionStatus.occupies,RouterSession.activate]
      · simp [-bind_pure_comp,activate,Stateful.exec_bind,exec_requireLocked,hid,hfind,hactive,
          hoffered] at h
  · simp [-bind_pure_comp,activate,Stateful.exec_bind,exec_requireLocked,hid] at h

/-- While the record of the session is in its place, nobody else was offered the slot in any
of the tables. -/
def Unoffered (session : RouterSession) (tables : List SessionTable) : Prop :=
  ∀ table ∈ tables, ∀ r ∈ table, r.status = .offered → r.slotId = session.slotId →
    r.sessionId = session.sessionId

/-- The session that the call read was interrupted, or has ended, or still holds its slot, of
which nobody else had an offer. -/
def Undisturbed (table : SessionTable) (x : Trace) : Prop :=
  ∀ session ∈ x.read, session.status.occupies = true → x.activated = none →
    x.interrupted ∨ Kept session (Unoffered session x.seen) table

structure Settled (s : Service) : Prop where
  unshared : Unshared s.store.sessions
  undisturbed : ∀ t, Undisturbed s.store.sessions (s.traces t)

/-- A session that holds a slot keeps the others from being offered it. -/
theorem unoffered_of_holds {table : SessionTable} {r : RouterSession} (h : Unshared table)
    (hr : r ∈ table) (hid : r.sessionId = session.sessionId) (hholds : Holds session r) :
    ∀ x ∈ table, x.status = .offered → x.slotId = session.slotId →
      x.sessionId = session.sessionId := by
  intro x hx hoffered hslot
  have hocc : x.status.occupies = true := by simp [hoffered,SessionStatus.occupies]
  rw [h x hx r hr hocc hholds.1 (hslot.trans hholds.2.1.symm)]
  exact hid

theorem undisturbed_observe {x : Trace} {store : Store}
    (hunshared : Unshared (store.step settings (request,outside)).sessions)
    (h : Undisturbed store.sessions x) :
    Undisturbed (store.step settings (request,outside)).sessions
      (x.observe request outside store.sessions
        (store.step settings (request,outside)).sessions) := by
  intro session hread hocc hactivated
  by_cases hdone : x.activated.isSome = true
  · rw [Trace.observe,if_pos hdone] at hactivated
    simp [hactivated] at hdone
  · rw [Trace.observe,if_neg hdone] at hread hactivated ⊢
    simp only at hread hactivated ⊢
    rcases h session hread hocc hactivated with hinterrupted | hkept
    · exact Or.inl (Or.inl hinterrupted)
    by_cases hi : Interrupts request outside store.sessions session.sessionId
    · exact Or.inl (Or.inr ⟨session,hread,hi⟩)
    -- the session is still kept after the operation
    right
    obtain ⟨r,hr,hid,hafter⟩ := hkept.step hi
    refine ⟨r,hr,hid,hafter.imp id fun ⟨hholds,hunoffered⟩ => ⟨hholds,?_⟩⟩
    split
    · intro table htable
      rcases List.mem_cons.mp htable with rfl | htable
      · exact unoffered_of_holds hunshared hr hid hholds
      · exact hunoffered table htable
    · exact hunoffered

theorem Settled.operate (h : Settled s) : Settled (s.operate settings request outside) := by
  have hsteps := @step_changes settings s.store request outside
  have hunshared := hsteps.invariant (I:=fun s => Unshared s.sessions)
    (fun _ _ hs hstep => unshared_change hs hstep) h.unshared
  exact ⟨hunshared,fun t => undisturbed_observe hunshared (h.undisturbed t)⟩

theorem Settled.setTrace (h : Settled s) {x : Trace} (hx : Undisturbed s.store.sessions x) :
    Settled (s.setTrace t x) := by
  refine ⟨h.unshared,fun u => ?_⟩
  by_cases hu : u = t
  · subst hu
    simpa [Service.setTrace] using hx
  · simpa [Service.setTrace,hu] using h.undisturbed u

theorem Settled.took (h : Settled s) (answer : Except RouterError RouterSession) :
    Settled (s.took t answer) := by
  cases answer with
  | ok record => exact h.setTrace fun session hread hocc hnone => by cases hnone
  | error e => exact h

/-- A session as it was read is in its place. -/
theorem undisturbed_read {store : Store} {principalId : String} :
    Undisturbed (store.step settings (.forPrincipal principalId,outside)).sessions
      { read := (Stateful.exec (forPrincipal settings principalId)
          ⟨store,outside⟩).1.toOption.join } := by
  have htriple := @forPrincipal_triple settings (.forPrincipal principalId) outside store rfl
    principalId ⟨store,outside⟩ ⟨.refl,fun n => ⟨n,rfl⟩⟩
  intro session hread hocc _
  rw [Store.step,Request.perform,Stateful.exec_discard]
  cases hfound : (Stateful.exec (forPrincipal settings principalId) ⟨store,outside⟩).1 with
  | error e =>
    rw [hfound] at hread
    cases hread
  | ok found =>
    rw [hfound] at hread htriple
    have hmem := (htriple.2.1.1 session hread).1
    exact Or.inr ⟨session,hmem,rfl,Or.inr ⟨⟨hocc,rfl,rfl⟩,by simp [Unoffered]⟩⟩

theorem settled_exec {knownSlots : List String} {a : Action} {x : Choice} (h : Settled s) :
    Settled (exec settings knownSlots t a x s).2 := by
  cases a with
  | forPrincipal principalId => exact h.operate.setTrace undisturbed_read
  | wake slotId requestId binding =>
    rw [exec]
    cases validateControl knownSlots slotId requestId with
    | error e => exact h
    | ok _ =>
      apply h.setTrace
      intro session hread hocc hactivated
      refine (h.undisturbed t session hread hocc hactivated).imp id ?_
      rintro ⟨r,hr,hid,hkept⟩
      refine ⟨r,hr,hid,hkept.imp id fun hheld => ⟨hheld.1,?_⟩⟩
      intro table htable
      obtain rfl := List.mem_singleton.mp htable
      exact unoffered_of_holds h.unshared hr hid hheld.1
  | activate sessionId => exact (h.took _).operate
  | clock => exact h

end Traces

/-- What the operations of others leave in the trace of a call. -/
def Trace.Kept (x x' : Trace) : Prop :=
  x'.read = x.read ∧ x'.wake = x.wake ∧ x'.activated = x.activated ∧
    (x.activated.isSome = true → x' = x)

section Contract

attribute [local simp] exec

variable (settings : Settings) (knownSlots : List String) (t : ℕ)

/-- The contract of one call: the others leave its trace to it, and it activates a session
that holds a slot only if the session was not interrupted. -/
def contract : Contract Action Answer ApiError Service where
  step a r s s' := (∃ x, exec settings knownSlots t a x s = (r,s')) ∧ Settled s ∧
    ∀ id, a = .activate id → ∀ r ∈ s.store.sessions, r.sessionId = id →
      r.status.occupies = true → ¬(s.traces t).interrupted
  rely s s' := (s.traces t).Kept (s'.traces t)
  guar s s' := ∀ u, u ≠ t → (s.traces u).Kept (s'.traces u)
  rely_refl _ := ⟨rfl,rfl,rfl,fun _ => rfl⟩
  rely_trans s s' s'' h h' := by
    refine ⟨h'.1.trans h.1,h'.2.1.trans h.2.1,h'.2.2.1.trans h.2.2.1,fun hdone => ?_⟩
    have hsame := h.2.2.2 hdone
    rw [h'.2.2.2 (by rw [hsame]; exact hdone),hsame]

variable {settings knownSlots t}

theorem Trace.kept_observe (x : Trace) (request : Request) (outside : Outside)
    (before after : SessionTable) : x.Kept (x.observe request outside before after) := by
  by_cases hdone : x.activated.isSome = true
  · rw [Trace.observe,if_pos hdone]
    exact ⟨rfl,rfl,rfl,fun _ => rfl⟩
  · rw [Trace.observe,if_neg hdone]
    exact ⟨rfl,rfl,rfl,fun h => absurd h hdone⟩

/-- The trace of another call, under an action of this one. -/
theorem exec_guar (a : Action) (x : Choice) (s : Service) :
    (contract settings knownSlots t).guar s (exec settings knownSlots t a x s).2 := by
  intro u hu
  have hrefl : (s.traces u).Kept (s.traces u) := ⟨rfl,rfl,rfl,fun _ => rfl⟩
  cases a with
  | forPrincipal principalId =>
    simp only [exec,Service.setTrace,Function.update_of_ne hu]
    exact Trace.kept_observe _ _ _ _ _
  | wake slotId requestId binding =>
    rw [exec]
    cases validateControl knownSlots slotId requestId with
    | error e => exact hrefl
    | ok _ =>
      simp only [Service.setTrace,Function.update_of_ne hu]
      exact hrefl
  | activate sessionId =>
    cases hanswer : (Stateful.exec (activate settings sessionId) ⟨s.store,x.outside⟩).1 with
    | error e =>
      simp only [exec,hanswer]
      exact Trace.kept_observe _ _ _ _ _
    | ok record =>
      simp only [exec,hanswer,Service.took,Service.operate,Service.setTrace,
        Function.update_of_ne hu]
      exact Trace.kept_observe _ _ _ _ _
  | clock => exact hrefl

/-- A call that ends with the report of a session has woken its slot. -/
def Reported (t : ℕ) (r : Except ApiError Reply) (s : Service) : Prop :=
  ∀ reply payload, r = .ok reply → reply.body = .session payload → (s.traces t).Woken

theorem woken_stable {s s' : Service} (h : (s.traces t).Woken)
    (hr : (contract settings knownSlots t).rely s s') : (s'.traces t).Woken := by
  have hsame : s'.traces t = s.traces t := by
    obtain ⟨wake,-,record,hrecord,-⟩ := h
    apply hr.2.2.2
    rw [Option.mem_def.mp hrecord]
    rfl
  rw [hsame]
  exact h

theorem refused_triple {P : Service → Prop} (request : ActivateRequest) (code : ℕ)
    (errorCode : String) :
    (contract settings knownSlots t).Triple P (refused request code errorCode) (Reported t) := by
  intro s _ s' _ reply payload hreply hbody
  cases hreply
  cases hbody

/-- An action with handlers of its own: the call goes on only where the action answers. -/
theorem attempt_triple {P : Service → Prop} {request : ActivateRequest} {a : Action}
    {failed : ApiError → String} {k : Answer a → Call Reply} {B : Answer a → Service → Prop}
    (hP : (contract settings knownSlots t).Stable P)
    (h : ∀ s x s', P s → (contract settings knownSlots t).step a (.ok x) s s' → B x s')
    (hk : ∀ x, (contract settings knownSlots t).Triple (B x) (k x) (Reported t)) :
    (contract settings knownSlots t).Triple P (attempt request a failed k) (Reported t) := by
  intro s hs s₁ hr
  have hs₁ := hP s s₁ hs hr
  refine ⟨trivial,fun answer s₂ hstep => ⟨?_,?_⟩⟩
  · obtain ⟨⟨x,hx⟩,-⟩ := hstep
    have hguar := @exec_guar settings knownSlots t a x s₁
    rw [hx] at hguar
    exact hguar
  · cases answer with
    | ok x => exact hk x s₂ (h s₁ x s₂ hs₁ hstep)
    | error e => exact refused_triple (P:=fun _ => True) request 200 (failed e) s₂ trivial

/-- Once the slot of the session was woken, under its binding. -/
def Ready (t : ℕ) (session : RouterSession) (s : Service) : Prop :=
  (s.traces t).read = some session ∧ (s.traces t).activated = none ∧
    session.status.occupies = true ∧ ∃ wake ∈ (s.traces t).wake,
      session.slotId = some wake.slotId ∧ session.binding = some wake.binding

theorem ready_stable (session : RouterSession) :
    (contract settings knownSlots t).Stable (Ready t session) := by
  rintro s s' ⟨hread,hnone,hocc,hwake⟩ hr
  refine ⟨hr.1.trans hread,hr.2.2.1.trans hnone,hocc,?_⟩
  rw [hr.2.1]
  exact hwake

/-- The activation itself: what was activated is what was read, and so what was woken. -/
theorem woken_of_activated {session : RouterSession} {s s' : Service} {record : RouterSession}
    (h : Ready t session s) (hstep : (contract settings knownSlots t).step
      (.activate session.sessionId) (.ok record) s s') : (s'.traces t).Woken := by
  obtain ⟨⟨x,hx⟩,hsettled,hfree⟩ := hstep
  obtain ⟨hread,hnone,hocc,wake,hwake,hslot,hbinding⟩ := h
  cases hanswer : (Stateful.exec (activate settings session.sessionId) ⟨s.store,x.outside⟩).1 with
  | error e =>
    simp only [exec,hanswer] at hx
    cases hx
  | ok activated =>
    simp only [exec,hanswer,Prod.mk.injEq] at hx
    obtain ⟨hrecord,rfl⟩ := hx
    cases hrecord
    obtain ⟨r,hr,hid,hrocc,hsame,hrslot,hrbinding⟩ := activate_ok hanswer
    have hin : ¬(s.traces t).interrupted := hfree session.sessionId rfl r hr hid hrocc
    obtain ⟨r',hr',hid',hkept⟩ :=
      (hsettled.undisturbed t session hread hocc hnone).resolve_left hin
    obtain rfl := Table.eq_of_key hr' hr (hid'.trans hid.symm)
    rcases hkept with (hended | hended) | ⟨hholds,hunoffered⟩
    · simp [hended,SessionStatus.occupies] at hrocc
    · simp [hended,SessionStatus.occupies] at hrocc
    have htrace : (((s.took t (.ok record)).operate settings (.activate session.sessionId)
        x.outside).traces t) = { s.traces t with activated := some record } := by
      simp [Service.took,Service.operate,Service.setTrace,Trace.observe]
    rw [htrace]
    refine ⟨wake,hwake,record,rfl,?_,?_,?_⟩
    · rw [hrslot,hholds.2.1,hslot]
    · rw [hrbinding,hholds.2.2,hbinding]
    · intro table htable x hx hoffered hxslot
      rw [hsame]
      exact hunoffered table htable x hx hoffered (hxslot.trans hslot.symm)

theorem activateWoken_triple (request : ActivateRequest) (session : RouterSession) :
    (contract settings knownSlots t).Triple (Ready t session)
      (activateWoken request session.sessionId) (Reported t) := by
  have hstable : (contract settings knownSlots t).Stable fun s => (s.traces t).Woken :=
    fun _ _ h hr => woken_stable h hr
  apply attempt_triple (B:=fun _ s => (s.traces t).Woken) (ready_stable session)
  · exact fun s record s' h hstep => woken_of_activated h hstep
  intro activated
  apply attempt_triple (B:=fun _ s => (s.traces t).Woken) hstable
  · rintro s now s' h ⟨⟨x,hx⟩,-⟩
    cases hx
    exact h
  · exact fun now s h s' hr reply payload _ _ => woken_stable h hr

/-- The call has read the session, and not come further. -/
def Found (t : ℕ) (found : Option RouterSession) (s : Service) : Prop :=
  (s.traces t).read = found ∧ (s.traces t).activated = none

theorem found_stable (found : Option RouterSession) :
    (contract settings knownSlots t).Stable (Found t found) :=
  fun _ _ h hr => ⟨hr.1.trans h.1,hr.2.2.1.trans h.2⟩

theorem activateFound_triple (request : ActivateRequest) (session : RouterSession) :
    (contract settings knownSlots t).Triple (Found t (some session))
      (activateFound knownSlots request session) (Reported t) := by
  rw [activateFound]
  by_cases hstatus : session.status ≠ .offered ∧ session.status ≠ .active
  · rw [if_pos hstatus]
    exact refused_triple request 200 _
  have hocc : session.status.occupies = true := by
    cases hs : session.status <;> simp [hs,SessionStatus.occupies] at hstatus ⊢
  rw [if_neg hstatus]
  cases hbinding : session.binding with
  | none => exact refused_triple request 200 _
  | some binding =>
    cases hslot : session.slotId with
    | none => exact refused_triple request 200 _
    | some slotId =>
      simp only
      by_cases hknown : slotId ∉ knownSlots
      · rw [if_pos hknown]
        exact refused_triple request 200 _
      rw [if_neg hknown]
      apply attempt_triple (B:=fun _ => Ready t session) (found_stable _)
      · rintro s result s' ⟨hread,hnone⟩ ⟨⟨x,hx⟩,-⟩
        rw [exec] at hx
        cases hvalid : validateControl knownSlots slotId request.requestId with
        | error e =>
          rw [hvalid] at hx
          cases hx
        | ok _ =>
          rw [hvalid] at hx
          have hs' : s' = s.setTrace t { s.traces t with
              wake := some ⟨slotId,binding⟩, seen := [s.store.sessions] } :=
            (congrArg Prod.snd hx).symm
          subst hs'
          simp [Ready,Service.setTrace,hread,hnone,hocc,hslot,hbinding]
      · intro result
        cases accepted result with
        | error e =>
          intro s _ s' _ reply payload hreply
          cases hreply
        | ok yes =>
          cases yes with
          | false => exact refused_triple request 200 _
          | true => exact activateWoken_triple request session

theorem activateSession_triple (request : ActivateRequest) :
    (contract settings knownSlots t).Triple (fun _ => True)
      (activateSession knownSlots request) (Reported t) := by
  rw [activateSession]
  cases request.resolved with
  | none => exact refused_triple request 401 _
  | some principalId =>
    apply attempt_triple (B:=Found t) (fun _ _ _ _ => trivial)
    · rintro s found s' - ⟨⟨x,hx⟩,-⟩
      have hs' := congrArg Prod.snd hx
      have hfound := congrArg Prod.fst hx
      simp only [exec] at hs' hfound
      cases hanswer : (Stateful.exec (forPrincipal settings principalId) ⟨s.store,x.outside⟩).1 with
      | error e =>
        rw [hanswer] at hfound
        cases hfound
      | ok y =>
        rw [hanswer] at hfound hs'
        cases hfound
        subst hs'
        simp [Found,Service.setTrace,Except.toOption]
    · intro found
      cases found with
      | none => exact refused_triple request 200 _
      | some session => exact activateFound_triple request session

end Contract

section Runs

variable {settings : Settings} {knownSlots : List String}

theorem compatible : Compatible (α:=Reply) (machine settings knownSlots)
    (contract settings knownSlots) fun c e => Uninterrupted c e ∧ Settled c.shared where
  own := by
    rintro c t x a k r s hk he ⟨hfree,hsettled⟩
    refine ⟨⟨x,Option.some.inj he⟩,hsettled,?_⟩
    rintro id rfl
    exact hfree id k hk
  others t u s s' htu hg := hg u htu.symm
  environment := by
    rintro c v s hs - u
    obtain rfl := Option.some.inj hs
    exact Trace.kept_observe _ _ _ _ _

/-- What every step keeps: the contracts of the calls, and the state of the sessions that
they have read. -/
def Guarded (settings : Settings) (knownSlots : List String) (c : World) : Prop :=
  AllSafe (contract settings knownSlots) Reported c ∧ Settled c.shared

theorem guarded_next (c d : World) (e : Event Choice (Request × Outside))
    (h : Guarded settings knownSlots c) (hQ : Uninterrupted c e)
    (hn : (machine settings knownSlots).next c e = some d) : Guarded settings knownSlots d := by
  refine ⟨allSafe_next compatible c d e h.1 ⟨hQ,h.2⟩ hn,?_⟩
  cases e with
  | call t x =>
    obtain ⟨a,k,r,s,-,he,rfl⟩ := Machine.next_call hn
    have hexec := @settled_exec settings c.shared t knownSlots a x h.2
    rw [Option.some.inj he] at hexec
    exact hexec
  | environment v =>
    obtain ⟨s,hs,rfl⟩ := Machine.next_environment hn
    obtain rfl := Option.some.inj hs
    exact h.2.operate

theorem Guarded.wokenOnly {c : World} (h : Guarded settings knownSlots c) : WokenOnly c :=
  fun _ reply payload ht hbody _ => h.1.returned ht reply payload rfl hbody

/-- Over every interleaving whose steps meet the condition, from every state of the store that
a router reaches. -/
theorem wokenOnly_throughout (history : List RouterSessions.Event) {store : Store}
    (hr : Router.initial.run history = .up settings store) (requests : ℕ → ActivateRequest)
    (es : List (Event Choice (Request × Outside)))
    (h : (machine settings knownSlots).EachStep Uninterrupted
      (World.boot knownSlots store requests) es) :
    (machine settings knownSlots).Throughout WokenOnly (World.boot knownSlots store requests)
      es := by
  have hunshared := unshared_run history
  rw [hr] at hunshared
  have hboot : Guarded settings knownSlots (World.boot knownSlots store requests) := by
    refine ⟨fun t => activateSession_triple (requests t) _ trivial,hunshared,fun t => ?_⟩
    intro session hread
    cases hread
  exact (Machine.throughout_of_step guarded_next hboot h).mono fun c => Guarded.wokenOnly

/-- The steps of a call never interrupt its own session. -/
theorem interrupted_call {c d : World} {t : ℕ} {x : Choice}
    (h : ¬(c.shared.traces t).interrupted)
    (hn : (machine settings knownSlots).next c (.call t x) = some d) :
    ¬(d.shared.traces t).interrupted := by
  obtain ⟨a,k,r,s,-,he,rfl⟩ := Machine.next_call hn
  have hs : s = (exec settings knownSlots t a x c.shared).2 :=
    (congrArg Prod.snd (Option.some.inj he)).symm
  subst hs
  cases a with
  | forPrincipal principalId => simp [exec,Service.setTrace]
  | wake slotId requestId binding =>
    rw [exec]
    cases validateControl knownSlots slotId requestId with
    | error e => exact h
    | ok _ => simpa [Service.setTrace] using h
  | activate sessionId =>
    have hown : ∀ (y : Trace) (before after : SessionTable), ¬y.interrupted →
        ¬(y.observe (.activate sessionId) x.outside before after).interrupted := by
      intro y before after hy
      rw [Trace.observe]
      split
      · exact hy
      · simp [hy,Interrupts,Request.polls]
    cases hanswer : (Stateful.exec (activate settings sessionId) ⟨c.shared.store,x.outside⟩).1 with
    | error e =>
      simp only [exec,hanswer]
      exact hown _ _ _ h
    | ok record =>
      simp only [exec,hanswer,Service.took,Service.operate,Service.setTrace,Function.update_self]
      exact hown _ _ _ h
  | clock => exact h

/-- A call that nobody comes in between. -/
theorem uninterrupted_alone {c : World} {t : ℕ} (h : ¬(c.shared.traces t).interrupted)
    (xs : List Choice) :
    (machine settings knownSlots).EachStep Uninterrupted c (xs.map (.call t)) := by
  induction xs generalizing c with
  | nil => trivial
  | cons x xs ih => exact ⟨fun _ _ _ _ _ _ _ => h,fun d hd => ih (interrupted_call h hd)⟩

/-- The supervisor answers that the browser is ready. -/
def ready (now : Time) : Choice :=
  ⟨.still now,.answered 200 false (some (.obj [("status",.str "ready")]))⟩

def aliceRequests : ℕ → ActivateRequest := fun _ => ⟨some "alice","r1"⟩

/-- The store of a router, and nothing while it is down. -/
def storeOf : Router → Store
  | .up _ s => s
  | .down file => ⟨.empty,1,file⟩

theorem wokenOnly_alone : (machine oneSlot ["slot-1"]).Throughout WokenOnly
    (World.boot ["slot-1"] (storeOf (Router.initial.run offered)) aliceRequests)
    ([ready 1,ready 2,ready 3,ready 4].map (.call 0)) :=
  wokenOnly_throughout offered rfl aliceRequests _ (uninterrupted_alone (by simp [World.boot]) _)

/-- A router with two slots. -/
theorem firstSlot_bounded :
    (boundedText "slot-1" && boundedText "http://slot-1" && boundedText "browser-1") = true := by
  decide +kernel

theorem firstSlot_http :
    ("http://slot-1".startsWith "http://" || "http://slot-1".startsWith "https://") = true := by
  decide +kernel

def twoSlots : Settings where
  slots := [⟨"slot-1","http://slot-1","browser-1",firstSlot_bounded,firstSlot_http⟩,
    ⟨"slot-2","http://slot-2","browser-2",by decide +kernel,by decide +kernel⟩]
  offerTtl := 60
  sessionTtl := 3600
  backoffTtl := 30
  slots_ne := by simp
  slotIds_nodup := by decide +kernel
  browserIds_nodup := by decide +kernel
  offerTtl_pos := oneSlot.offerTtl_pos
  sessionTtl_pos := oneSlot.sessionTtl_pos
  backoffTtl_pos := oneSlot.backoffTtl_pos

/-- Carol is active on the second slot, alice has an offer of the first one until second 60,
and bob waits. -/
def crowded : List RouterSessions.Event :=
  [.construct twoSlots (.still 0),.call (.enqueue "alice" "r1" none) (.still 0),
    .call (.enqueue "carol" "r2" none) (.still 0),.call (.activate "q-2") (.still 0),
    .call (.enqueue "bob" "r3" none) (.still 0)]

/-- While alice's slot is woken, her offer lapses and the slot is offered to bob; then carol
leaves, and alice is offered the other slot. -/
def overtaken : List (Event Choice (Request × Outside)) :=
  [.call 0 (ready 1),.call 0 (ready 1),.environment (.forPrincipal "bob",.still 100),
    .environment (.leave "q-2",.still 101),.environment (.forPrincipal "alice",.still 102),
    .call 0 (ready 103),.call 0 (ready 103)]

/-- The slot that a call has woken, and the one it has activated. -/
def Trace.slots (x : Trace) : Option String × Option String :=
  (x.wake.map Wake.slotId,x.activated.bind RouterSession.slotId)

/-- The status that a finished call reports. -/
def reported (p : Call Reply) : Option String :=
  match p with
  | .ret ⟨_,_,.session payload⟩ => some payload.status
  | _ => none

theorem reported_eq_some {p : Call Reply} {status : String} (h : reported p = some status) :
    ∃ reply payload, p = .ret reply ∧ reply.body = .session payload ∧ payload.status = status := by
  cases p with
  | ret reply =>
    obtain ⟨code,requestId,body⟩ := reply
    cases body with
    | failed errorCode => cases h
    | session payload => exact ⟨_,payload,rfl,rfl,Option.some.inj h⟩
  | raise e => cases h
  | act a k => cases h

theorem overtaken_mismatch : ¬∀ (settings : Settings) (knownSlots : List String)
    (history : List RouterSessions.Event) (store : Store),
    Router.initial.run history = .up settings store → ∀ (requests : ℕ → ActivateRequest)
      (es : List (Event Choice (Request × Outside))),
      (machine settings knownSlots).Throughout WokenOnly (World.boot knownSlots store requests)
        es := by
  intro h
  have hrun := h twoSlots ["slot-1","slot-2"] crowded (storeOf (Router.initial.run crowded)) rfl
    aliceRequests overtaken
  have hlast : ((machine twoSlots ["slot-1","slot-2"]).run (World.boot ["slot-1","slot-2"]
      (storeOf (Router.initial.run crowded)) aliceRequests) overtaken).map
        (fun d => (reported (d.calls 0),(d.shared.traces 0).slots)) =
      some (some "active",some "slot-1",some "slot-2") := by decide +kernel
  obtain ⟨d,hd,hend⟩ := Option.map_eq_some_iff.mp hlast
  obtain ⟨hreported,hslots⟩ := Prod.mk.inj hend
  obtain ⟨reply,payload,hret,hbody,hstatus⟩ := reported_eq_some hreported
  obtain ⟨wake,hwake,record,hrecord,hslot,-⟩ :=
    Machine.throughout_last hrun hd 0 reply payload hret hbody hstatus
  rw [Trace.slots,Option.mem_def.mp hwake,Option.mem_def.mp hrecord] at hslots
  have hwoken : wake.slotId = "slot-1" := by simpa using congrArg Prod.fst hslots
  have hactive : record.slotId = some "slot-2" := congrArg Prod.snd hslots
  rw [hactive,hwoken] at hslot
  simp at hslot

end Runs
end SlotActivation
end CloudBrowser
