import CloudBrowser.RestartEquivalence
import CloudBrowser.Runs

/-! The state file against the memory of the router. Most operations write the file whenever
they have changed a session; the ones that return early, and a start of the router, do not. -/
namespace CloudBrowser
namespace RouterSessions

open Stateful Keyed

/-- The disk takes every write. -/
def Outside.Sound (o : Outside) : Prop := ∀ n, o.writes n = true

/-- The state file is what the memory would be written as. -/
def Store.InSync (s : Store) : Prop := s.file = some (document s) ∨ s = ⟨.empty,1,none⟩

theorem inSync_saved (s : Store) : s.saved.InSync := Or.inl rfl

section Effects

variable {settings : Settings} {s : Store} {o : Outside}

/-- What a poll finds to do. -/
def pollChanges (settings : Settings) (t : SessionTable) (now : Time) : Bool :=
  anyLapsed t now || 0 < assignable settings (expireAll t now)

/-- The store after a poll, the disk taking the write. -/
def Store.polled (settings : Settings) (s : Store) (o : Outside) : Store :=
  if pollChanges settings s.sessions (o.readings 0) then
    (s.withSessions (assignAll settings (expireAll s.sessions (o.readings 0))
      (o.readings 1))).saved
  else s

/-- The record that `for_principal` prefers. -/
def pick (principalId : String) (t : SessionTable) : Option RouterSession :=
  (t.rows.filter fun r => r.principalId = principalId && r.status.live).argmin fun r =>
    toLex (r.status.order,-r.enqueuedAt)

/-- What `roster` lists. -/
def listing (t : SessionTable) : List RosterEntry :=
  ((t.rows.filter fun r => r.status.live).insertionSort RouterSession.before).map fun r =>
    ⟨r.status,r.displayEmail⟩

theorem exec_persist_sound (h : o.Sound) :
    exec persistLocked ⟨s,o⟩ = (.ok ⟨⟩,⟨s.saved,o.attempt⟩) := by
  rw [exec_persistLocked]
  exact if_pos (h 0)

/-- Where a poll finds nothing to do, it leaves the sessions as they are. -/
theorem poll_quiet {t : SessionTable} {now now' : Time}
    (h : pollChanges settings t now = false) : assignAll settings (expireAll t now) now' = t := by
  simp only [pollChanges,Bool.or_eq_false_iff,decide_eq_false_iff_not] at h
  rw [expireAll_of_none h.1] at h ⊢
  exact assignAll_of_none (by omega)

/-- The poll, as `for_principal` and `roster` make it. -/
theorem exec_poll {α : Type} (h : o.Sound) (x : SessionTable → α) :
    exec (do
        let expired ← expireLocked
        let promoted ← assignWaitersLocked settings
        let t ← sessions
        persistIf (expired || 0 < promoted)
        return x t) ⟨s,o⟩ =
      (.ok (x (s.polled settings o).sessions),⟨s.polled settings o,
        if pollChanges settings s.sessions (o.readings 0) then o.tick.tick.attempt
        else o.tick.tick⟩) := by
  by_cases hchanged : pollChanges settings s.sessions (o.readings 0) = true
  · have hif : (anyLapsed s.sessions (o.readings 0) ||
        0 < assignable settings (expireAll s.sessions (o.readings 0))) = true := hchanged
    simp only [exec_bind,exec_expireLocked,exec_assignWaitersLocked,exec_sessions,
      Store.withSessions_sessions,hif,persistIf,if_true,exec_persistLocked,Outside.tick_writes,h 0,
      exec_pure,Store.polled,hchanged]
    rfl
  · have hquiet : pollChanges settings s.sessions (o.readings 0) = false := by simpa using hchanged
    have hif : (anyLapsed s.sessions (o.readings 0) ||
        0 < assignable settings (expireAll s.sessions (o.readings 0))) = false := hquiet
    have hsame : assignAll settings (expireAll s.sessions (o.readings 0)) (o.readings 1) =
        s.sessions := poll_quiet hquiet
    simp only [exec_bind,exec_expireLocked,exec_assignWaitersLocked,exec_sessions,
      Store.withSessions_sessions,hif,persistIf,exec_pure,Store.polled,hquiet]
    simp only [Outside.tick_readings,hsame]
    rfl

theorem exec_forPrincipal {p : String} (h : o.Sound) (hp : readable p = true) :
    exec (forPrincipal settings p) ⟨s,o⟩ =
      (.ok (pick p (s.polled settings o).sessions),⟨s.polled settings o,
        if pollChanges settings s.sessions (o.readings 0) then o.tick.tick.attempt
        else o.tick.tick⟩) := by
  have hcheck : validateText "principal_id" p = .ok () := by rw [validateText_eq,if_pos hp]
  rw [forPrincipal,exec_bind,exec_check_ok hcheck]
  exact exec_poll h (pick p)

end Effects

/-- The file is in step with the memory, and the disk goes on taking writes. -/
def Flushed (w : World) : Prop := w.store.InSync ∧ w.outside.Sound

section Rules

variable {settings : Settings} {α : Type} {Q : Except RouterError α → World → Prop}

theorem inSync_polled {s : Store} {o : Outside} (h : s.InSync) : (s.polled settings o).InSync := by
  rw [Store.polled]
  split
  · exact inSync_saved _
  · exact h

theorem persist_flushes {x : α} :
    Triple (fun w => w.outside.Sound) (do persistLocked; return x) fun _ => Flushed := by
  rintro ⟨s,o⟩ h
  rw [exec_bind,exec_persist_sound h]
  exact ⟨inSync_saved s,fun n => h (n+1)⟩

theorem sound_clock {f : Time → Operation α}
    (h : ∀ now, Triple (fun w => w.outside.Sound) (f now) Q) :
    Triple (fun w => w.outside.Sound) (clock >>= f) Q :=
  fun w hw => h _ ⟨w.store,w.outside.tick⟩ hw

/-- What most operations end with flushes, whatever they have done before. -/
theorem replace_flushes {record : RouterSession} {x : α} :
    Triple (fun w => w.outside.Sound)
      (do
        let t ← sessions
        setSessions (t.put record)
        persistLocked
        return x) fun _ => Flushed :=
  fun w hw => persist_flushes ⟨w.store.withSessions (w.store.sessions.put record),w.outside⟩ hw

theorem requireLocked_frame (P : World → Prop) (sessionId : String) :
    Keeps P (requireLocked sessionId) := by
  intro w hw
  rw [exec_requireLocked]
  split
  · split <;> exact hw
  · exact hw

theorem poll_flushes (x : SessionTable → α) :
    Keeps Flushed (do
        let expired ← expireLocked
        let promoted ← assignWaitersLocked settings
        let t ← sessions
        persistIf (expired || 0 < promoted)
        return x t) := by
  rintro ⟨s,o⟩ ⟨hsync,hsound⟩
  rw [exec_poll hsound]
  refine ⟨inSync_polled hsync,?_⟩
  show Outside.Sound (if _ then _ else _)
  split
  · exact fun n => hsound (n+1)
  · exact hsound

theorem forPrincipal_flushes (p : String) : Keeps Flushed (forPrincipal settings p) := by
  apply Triple.check_bind
  · exact fun _ _ => poll_flushes (pick p)
  · exact fun _ _ h => h

theorem roster_flushes : Keeps Flushed (roster settings) := by
  have h := @poll_flushes settings _ listing
  simpa only [roster,listing] using h

theorem activate_flushes (sessionId : String) : Keeps Flushed (activate settings sessionId) := by
  apply Keeps.bind (requireLocked_frame Flushed sessionId)
  intro record
  by_cases hactive : record.status = .active
  · rw [if_pos hactive]
    exact fun _ h => h
  by_cases hoffered : record.status = .offered
  · rw [if_neg hactive,if_neg (not_not.mpr hoffered)]
    exact (sound_clock fun now => replace_flushes).conseq (fun _ h => h.2) fun _ _ h => h
  · rw [if_neg hactive,if_pos hoffered]
    exact fun _ h => h

theorem leave_flushes (sessionId : String) : Keeps Flushed (leave sessionId) := by
  apply Keeps.bind (requireLocked_frame Flushed sessionId)
  exact fun record => replace_flushes.conseq (fun _ h => h.2) fun _ _ h => h

theorem backoff_flushes (sessionId : String) : Keeps Flushed (backoff settings sessionId) := by
  apply Keeps.bind (requireLocked_frame Flushed sessionId)
  intro record
  refine Triple.conseq (sound_clock fun now => ?_) (fun _ h => h.2) fun _ _ h => h
  exact fun w hw => persist_flushes ⟨_,w.outside.tick⟩ hw

theorem getSession_flushes (sessionId : String) : Keeps Flushed (getSession sessionId) := by
  rintro ⟨s,o⟩ ⟨hsync,hsound⟩
  by_cases hlapsed : anyLapsed s.sessions (o.readings 0) = true
  · have hsaved := exec_persist_sound (s:=s.withSessions (expireAll s.sessions (o.readings 0)))
      (o:=o.tick) hsound
    simp only [getSession,exec_bind,exec_expireLocked,exec_sessions,hlapsed,persistIf,if_true,hsaved]
    exact ⟨inSync_saved _,fun n => hsound (n+1)⟩
  · have hsame : expireAll s.sessions (o.readings 0) = s.sessions :=
      expireAll_of_none (by simpa using hlapsed)
    simp only [getSession,exec_bind,exec_expireLocked,exec_sessions,hlapsed,persistIf,hsame]
    exact ⟨hsync,hsound⟩

theorem renew_flushes (p : String) : Keeps Flushed (renew settings p) := by
  apply Triple.check_bind
  · intro _ _
    apply Keeps.bind (forPrincipal_flushes p)
    intro found
    split
    · exact fun _ h => h
    split
    · exact fun _ h => h
    · exact (sound_clock fun now => replace_flushes).conseq (fun _ h => h.2) fun _ _ h => h
  · exact fun _ _ h => h

end Rules

section Requests

variable {settings : Settings} {s : Store} {o : Outside}

def textsReadable (principalId requestId : String) (displayEmail : Option String) : Bool :=
  readable principalId && readable requestId && displayEmail.all readable

/-- A call that finds a session lapsed, and returns before it would write the file. -/
def LeavesBehind (settings : Settings) (s : Store) (o : Outside) : Request → Prop
  | .enqueue p r e => textsReadable p r e = true ∧ anyLapsed s.sessions (o.readings 0) = true ∧
      pollChanges settings (expireAll s.sessions (o.readings 0)) (o.readings 1) = false ∧
      ∃ record ∈ expireAll s.sessions (o.readings 0),
        record.principalId = p ∧ record.status.live = true
  | .promoteNext => anyLapsed s.sessions (o.readings 0) = true ∧
      assignable settings (expireAll s.sessions (o.readings 0)) = 0
  | _ => False

theorem expired_inSync (h : s.InSync) (hlapsed : anyLapsed s.sessions (o.readings 0) ≠ true) :
    (s.withSessions (expireAll s.sessions (o.readings 0))).InSync := by
  have hsame : expireAll s.sessions (o.readings 0) = s.sessions :=
    expireAll_of_none (by simpa using hlapsed)
  rw [hsame]
  exact h

theorem promoteNext_flushes (h : Flushed ⟨s,o⟩) (hb : ¬LeavesBehind settings s o .promoteNext) :
    Flushed (exec (promoteNext settings) ⟨s,o⟩).2 := by
  have hquiet : assignable settings (expireAll s.sessions (o.readings 0)) = 0 →
      Flushed ⟨s.withSessions (expireAll s.sessions (o.readings 0)),o.tick⟩ :=
    fun hnone => ⟨expired_inSync h.1 fun hlapsed => hb ⟨hlapsed,hnone⟩,h.2⟩
  rw [assignable] at hquiet
  simp only [promoteNext,exec_bind,exec_expireLocked,exec_sessions,Store.withSessions_sessions]
  cases hqueue : queue (expireAll s.sessions (o.readings 0)) with
  | nil => exact hquiet (by simp [hqueue])
  | cons record records =>
    cases hfree : free settings (expireAll s.sessions (o.readings 0)) with
    | nil => exact hquiet (by simp [hfree])
    | cons slot slots =>
      have hwrite : o.tick.tick.Sound := h.2
      simp only [exec_bind,exec_clock,exec_setSessions,exec_persist_sound hwrite,exec_pure]
      exact ⟨inSync_saved _,fun n => hwrite (n+1)⟩

/-- What `enqueue` goes on to do when the principal has no session. -/
def joinQueue (settings : Settings) (principalId requestId : String)
    (displayEmail : Option String) : Operation RouterSession := do
  let sessionId ← newIdLocked
  let now ← clock
  let record : RouterSession :=
    { sessionId := sessionId, requestId := requestId, principalId := principalId,
      status := .waiting, enqueuedAt := now, displayEmail := displayEmail }
  let t ← sessions
  setSessions (t.put record)
  let _ ← assignWaitersLocked settings
  persistLocked
  let t ← sessions
  match t.find sessionId with
  | some record => return record
  | none => throw (.keyError sessionId)

/-- The store after `joinQueue`, which gives the session the id `sessionId`. -/
def Store.joined (settings : Settings) (s : Store) (o : Outside) (sessionId p r : String)
    (e : Option String) (next : ℕ) : Store :=
  Store.saved ⟨assignAll settings (s.sessions.put
    { sessionId := sessionId, requestId := r, principalId := p, status := .waiting,
      enqueuedAt := o.readings 0, displayEmail := e }) (o.readings 1),next,s.file⟩

variable {p r : String} {e : Option String}

theorem exec_newIdLocked (h : Sound s.sessions s.nextSequence) :
    exec newIdLocked ⟨s,o⟩ =
      (.ok (sessionName s.nextSequence),⟨{ s with nextSequence := s.nextSequence+1 },o⟩) := by
  have hfree : sessionName s.nextSequence ∉ s.sessions.rows.map RouterSession.sessionId := by
    intro hmem
    obtain ⟨x,hx,hid⟩ := List.mem_map.mp hmem
    obtain ⟨n,hn,hname⟩ := (h.2 x hx).named
    have heq := sessionName_injective (hid.symm.trans hname)
    omega
  have hfirst : Table.firstFree sessionName (s.sessions.rows.map RouterSession.sessionId)
      (s.sessions.rows.map RouterSession.sessionId).length s.nextSequence = s.nextSequence := by
    cases (s.sessions.rows.map RouterSession.sessionId).length with
    | zero => rfl
    | succ n => rw [Table.firstFree,if_neg hfree]
  simp only [newIdLocked,exec_bind,exec_get,exec_set,exec_pure,hfirst]

theorem joinQueue_store (h : o.Sound) (hs : Sound s.sessions s.nextSequence) :
    (exec (joinQueue settings p r e) ⟨s,o⟩).2 =
      ⟨s.joined settings o (sessionName s.nextSequence) p r e (s.nextSequence+1),
        o.tick.tick.attempt⟩ := by
  have hwrite : o.tick.tick.Sound := h
  simp only [joinQueue,exec_bind,exec_newIdLocked hs,exec_clock,exec_sessions,exec_setSessions,
    exec_assignWaitersLocked,exec_persist_sound hwrite]
  split <;> rfl

/-- The store in which `enqueue` looks for a session of the principal. -/
def Store.searched (settings : Settings) (s : Store) (o : Outside) : Store :=
  (s.withSessions (expireAll s.sessions (o.readings 0))).polled settings o.tick

theorem enqueue_unread (h : textsReadable p r e = false) (P : World → Prop) :
    Keeps P (enqueue settings p r e) := by
  refine Triple.check_bind (fun _ hprincipal => ?_) fun _ _ h => h
  refine Triple.check_bind (fun _ hrequest => ?_) fun _ _ h => h
  refine Triple.check_bind (fun _ hemail => ?_) fun _ _ h => h
  have hread : e.all readable = true := by
    cases e with
    | none => rfl
    | some email => simpa using readable_of_validateText hemail
  simp [textsReadable,readable_of_validateText hprincipal,readable_of_validateText hrequest,
    hread] at h

/-- A call of `enqueue` that passes validation: a first expiry, the search, and a new record
unless the search has found one. -/
theorem exec_enqueue (h : o.Sound) (ht : textsReadable p r e = true) :
    ∃ o', o'.Sound ∧ (exec (enqueue settings p r e) ⟨s,o⟩).2 =
      match pick p (s.searched settings o).sessions with
      | some _ => ⟨s.searched settings o,o'⟩
      | none => (exec (joinQueue settings p r e) ⟨s.searched settings o,o'⟩).2 := by
  simp only [textsReadable,Bool.and_eq_true] at ht
  have hprincipal : validateText "principal_id" p = .ok () := by rw [validateText_eq,if_pos ht.1.1]
  have hrequest : validateText "request_id" r = .ok () := by rw [validateText_eq,if_pos ht.1.2]
  have hemail : e.elim (.ok ()) (validateText "display_email") = .ok () := by
    cases e with
    | none => rfl
    | some email =>
      have hread : readable email = true := by simpa using ht.2
      rw [Option.elim,validateText_eq,if_pos hread]
  have hsearch := @exec_forPrincipal settings
    (s.withSessions (expireAll s.sessions (o.readings 0))) o.tick p h ht.1.1
  obtain ⟨o',ho',hsearch⟩ : ∃ o', o'.Sound ∧ exec (forPrincipal settings p)
      ⟨s.withSessions (expireAll s.sessions (o.readings 0)),o.tick⟩ =
        (.ok (pick p (s.searched settings o).sessions),⟨s.searched settings o,o'⟩) := by
    refine ⟨_,?_,hsearch⟩
    split
    · exact fun n => h (n+1)
    · exact h
  refine ⟨o',ho',?_⟩
  rw [enqueue,exec_bind,exec_check_ok hprincipal]
  simp only
  rw [exec_bind,exec_check_ok hrequest]
  simp only
  rw [exec_bind,exec_check_ok hemail]
  simp only
  rw [exec_bind,exec_expireLocked]
  simp only
  rw [exec_bind,hsearch]
  simp only
  cases pick p (s.searched settings o).sessions <;> rfl

theorem mem_of_pick {t : SessionTable} {record : RouterSession} (h : pick p t = some record) :
    record ∈ t ∧ record.principalId = p ∧ record.status.live = true := by
  have hmem := List.argmin_mem h
  simp only [List.mem_filter,Bool.and_eq_true,decide_eq_true_eq] at hmem
  exact hmem

theorem enqueue_flushes (h : Flushed ⟨s,o⟩) (hb : ¬LeavesBehind settings s o (.enqueue p r e))
    (hs : Sound (s.searched settings o).sessions (s.searched settings o).nextSequence) :
    Flushed (exec (enqueue settings p r e) ⟨s,o⟩).2 := by
  by_cases ht : textsReadable p r e = true
  · obtain ⟨o',ho',henqueue⟩ := @exec_enqueue settings s o p r e h.2 ht
    rw [henqueue]
    cases hfound : pick p (s.searched settings o).sessions with
    | none =>
      simp only
      rw [joinQueue_store ho' hs]
      exact ⟨inSync_saved _,fun n => ho' (n+1)⟩
    | some record =>
      refine ⟨?_,ho'⟩
      by_cases hpoll : pollChanges settings (expireAll s.sessions (o.readings 0))
          (o.readings 1) = true
      · have hsame : s.searched settings o = Store.saved _ := if_pos hpoll
        show (s.searched settings o).InSync
        rw [hsame]
        exact inSync_saved _
      · have hsame : s.searched settings o =
            s.withSessions (expireAll s.sessions (o.readings 0)) := if_neg hpoll
        rw [hsame] at hfound ⊢
        apply expired_inSync h.1
        intro hlapsed
        obtain ⟨hmem,hprincipal,hlive⟩ := mem_of_pick hfound
        exact hb ⟨ht,hlapsed,by simpa using hpoll,record,hmem,hprincipal,hlive⟩
  · exact enqueue_unread (by simpa using ht) Flushed _ h

/-- The search of `enqueue` is made of expiry and assignment. -/
theorem searched_invariant {I : Store → Prop} (ho : o.Sound) (hs : I s)
    (hI : ∀ outside s s', I s → Change settings .roster outside s s' → I s') :
    I (s.searched settings o) := by
  have hexpired := hI o s _ hs (.expire s 0 rfl)
  have hpolled : (s.withSessions (expireAll s.sessions (o.readings 0))).step settings
      (.roster,o.tick) = s.searched settings o := by
    have hroster : roster settings = do
        let expired ← expireLocked
        let promoted ← assignWaitersLocked settings
        let t ← sessions
        persistIf (expired || 0 < promoted)
        return listing t := by
      simp only [roster,listing]
    rw [Store.step,Request.perform,exec_discard,hroster,exec_poll (o:=o.tick) ho]
    rfl
  rw [← hpolled]
  exact (step_changes _ .roster o.tick).invariant (hI o.tick) hexpired

/-- Every call keeps the file in step with the memory, unless it leaves an expiry behind. -/
theorem step_flushes (request : Request) (h : s.InSync) (ho : o.Sound)
    (hs : Sound s.sessions s.nextSequence) (hb : ¬LeavesBehind settings s o request) :
    (s.step settings (request,o)).InSync := by
  have hw : Flushed ⟨s,o⟩ := ⟨h,ho⟩
  cases request with
  | enqueue p r e =>
    rw [Store.step,Request.perform,exec_discard]
    exact (enqueue_flushes hw hb (searched_invariant
      (I:=fun s => Sound s.sessions s.nextSequence) ho hs fun _ _ _ => sound_change)).1
  | promoteNext =>
    rw [Store.step,Request.perform,exec_discard]
    exact (promoteNext_flushes hw hb).1
  | activate id =>
    rw [Store.step,Request.perform,exec_discard]
    exact (activate_flushes id _ hw).1
  | leave id =>
    rw [Store.step,Request.perform,exec_discard]
    exact (leave_flushes id _ hw).1
  | backoff id =>
    rw [Store.step,Request.perform,exec_discard]
    exact (backoff_flushes id _ hw).1
  | renew p =>
    rw [Store.step,Request.perform,exec_discard]
    exact (renew_flushes p _ hw).1
  | get id =>
    rw [Store.step,Request.perform,exec_discard]
    exact (getSession_flushes id _ hw).1
  | forPrincipal p =>
    rw [Store.step,Request.perform,exec_discard]
    exact (forPrincipal_flushes p _ hw).1
  | roster =>
    rw [Store.step,Request.perform,exec_discard]
    exact (roster_flushes _ hw).1

end Requests

section Legible

variable {settings : Settings} {request : Request} {outside : Outside} {s s' : Store}
  {t : SessionTable}

/-- The ids in the table pass validation. -/
def Legible (t : SessionTable) : Prop :=
  ∀ r ∈ t, readable r.sessionId = true ∧ ∀ k ∈ r.slotId, readable k = true

theorem Legible.put {r : RouterSession} (h : Legible t) (hid : readable r.sessionId = true)
    (hslot : ∀ k ∈ r.slotId, readable k = true) : Legible (t.put r) := by
  intro x hx
  rcases Table.mem_put.mp hx with rfl | hx
  · exact ⟨hid,hslot⟩
  · exact h x hx.1

/-- A changed record that is still the same session, in the same slot or in none. -/
theorem Legible.same {r r' : RouterSession} (h : Legible t) (hr : r ∈ t)
    (hid : r'.sessionId = r.sessionId) (hslot : r'.slotId = r.slotId ∨ r'.slotId = none) :
    Legible (t.put r') := by
  apply h.put
  · rw [hid]
    exact (h r hr).1
  · rcases hslot with hslot | hslot
    · rw [hslot]
      exact (h r hr).2
    · simp [hslot]

theorem Legible.offer {r : RouterSession} {slot : SlotDescriptor} (h : Legible t) (hr : r ∈ t)
    (hslot : readable slot.slotId = true) (expiresAt : Time) :
    Legible (t.put (r.offer slot expiresAt)) := by
  have hkept : ∀ k ∈ (r.offer slot expiresAt).slotId, readable k = true := by
    rintro k ⟨⟩
    exact hslot
  exact h.put (h r hr).1 hkept

theorem legible_expire {r : RouterSession} (now : Time) (h : ∀ k ∈ r.slotId, readable k = true) :
    ∀ k ∈ (r.expire now).slotId, readable k = true := by
  unfold RouterSession.expire
  split
  · split
    · simp
    · simp
    · exact h
    · exact h
  · exact h

theorem legible_change (hslots : ∀ slot ∈ settings.slots, readable slot.slotId = true)
    (hrequest : ∀ p r e, request ≠ .enqueue p r e) (h : Legible s.sessions)
    (hstep : Change settings request outside s s') : Legible s'.sessions := by
  cases hstep with
  | expire n hpolls =>
    intro x hx
    obtain ⟨r,hr,rfl⟩ := mem_expireAll.mp hx
    rw [RouterSession.expire_sessionId]
    exact ⟨(h r hr).1,legible_expire _ (h r hr).2⟩
  | offer r slot n hmem hwaiting hknown hfree => exact h.offer hmem (hslots slot hknown) _
  | reserve n hlater => exact h
  | join r hbounded => exact absurd hbounded.called (hrequest _ _ _)
  | activate r n hcalled hmem hoffered => exact h.same hmem rfl (Or.inl rfl)
  | leave r hcalled hmem => exact h.same hmem rfl (Or.inr rfl)
  | backoff r n hcalled hmem => exact h.same hmem rfl (Or.inr rfl)
  | renew r n hcalled hmem hactive => exact h.same hmem rfl (Or.inl rfl)
  | persist => exact h

theorem legible_assignAll (hslots : ∀ slot ∈ settings.slots, readable slot.slotId = true)
    (h : Legible t) (now : Time) : Legible (assignAll settings t now) := by
  apply offerAll_induct _ h
  intro t r slot ht hmem hwaiting hknown hfree
  exact ht.offer hmem (hslots slot hknown) _

theorem legible_enqueue {p r : String} {e : Option String} (ho : outside.Sound)
    (hslots : ∀ slot ∈ settings.slots, readable slot.slotId = true)
    (hid : pick p (s.searched settings outside).sessions = none →
      readable (sessionName s.nextSequence) = true) (hs : Sound s.sessions s.nextSequence)
    (h : Legible s.sessions) :
    Legible (exec (enqueue settings p r e) ⟨s,outside⟩).2.store.sessions := by
  by_cases ht : textsReadable p r e = true
  · obtain ⟨o',ho',henqueue⟩ := @exec_enqueue settings s outside p r e ho ht
    have hsearched : Sound (s.searched settings outside).sessions
        (s.searched settings outside).nextSequence :=
      searched_invariant (I:=fun s => Sound s.sessions s.nextSequence) ho hs
        fun _ _ _ => sound_change
    have hlegible : Legible (s.searched settings outside).sessions :=
      searched_invariant (I:=fun s => Legible s.sessions) ho h
        fun _ _ _ => legible_change hslots (by simp)
    have hnext : (s.searched settings outside).nextSequence = s.nextSequence := by
      rw [Store.searched,Store.polled]
      split <;> rfl
    rw [henqueue]
    cases hfound : pick p (s.searched settings outside).sessions with
    | none =>
      simp only
      rw [joinQueue_store ho' hsearched,hnext]
      apply legible_assignAll hslots
      exact hlegible.put (hid hfound) (by simp)
    | some record => exact hlegible
  · exact enqueue_unread (by simpa using ht) (fun w => Legible w.store.sessions) _ h

end Legible

section Runs

variable {settings : Settings} {outside : Outside} {s : Store}

/-- The state file decodes to the sessions and the next sequence number in memory; without
a file, a router starts with no sessions and with number 1. -/
def Router.Synced : Router → Prop
  | .down _ => True
  | .up _ s =>
    match s.file with
    | none => s.sessions.rows = [] ∧ s.nextSequence = 1
    | some f => decodeDocument f = .ok (s.sessions.rows,s.nextSequence)

/-- A start of the router that finds its slot ids readable and, in the state file, nothing to
drop, to expire or to assign; or a call that writes the file if it changes a session. -/
def Flushes (r : Router) : Event → Prop
  | .construct settings outside =>
    (∀ slot ∈ settings.slots, readable slot.slotId = true) ∧
      ∀ f ∈ r.file, ∀ rows next, decodeDocument f = .ok (rows,next) → rows.Pairwise Yields ∧
        pollChanges settings (loadRecords rows) (outside.readings 0) = false
  | .call request outside =>
    match r with
    | .down _ => True
    | .up settings s => outside.Sound ∧ ¬LeavesBehind settings s outside request ∧
      ∀ p i e, request = .enqueue p i e → pick p (s.searched settings outside).sessions = none →
        readable (sessionName s.nextSequence) = true

/-- What a router keeps as long as all its steps flush. -/
def Router.Faithful : Router → Prop
  | .down file => Written Sound file
  | .up settings s => s.Upholds Sound ∧ Legible s.sessions ∧ s.InSync ∧
      ∀ slot ∈ settings.slots, readable slot.slotId = true

theorem Router.Faithful.synced {r : Router} (h : r.Faithful) : r.Synced := by
  cases r with
  | down file => trivial
  | up settings s =>
    obtain ⟨⟨hsound,-⟩,hlegible,hsync,-⟩ := h
    have hstorable : ∀ r ∈ s.sessions, r.Storable := fun r hr =>
      storable_of_made (hsound.2 r hr) (hlegible r hr).2 (hlegible r hr).1
    rcases hsync with hfile | rfl
    · rw [Router.Synced,hfile]
      exact decodeDocument_document hstorable hsound.1
    · exact ⟨rfl,rfl⟩

theorem refresh_quiet (h : pollChanges settings s.sessions (outside.readings 0) = false) :
    (exec (refresh settings) ⟨s,outside⟩).2.store = s := by
  have hsame : assignAll settings (expireAll s.sessions (outside.readings 0))
      (outside.readings 1) = s.sessions := poll_quiet h
  show s.withSessions (assignAll settings (expireAll s.sessions (outside.readings 0))
    (outside.readings 1)) = s
  rw [hsame]
  rfl

theorem faithful_construct {r : Router} (h : r.Faithful)
    (hflush : Flushes r (.construct settings outside)) :
    (r.next (.construct settings outside)).Faithful := by
  have hupholds : r.Upholds Sound := by
    cases r with
    | down file => exact h
    | up settings s => exact h.1
  have hnext : (r.next (.construct settings outside)).Upholds Sound :=
    hupholds.construct sound_empty (fun s => sound_reloaded) (fun _ _ => sound_change)
  have hfile := hupholds.file
  obtain ⟨hslots,hquiet⟩ := hflush
  rw [Router.next] at hnext ⊢
  cases hf : r.file with
  | none =>
    rw [hf,construct_none] at hnext
    rw [construct_none]
    exact ⟨hnext,fun r hr => absurd hr Table.mem_empty,Or.inr rfl,hslots⟩
  | some f =>
    obtain ⟨s₁,hs₁,rfl⟩ := hfile f hf
    rw [hf] at hnext
    cases hc : construct settings (some (document s₁)) outside with
    | error e =>
      rw [hc] at hnext
      exact hnext
    | ok s' =>
      rw [hc] at hnext
      obtain ⟨hstorable,hpos⟩ := construct_document_ok hc
      obtain ⟨hkept,hidle⟩ := hquiet _ hf _ _ (decodeDocument_document hstorable hpos)
      have hloaded := reloaded_eq_saved hs₁ hkept
      -- the file is read back as it was written, and there is nothing else to do
      have hs' : s' = s₁.saved := by
        rw [construct_document hstorable hpos,hloaded] at hc
        have hsame : loadRecords s₁.sessions.rows = s₁.sessions :=
          Table.ext ((loadRecords_rows_iff s₁.sessions).mpr hkept)
        rw [hsame] at hidle
        rw [← Except.ok.inj hc]
        exact refresh_quiet hidle
      subst hs'
      refine ⟨hnext,?_,inSync_saved s₁,hslots⟩
      exact fun r hr => ⟨(hstorable r hr).sessionId,(hstorable r hr).slotId⟩

theorem faithful_call {request : Request} (h : (Router.up settings s).Faithful)
    (hflush : Flushes (.up settings s) (.call request outside)) :
    (Router.up settings (s.step settings (request,outside))).Faithful := by
  obtain ⟨hupholds,hlegible,hsync,hslots⟩ := h
  obtain ⟨ho,hbehind,hname⟩ := hflush
  have hsteps := @step_changes settings s request outside
  refine ⟨hupholds.changes hsteps fun _ _ => sound_change,?_,
    step_flushes request hsync ho hupholds.1 hbehind,hslots⟩
  cases request with
  | enqueue p i e =>
    rw [Store.step,Request.perform,exec_discard]
    exact legible_enqueue ho hslots (hname p i e rfl) hupholds.1 hlegible
  | _ =>
    exact hsteps.invariant (I:=fun s => Legible s.sessions)
      (fun _ _ => legible_change hslots (by simp)) hlegible

theorem faithful_next (r : Router) (e : Event) (h : r.Faithful) (hflush : Flushes r e) :
    (r.next e).Faithful := by
  cases e with
  | construct settings outside => exact faithful_construct h hflush
  | call request outside =>
    cases r with
    | down file => exact h
    | up settings s => exact faithful_call h hflush

/-- The start of the router, or the call, does not raise. -/
def Returns (r : Router) : Event → Bool
  | .construct settings outside => (construct settings r.file outside).isOk
  | .call request outside =>
    match r with
    | .down _ => false
    | .up settings s => (exec (request.perform settings) ⟨s,outside⟩).1.isOk

/-- In every run whose steps flush, the state file says what the memory says after every
construction and every operation that returns. -/
theorem synced_each (es : List Event) (h : Runs.Each Router.next Flushes Router.initial es) :
    Runs.Each Router.next (fun r e => Returns r e = true → (r.next e).Synced) Router.initial es := by
  have hinitial : Router.initial.Faithful := fun f hf => nomatch hf
  have hfaithful := Runs.each_of_each hinitial faithful_next h
  exact hfaithful.imp fun r e hnext _ => hnext.synced

/-- Alice is given the slot, and polls when her session has lapsed. -/
def polled : List Event :=
  [.construct oneSlot (.still 0),.call (.enqueue "alice" "r1" none) (.still 0),
    .call (.activate "q-1") (.still 0),.call (.forPrincipal "alice") (.still 3600)]

theorem sound_still (now : Time) : (Outside.still now).Sound := fun _ => rfl

theorem synced_polled :
    Runs.Each Router.next (fun r e => Returns r e = true → (r.next e).Synced) Router.initial polled := by
  apply synced_each
  refine ⟨⟨by decide +kernel,fun f hf => nomatch hf⟩,⟨sound_still 0,?_,?_⟩,
    ⟨sound_still 0,fun h => h,by simp⟩,⟨sound_still 3600,fun h => h,by simp⟩,trivial⟩
  · rintro ⟨-,hlapsed,-⟩
    exact absurd hlapsed (by decide +kernel)
  · intro _ _ _ _ _
    decide +kernel

/-- Bob has backed off when alice's session lapses. -/
def overlooked : List Event :=
  [.construct oneSlot (.still 0),.call (.enqueue "alice" "r1" none) (.still 0),
    .call (.activate "q-1") (.still 0),.call (.enqueue "bob" "r2" none) (.still 0),
    .call (.backoff "q-2") (.still 3590)]

/-- The statuses that are read from a file. -/
def statuses (f : Option Json) : Option (List SessionStatus) := do
  let document ← f
  let (records,_) ← (decodeDocument document).toOption
  return records.map RouterSession.status

theorem statuses_synced {s : Store} {settings : Settings} (h : (Router.up settings s).Synced) :
    s.sessions.rows.map RouterSession.status = (statuses s.file).getD [] := by
  rw [Router.Synced] at h
  cases hf : s.file with
  | none =>
    simp only [hf] at h
    simp [statuses,h.1]
  | some f =>
    simp only [hf] at h
    simp [statuses,h,Except.toOption]

/-- He joins again while his back-off lasts. -/
def overlooking : Event := .call (.enqueue "bob" "r3" none) (.still 3600)

theorem synced_after (h : ∀ es : List Event,
    Runs.Each Router.next (fun r e => Returns r e = true → (r.next e).Synced) Router.initial es)
    {es : List Event} {e : Event} {r : Router} (hr : (Router.initial.run es).next e = r)
    (hreturns : Returns (Router.initial.run es) e = true) : r.Synced := by
  subst hr
  exact Runs.each_last es e (h (es ++ [e])) hreturns

theorem overlooked_behind : ¬∀ es : List Event,
    Runs.Each Router.next (fun r e => Returns r e = true → (r.next e).Synced) Router.initial es := by
  intro h
  have hreturns : Returns (Router.initial.run overlooked) overlooking = true := by decide +kernel
  have hmemory : ((Router.initial.run overlooked).next overlooking).sessions.rows.map
      RouterSession.status = [.stopped,.backedOff] := by decide +kernel
  have hfile : statuses ((Router.initial.run overlooked).next overlooking).file =
      some [.active,.backedOff] := by decide +kernel
  generalize hr : (Router.initial.run overlooked).next overlooking = r at hmemory hfile
  have hsynced := synced_after h hr hreturns
  cases r with
  | down f => cases hmemory
  | up settings s =>
    have hstatuses : s.sessions.rows.map RouterSession.status = (statuses s.file).getD [] :=
      statuses_synced hsynced
    have hbehind : statuses s.file = some [.active,.backedOff] := hfile
    have hahead : s.sessions.rows.map RouterSession.status = [.stopped,.backedOff] := hmemory
    rw [hbehind,hahead] at hstatuses
    cases hstatuses

end Runs
end RouterSessions
end CloudBrowser
