import CloudBrowser.LiveSessions

/-! Which timers a session has set. Each status that ends by itself has a timer of its own; a call
that takes a session out of such a status may leave the timer behind. -/
namespace CloudBrowser
namespace RouterSessions

open Stateful Keyed

/-- Each timer is set in the one status that it times. -/
structure RouterSession.Coherent (r : RouterSession) : Prop where
  offer : r.offerExpiresAt.isSome ↔ r.status = .offered
  session : r.sessionExpiresAt.isSome ↔ r.status = .active
  backoff : r.backoffUntil.isSome ↔ r.status = .backedOff

def Coherent (t : SessionTable) : Prop := ∀ r ∈ t, r.Coherent

/-- The status that a call takes a session out of without its timer. -/
def Request.forgets (id : String) : Request → Option SessionStatus
  | .backoff id' => if id' = id then some .active else none
  | .leave id' => if id' = id then some .backedOff else none
  | _ => none

theorem Request.forgets_mem (request : Request) (id : String) (status : SessionStatus)
    (h : request.forgets id = some status) : status = .active ∨ status = .backedOff := by
  cases request <;> simp only [forgets,Option.ite_none_right_eq_some,Option.some.injEq,
    reduceCtorEq] at h
  · exact Or.inr h.2.symm
  · exact Or.inl h.2.symm

/-- The call of the request forgets no timer. -/
def Request.Clears (request : Request) (t : SessionTable) : Prop :=
  ∀ r ∈ t, request.forgets r.sessionId ≠ some r.status

section Tables

variable {t : SessionTable} {r r' : RouterSession} {request : Request} {now : Time}

theorem coherent_empty : Coherent .empty := fun _ hr => absurd hr Table.mem_empty

theorem Coherent.put (h : Coherent t) (hr : r.Coherent) : Coherent (t.put r) := by
  intro x hx
  rcases Table.mem_put.mp hx with rfl | hx
  · exact hr
  · exact h x hx.1

theorem coherent_expire (h : r.Coherent) : (r.expire now).Coherent := by
  obtain ⟨hoffer,hsession,hbackoff⟩ := h
  unfold RouterSession.expire
  split
  · cases hs : r.status <;> simp only [hs] at hoffer hsession hbackoff ⊢ <;>
      constructor <;> simp_all
  · exact ⟨hoffer,hsession,hbackoff⟩

theorem coherent_expireAll (h : Coherent t) : Coherent (expireAll t now) := by
  intro x hx
  obtain ⟨r,hr,rfl⟩ := mem_expireAll.mp hx
  exact coherent_expire (h r hr)

theorem coherent_offer {slot : SlotDescriptor} (h : r.Coherent) (hwaiting : r.status = .waiting) :
    (r.offer slot now).Coherent := by
  obtain ⟨hoffer,hsession,hbackoff⟩ := h
  constructor <;> simp_all [RouterSession.offer]

theorem coherent_activate (h : r.Coherent) (hoffered : r.status = .offered) :
    (r.activate now).Coherent := by
  obtain ⟨hoffer,hsession,hbackoff⟩ := h
  constructor <;> simp_all [RouterSession.activate]

theorem coherent_renew (h : r.Coherent) (hactive : r.status = .active) : (r.renew now).Coherent := by
  obtain ⟨hoffer,hsession,hbackoff⟩ := h
  constructor <;> simp_all [RouterSession.renew]

theorem coherent_leave_iff (h : r.Coherent) : r.leave.Coherent ↔ r.status ≠ .backedOff := by
  constructor
  · rintro ⟨-,-,hleft⟩ hstatus
    have hset := h.backoff.mpr hstatus
    simp [RouterSession.leave,hset] at hleft
  · intro hstatus
    have hbackoff := h.backoff
    constructor <;> simp_all [RouterSession.leave]

theorem coherent_backoff_iff (h : r.Coherent) : (r.backoff now).Coherent ↔ r.status ≠ .active := by
  constructor
  · rintro ⟨-,hsession,-⟩ hstatus
    have hset := h.session.mpr hstatus
    simp [RouterSession.backoff,hset] at hsession
  · intro hstatus
    have hsession := h.session
    constructor <;> simp_all [RouterSession.backoff]

/-- A session that changes into none of the statuses that the call forgets. -/
theorem Request.Clears.put (h : request.Clears t)
    (hr : request.forgets r.sessionId ≠ some r.status) : request.Clears (t.put r) := by
  intro x hx
  rcases Table.mem_put.mp hx with rfl | hx
  · exact hr
  · exact h x hx.1

end Tables

section Steps

variable {settings : Settings} {request : Request} {outside : Outside} {s s' : Store}

theorem coherent_change (h : Coherent s.sessions) (hclears : request.Clears s.sessions)
    (hstep : Change settings request outside s s') :
    Coherent s'.sessions ∧ request.Clears s'.sessions := by
  cases hstep with
  | expire n hpolls =>
    refine ⟨coherent_expireAll h,fun r _ => ?_⟩
    cases request <;> simp [Request.forgets] <;> cases hpolls
  | offer r slot n hmem hwaiting hknown hfree =>
    refine ⟨h.put (coherent_offer (h r hmem) hwaiting),hclears.put fun heq => ?_⟩
    rcases request.forgets_mem r.sessionId _ heq with hactive | hbacked
    · cases hactive
    · cases hbacked
  | reserve n hlater => exact ⟨h,hclears⟩
  | join r hbounded hfresh hnamed halone hwaiting hslot hbinding htimers =>
    refine ⟨h.put ?_,hclears.put ?_⟩
    · constructor <;> simp [htimers,hwaiting]
    · simp [hbounded.called,Request.forgets]
  | activate r n hcalled hmem hoffered =>
    refine ⟨h.put (coherent_activate (h r hmem) hoffered),hclears.put ?_⟩
    simp [hcalled,Request.forgets]
  | leave r hcalled hmem =>
    have hkept := hclears r hmem
    simp only [hcalled,Request.forgets,if_true,ne_eq,Option.some.injEq] at hkept
    refine ⟨h.put ((coherent_leave_iff (h r hmem)).mpr fun heq => hkept heq.symm),hclears.put ?_⟩
    simp [hcalled,Request.forgets,RouterSession.leave]
  | backoff r n hcalled hmem =>
    have hkept := hclears r hmem
    simp only [hcalled,Request.forgets,if_true,ne_eq,Option.some.injEq] at hkept
    refine ⟨h.put ((coherent_backoff_iff (h r hmem)).mpr fun heq => hkept heq.symm),hclears.put ?_⟩
    simp [hcalled,Request.forgets,RouterSession.backoff]
  | renew r n hcalled hmem hactive =>
    refine ⟨h.put (coherent_renew (h r hmem) hactive),hclears.put ?_⟩
    simp [hcalled,Request.forgets]
  | persist => exact ⟨h,hclears⟩

theorem coherent_step (h : s.Upholds fun t _ => Coherent t) (hclears : request.Clears s.sessions) :
    (s.step settings (request,outside)).Upholds fun t _ => Coherent t := by
  have hsteps := (@step_changes settings s request outside).invariant
    (I:=fun s => (s.Upholds fun t _ => Coherent t) ∧ request.Clears s.sessions) ?_ ⟨h,hclears⟩
  · exact hsteps.1
  · rintro s s' ⟨hs,hclears⟩ hstep
    obtain ⟨hcoherent,hclears'⟩ := coherent_change hs.1 hclears hstep
    exact ⟨hs.change hstep hcoherent,hclears'⟩

theorem leave_sessions {id : String} {record : RouterSession} (hid : readable id = true)
    (hfind : s.sessions.find id = some record) :
    (s.step settings (.leave id,outside)).sessions = s.sessions.put record.leave := by
  by_cases hwrite : outside.writes 0 = true <;>
    simp [-bind_pure_comp,Store.step,Request.perform,exec_discard,leave,exec_bind,
      exec_requireLocked,hid,hfind,exec_persistLocked,hwrite]

/-- A session that nobody waits for a slot with stays as it is in an assignment. -/
theorem mem_assignAll {t : SessionTable} {r : RouterSession} {now : Time} (hmem : r ∈ t)
    (hstatus : r.status ≠ .waiting) : r ∈ assignAll settings t now := by
  apply offerAll_induct (P:=fun t => r ∈ t) _ hmem
  intro t r' slot hr hmem' hwaiting _ _
  have hne : r.sessionId ≠ r'.sessionId := by
    intro heq
    have hsame := Table.eq_of_key hr hmem' heq
    exact hstatus (hsame ▸ hwaiting)
  exact Table.mem_put.mpr (Or.inr ⟨hr,hne⟩)

end Steps

section Runs

/-- A session that is active is backed off, or one that is backed off is left. -/
def Strands : Router → Event → Prop
  | .up _ s, .call (.backoff id) _ =>
    readable id ∧ ∃ r ∈ s.sessions, r.sessionId = id ∧ r.status = .active
  | .up _ s, .call (.leave id) _ =>
    readable id ∧ ∃ r ∈ s.sessions, r.sessionId = id ∧ r.status = .backedOff
  | _, _ => False

theorem clears_of_not_strands {settings : Settings} {s : Store} {request : Request}
    {outside : Outside} (hread : ∀ id, request = .backoff id ∨ request = .leave id → readable id = true)
    (h : ¬Strands (.up settings s) (.call request outside)) : request.Clears s.sessions := by
  intro r hr hforgets
  cases request with
  | backoff id =>
    by_cases hid : id = r.sessionId
    · simp only [Request.forgets,hid,if_true,Option.some.injEq] at hforgets
      exact h ⟨hread id (Or.inl rfl),r,hr,hid.symm,hforgets.symm⟩
    · simp [Request.forgets,hid] at hforgets
  | leave id =>
    by_cases hid : id = r.sessionId
    · simp only [Request.forgets,hid,if_true,Option.some.injEq] at hforgets
      exact h ⟨hread id (Or.inr rfl),r,hr,hid.symm,hforgets.symm⟩
    · simp [Request.forgets,hid] at hforgets
  | _ => cases hforgets

theorem coherent_next {r : Router} {e : Event} (h : r.Upholds fun t _ => Coherent t)
    (hs : ¬Strands r e) : (r.next e).Upholds fun t _ => Coherent t := by
  cases e with
  | construct settings outside =>
    apply h.construct coherent_empty fun s hs r hr => hs r (mem_loadRecords hr)
    intro s s' hs hstep
    exact (coherent_change hs (fun r _ => by simp [Request.forgets]) hstep).1
  | call request outside =>
    cases r with
    | down file => exact h
    | up settings s =>
      by_cases hread : ∀ id, request = .backoff id ∨ request = .leave id → readable id = true
      · exact coherent_step h (clears_of_not_strands hread hs)
      · push Not at hread
        obtain ⟨id,hcall,hid⟩ := hread
        have hsame : s.step settings (request,outside) = s := by
          rcases hcall with rfl | rfl <;>
            simp [Store.step,Request.perform,exec_discard,backoff,leave,exec_bind,
              exec_requireLocked,hid]
        show (Router.up settings (s.step settings (request,outside))).Upholds _
        rw [hsame]
        exact h

/-- Such a call leaves a timer set that belongs to no status any more. -/
theorem not_coherent_of_strands {r : Router} {e : Event} (h : r.Upholds fun t _ => Coherent t)
    (hs : Strands r e) : ¬Coherent (r.next e).sessions := by
  match r, e, hs with
  | .up settings s, .call (.backoff id) outside, hs =>
    obtain ⟨hid,record,hrecord,rfl,hactive⟩ := hs
    have hfind := Table.find_eq_some.mpr ⟨hrecord,rfl⟩
    show ¬Coherent (s.step settings (.backoff record.sessionId,outside)).sessions
    rw [backoff_sessions hid hfind]
    intro hcoherent
    have hbacked : (record.backoff (outside.readings 0+settings.backoffTtl)).Coherent := by
      apply hcoherent
      apply mem_assignAll
      · simp
      · simp [RouterSession.backoff]
    exact (coherent_backoff_iff (h.1 record hrecord)).mp hbacked hactive
  | .up settings s, .call (.leave id) outside, hs =>
    obtain ⟨hid,record,hrecord,rfl,hbacked⟩ := hs
    have hfind := Table.find_eq_some.mpr ⟨hrecord,rfl⟩
    show ¬Coherent (s.step settings (.leave record.sessionId,outside)).sessions
    rw [leave_sessions hid hfind]
    intro hcoherent
    exact (coherent_leave_iff (h.1 record hrecord)).mp (hcoherent _ (by simp)) hbacked

/-- The timers match the statuses in every state of a run, restarts included, exactly if no call of
the run strands one. -/
theorem coherent_always_iff (es : List Event) :
    Runs.Always Router.next (fun r => Coherent r.sessions) .initial es ↔
      Runs.Each Router.next (fun r e => ¬Strands r e) .initial es := by
  apply Runs.always_iff_each (I:=Router.Upholds fun t _ => Coherent t)
  · exact fun f hf => nomatch hf
  · intro r hr
    cases r with
    | down file => exact coherent_empty
    | up settings s => exact hr.1
  · exact fun r e => coherent_next
  · intro r e hr hcoherent hs
    exact not_coherent_of_strands hr hs hcoherent

/-- Alice activates her offer and is backed off. -/
def backedOffActive : List Event :=
  offered ++ [.call (.activate "q-1") (.still 1),.call (.backoff "q-1") (.still 2)]

/-- Then she still has a session timer. -/
theorem session_timer_left : ¬∀ es : List Event,
    Runs.Always Router.next (fun r => Coherent r.sessions) .initial es := by
  intro h
  have hlast : Coherent (Router.initial.run backedOffActive).sessions := (h backedOffActive).last
  have hall : (Router.initial.run backedOffActive).sessions.rows.all
      (fun r => r.sessionExpiresAt.isSome && r.status ≠ .active) = true := by
    decide +kernel
  have hone : (Router.initial.run backedOffActive).sessions.rows ≠ [] := by decide +kernel
  obtain ⟨record,hrecord⟩ := List.exists_mem_of_ne_nil _ hone
  have hset := List.all_eq_true.mp hall record hrecord
  simp only [Bool.and_eq_true,decide_eq_true_eq] at hset
  exact hset.2 ((hlast record hrecord).session.mp hset.1)

end Runs
end RouterSessions
end CloudBrowser
