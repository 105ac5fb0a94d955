import CloudBrowser.RouterEffects
import CloudBrowser.RouterRuns
import CloudBrowser.Runs

/-! One live session for each principal: what keeps it, and the one operation that does not.
`backoff` takes a session in any status; a session that has ended comes back to life beside
the one that its principal has joined with since. -/
namespace CloudBrowser
namespace RouterSessions

open Stateful Keyed

/-- Each principal has at most one live session. -/
def UniqueLive (t : SessionTable) : Prop :=
  ∀ r ∈ t, ∀ r' ∈ t, r.status.live → r'.status.live → r.principalId = r'.principalId → r = r'

/-- No other session of the principal that the session `id` belongs to is live. -/
def Alone (id : String) (t : SessionTable) : Prop :=
  ∀ r ∈ t, r.sessionId = id → ∀ r' ∈ t, r'.principalId = r.principalId → r'.status.live → r' = r

/-- Every session of `t'` is one of `t`, and live only if it is live there. -/
def Below (t' t : SessionTable) : Prop :=
  ∀ x ∈ t', ∃ r ∈ t, x.sessionId = r.sessionId ∧ x.principalId = r.principalId ∧
    (x.status.live → r.status.live)

section Tables

variable {t t' : SessionTable} {r r' : RouterSession} {id : String}

theorem Below.refl (t : SessionTable) : Below t t := fun x hx => ⟨x,hx,rfl,rfl,fun h => h⟩

theorem UniqueLive.below (h : UniqueLive t) (hb : Below t' t) : UniqueLive t' := by
  intro x hx y hy hxlive hylive hxy
  obtain ⟨r,hr,hxr,hxp,hrlive⟩ := hb x hx
  obtain ⟨r',hr',hyr,hyp,hrlive'⟩ := hb y hy
  have hsame : r.principalId = r'.principalId := by rw [← hxp,← hyp,hxy]
  have heq := h r hr r' hr' (hrlive hxlive) (hrlive' hylive) hsame
  apply Table.eq_of_key hx hy
  rw [hxr,hyr,heq]

theorem Alone.below (h : Alone id t) (hb : Below t' t) : Alone id t' := by
  intro x hx hid y hy hxy hylive
  obtain ⟨r,hr,hxr,hxp,-⟩ := hb x hx
  obtain ⟨r',hr',hyr,hyp,hrlive'⟩ := hb y hy
  have hsame : r'.principalId = r.principalId := by rw [← hxp,← hyp,hxy]
  have heq := h r hr (hxr.symm.trans hid) r' hr' hsame (hrlive' hylive)
  apply Table.eq_of_key hy hx
  rw [hxr,hyr,heq]

theorem below_put (hmem : r ∈ t) (hid : r'.sessionId = r.sessionId)
    (hprincipal : r'.principalId = r.principalId) (hlive : r'.status.live → r.status.live) :
    Below (t.put r') t := by
  intro x hx
  rcases Table.mem_put.mp hx with rfl | hx
  · exact ⟨r,hmem,hid,hprincipal,hlive⟩
  · exact ⟨x,hx.1,rfl,rfl,fun h => h⟩

theorem expire_principalId (now : Time) (r : RouterSession) :
    (r.expire now).principalId = r.principalId := by
  unfold RouterSession.expire
  split
  · split <;> rfl
  · rfl

theorem live_of_expire (now : Time) (h : (r.expire now).status.live = true) :
    r.status.live = true := by
  unfold RouterSession.expire at h
  split at h
  · cases hs : r.status <;> simp [hs,SessionStatus.live] at h ⊢
  · exact h

theorem below_expireAll (now : Time) : Below (expireAll t now) t := by
  intro x hx
  obtain ⟨r,hr,rfl⟩ := mem_expireAll.mp hx
  exact ⟨r,hr,RouterSession.expire_sessionId now r,expire_principalId now r,live_of_expire now⟩

theorem below_loadRecords : Below (loadRecords t.rows) t :=
  fun x hx => ⟨x,mem_loadRecords hx,rfl,rfl,fun h => h⟩

theorem uniqueLive_empty : UniqueLive .empty := fun _ hr => absurd hr Table.mem_empty

/-- A live record joins, or comes back, where its principal has no other. -/
theorem UniqueLive.put (h : UniqueLive t)
    (halone : ∀ x ∈ t, x.sessionId ≠ r.sessionId → x.principalId = r.principalId →
      ¬x.status.live) : UniqueLive (t.put r) := by
  intro x hx y hy hxlive hylive hxy
  rcases Table.mem_put.mp hx with rfl | ⟨hxt,hxr⟩
  · rcases Table.mem_put.mp hy with rfl | ⟨hyt,hyr⟩
    · rfl
    · exact absurd hylive (halone y hyt hyr hxy.symm)
  · rcases Table.mem_put.mp hy with rfl | ⟨hyt,hyr⟩
    · exact absurd hxlive (halone x hxt hxr hxy)
    · exact h x hxt y hyt hxlive hylive hxy

theorem Alone.others (h : Alone id t) (hmem : r ∈ t) (hid : r.sessionId = id) :
    ∀ x ∈ t, x.sessionId ≠ r.sessionId → x.principalId = r.principalId → ¬x.status.live := by
  intro x hx hne hprincipal hlive
  exact hne (congrArg RouterSession.sessionId (h r hmem hid x hx hprincipal hlive))

theorem alone_put (hid : r.sessionId = id)
    (halone : ∀ x ∈ t, x.sessionId ≠ r.sessionId → x.principalId = r.principalId →
      ¬x.status.live) : Alone id (t.put r) := by
  intro x hx hxid y hy hxy hylive
  rcases Table.mem_put.mp hx with rfl | ⟨hxt,hxr⟩
  · rcases Table.mem_put.mp hy with rfl | ⟨hyt,hyr⟩
    · rfl
    · exact absurd hylive (halone y hyt hyr hxy)
  · exact absurd (hxid.trans hid.symm) hxr

/-- Two live sessions of one principal. -/
def TwoLive (t : SessionTable) : Prop :=
  ∃ r ∈ t, ∃ r' ∈ t, r.sessionId ≠ r'.sessionId ∧ r.principalId = r'.principalId ∧
    r.status.live ∧ r'.status.live

theorem TwoLive.not_uniqueLive (h : TwoLive t) : ¬UniqueLive t := by
  obtain ⟨r,hr,r',hr',hne,hprincipal,hlive,hlive'⟩ := h
  intro hunique
  exact hne (congrArg RouterSession.sessionId (hunique r hr r' hr' hlive hlive' hprincipal))

theorem TwoLive.put (h : TwoLive t) (hmem : r ∈ t) (hid : r'.sessionId = r.sessionId)
    (hprincipal : r'.principalId = r.principalId) (hlive : r'.status.live) :
    TwoLive (t.put r') := by
  -- each of the two is still there, perhaps as the record put in its place
  have hkept : ∀ x ∈ t, x.status.live → ∃ y ∈ t.put r', y.sessionId = x.sessionId ∧
      y.principalId = x.principalId ∧ y.status.live := by
    intro x hx hxlive
    by_cases hxr : x.sessionId = r'.sessionId
    · have heq := Table.eq_of_key hx hmem (hxr.trans hid)
      subst heq
      exact ⟨r',by simp,hid,hprincipal,hlive⟩
    · exact ⟨x,by simp [hx,hxr],rfl,rfl,hxlive⟩
  obtain ⟨a,ha,b,hb,hne,hab,halive,hblive⟩ := h
  obtain ⟨a',ha',hida,hpa,hla⟩ := hkept a ha halive
  obtain ⟨b',hb',hidb,hpb,hlb⟩ := hkept b hb hblive
  exact ⟨a',ha',b',hb',by rwa [hida,hidb],by rw [hpa,hpb,hab],hla,hlb⟩

theorem TwoLive.assignAll {settings : Settings} {now : Time} (h : TwoLive t) :
    TwoLive (assignAll settings t now) := by
  apply offerAll_induct (P:=TwoLive) _ h
  intro t r slot ht hmem hwaiting hknown hfree
  exact ht.put hmem rfl rfl rfl

end Tables

section Steps

variable {settings : Settings} {request : Request} {outside : Outside} {s s' : Store}

theorem uniqueLive_change (h : UniqueLive s.sessions)
    (halone : ∀ id, request = .backoff id → Alone id s.sessions)
    (hstep : Change settings request outside s s') :
    UniqueLive s'.sessions ∧ ∀ id, request = .backoff id → Alone id s'.sessions := by
  have hbelow : Below s'.sessions s.sessions →
      UniqueLive s'.sessions ∧ ∀ id, request = .backoff id → Alone id s'.sessions :=
    fun hb => ⟨h.below hb,fun id hid => (halone id hid).below hb⟩
  cases hstep with
  | expire n hpolls => exact hbelow (below_expireAll _)
  | offer r slot n hmem hwaiting hknown hfree =>
    exact hbelow (below_put hmem rfl rfl fun _ => by simp [hwaiting,SessionStatus.live])
  | reserve n hlater => exact hbelow (Below.refl _)
  | join r hbounded hfresh hnamed hfirst =>
    refine ⟨h.put fun x hx _ hprincipal => hfirst x hx hprincipal,fun id hid => ?_⟩
    rw [hbounded.called] at hid
    cases hid
  | activate r n hcalled hmem hoffered =>
    exact hbelow (below_put hmem rfl rfl fun _ => by simp [hoffered,SessionStatus.live])
  | leave r hcalled hmem =>
    exact hbelow (below_put hmem rfl rfl fun h => by
      simp [RouterSession.leave,SessionStatus.live] at h)
  | backoff r n hcalled hmem =>
    have hothers := (halone _ hcalled).others hmem rfl
    refine ⟨h.put hothers,fun id hid => ?_⟩
    rw [hcalled] at hid
    cases hid
    exact alone_put rfl hothers
  | renew r n hcalled hmem hactive => exact hbelow (below_put hmem rfl rfl fun h => h)
  | persist => exact hbelow (Below.refl _)

theorem uniqueLive_step (h : s.Upholds fun t _ => UniqueLive t)
    (halone : ∀ id, request = .backoff id → Alone id s.sessions) :
    (s.step settings (request,outside)).Upholds fun t _ => UniqueLive t := by
  have hsteps := (@step_changes settings s request outside).invariant
    (I:=fun s => (s.Upholds fun t _ => UniqueLive t) ∧
      ∀ id, request = .backoff id → Alone id s.sessions) ?_ ⟨h,halone⟩
  · exact hsteps.1
  · rintro s s' ⟨hs,halone⟩ hstep
    obtain ⟨hunique,halone'⟩ := uniqueLive_change hs.1 halone hstep
    exact ⟨hs.change hstep hunique,halone'⟩

/-- What `backoff` leaves in memory, whether or not the state file is written. -/
theorem backoff_sessions {id : String} {record : RouterSession} (hid : readable id = true)
    (hfind : s.sessions.find id = some record) :
    (s.step settings (.backoff id,outside)).sessions =
      assignAll settings
        (s.sessions.put (record.backoff (outside.readings 0+settings.backoffTtl)))
        (outside.readings 1) := by
  by_cases hwrite : outside.writes 0 = true <;>
    simp [-bind_pure_comp,Store.step,Request.perform,exec_discard,backoff,exec_bind,
      exec_requireLocked,hid,hfind,exec_persistLocked,hwrite]

end Steps

section Runs

/-- A session is backed off while another one of its principal is live. -/
def Displaces : Router → Event → Prop
  | .up _ s, .call (.backoff id) _ =>
    readable id ∧ ∃ r ∈ s.sessions, r.sessionId = id ∧
      ∃ r' ∈ s.sessions, r' ≠ r ∧ r'.principalId = r.principalId ∧ r'.status.live
  | _, _ => False

theorem alone_of_not_displaces {settings : Settings} {s : Store} {id : String}
    {outside : Outside} (hid : readable id = true)
    (h : ¬Displaces (.up settings s) (.call (.backoff id) outside)) : Alone id s.sessions := by
  intro r hr hrid r' hr' hprincipal hlive
  by_contra hne
  exact h ⟨hid,r,hr,hrid,r',hr',hne,hprincipal,hlive⟩

/-- A backoff that displaces nobody keeps the live sessions unique. -/
theorem uniqueLive_next {r : Router} {e : Event} (h : r.Upholds fun t _ => UniqueLive t)
    (hd : ¬Displaces r e) : (r.next e).Upholds fun t _ => UniqueLive t := by
  cases e with
  | construct settings outside =>
    apply h.construct uniqueLive_empty fun s hs => hs.below below_loadRecords
    intro s s' hs hstep
    exact (uniqueLive_change hs (fun id hid => by cases hid) hstep).1
  | call request outside =>
    cases r with
    | down file => exact h
    | up settings s =>
      by_cases hreject : ∃ id, request = .backoff id ∧ readable id = false
      · obtain ⟨id,rfl,hid⟩ := hreject
        have hsame : s.step settings (.backoff id,outside) = s := by
          simp [Store.step,Request.perform,exec_discard,backoff,exec_bind,exec_requireLocked,hid]
        show (Router.up settings (s.step settings (.backoff id,outside))).Upholds _
        rw [hsame]
        exact h
      · apply uniqueLive_step h
        rintro id rfl
        have hid : readable id = true := by
          by_contra hid
          exact hreject ⟨id,rfl,by simpa using hid⟩
        exact alone_of_not_displaces hid hd

/-- A backoff that displaces a session leaves its principal with two. -/
theorem twoLive_of_displaces {r : Router} {e : Event} (h : Displaces r e) :
    TwoLive (r.next e).sessions := by
  match r, e, h with
  | .up settings s, .call (.backoff id) outside, h =>
    obtain ⟨hid,record,hrecord,rfl,other,hother,hne,hprincipal,hlive⟩ := h
    have hfind := Table.find_eq_some.mpr ⟨hrecord,rfl⟩
    have hkeys : record.sessionId ≠ other.sessionId := fun heq =>
      hne (Table.eq_of_key hother hrecord heq.symm)
    show TwoLive (s.step settings (.backoff record.sessionId,outside)).sessions
    rw [backoff_sessions hid hfind]
    apply TwoLive.assignAll
    refine ⟨record.backoff (outside.readings 0+settings.backoffTtl),by simp,other,?_,hkeys,
      hprincipal.symm,rfl,hlive⟩
    simp only [Table.mem_put]
    exact Or.inr ⟨hother,hkeys.symm⟩

/-- Each principal has at most one live session in every state of a run, restarts included,
exactly if no call of the run backs off a session while its principal has another. -/
theorem uniqueLive_always_iff (es : List Event) :
    Runs.Always Router.next (fun r => UniqueLive r.sessions) .initial es ↔
      Runs.Each Router.next (fun r e => ¬Displaces r e) .initial es := by
  apply Runs.always_iff_each (I:=Router.Upholds fun t _ => UniqueLive t)
  · exact fun f hf => nomatch hf
  · intro r hr
    cases r with
    | down file => exact uniqueLive_empty
    | up settings s => exact hr.1
  · exact fun r e => uniqueLive_next
  · intro r e _ hunique hd
    exact (twoLive_of_displaces hd).not_uniqueLive hunique

/-- Alice leaves her session and joins again; then the session she left is backed off. -/
def rejoined : List Event :=
  [.construct oneSlot (.still 0),.call (.enqueue "alice" "r1" none) (.still 0),
    .call (.leave "q-1") (.still 1),.call (.enqueue "alice" "r2" none) (.still 2),
    .call (.backoff "q-1") (.still 3)]

theorem rejoined_twice : ¬∀ es : List Event,
    Runs.Always Router.next (fun r => UniqueLive r.sessions) .initial es := by
  intro h
  have hlast : UniqueLive (Router.initial.run rejoined).sessions := (h rejoined).last
  have hcount := (Router.initial.run rejoined).sessions.countP_le_one
    (p:=fun r => r.principalId = "alice" && r.status.live) ?_
  · have htwo : (Router.initial.run rejoined).sessions.rows.countP
        (fun r => r.principalId = "alice" && r.status.live) = 2 := by decide +kernel
    omega
  · intro r hr r' hr' hp hp'
    simp only [Bool.and_eq_true,decide_eq_true_eq] at hp hp'
    rw [hlast r hr r' hr' hp.2 hp'.2 (hp.1.trans hp'.1.symm)]

end Runs
end RouterSessions
end CloudBrowser
