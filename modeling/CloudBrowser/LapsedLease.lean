import CloudBrowser.LiveSessions

/-! Which leases `activate` honours. It does not look at the clock before it answers: an offer
or a session whose time is up is activated, or left active, as if it were not. -/
namespace CloudBrowser
namespace RouterSessions

open Stateful Keyed

/-- The record holds an offer or a session that is still running at `now`. -/
def Leased (now : Time) (r : RouterSession) : Prop :=
  r.status = .offered ∧ r.offerExpiresAt.any (now < ·) ∨
    r.status = .active ∧ r.sessionExpiresAt.any (now < ·)

instance (now : Time) : DecidablePred (Leased now) := fun r => by unfold Leased; infer_instance

/-- Offers and sessions have an end. -/
def Timed (t : SessionTable) : Prop :=
  ∀ r ∈ t, (r.status = .offered → r.offerExpiresAt.isSome) ∧
    (r.status = .active → r.sessionExpiresAt.isSome)

section Timers

variable {settings : Settings} {request : Request} {outside : Outside} {s s' : Store}
  {t : SessionTable} {r : RouterSession}

theorem Timed.put (h : Timed t) (hoffered : r.status = .offered → r.offerExpiresAt.isSome)
    (hactive : r.status = .active → r.sessionExpiresAt.isSome) : Timed (t.put r) := by
  intro x hx
  rcases Table.mem_put.mp hx with rfl | hx
  · exact ⟨hoffered,hactive⟩
  · exact h x hx.1

theorem Timed.expireAll (h : Timed t) (now : Time) : Timed (expireAll t now) := by
  intro x hx
  obtain ⟨r,hr,rfl⟩ := mem_expireAll.mp hx
  have htimed := h r hr
  by_cases hl : r.lapsed now = true
  · unfold RouterSession.expire
    rw [if_pos hl]
    cases hs : r.status <;> simp [hs] at htimed ⊢
  · rw [expire_of_not_lapsed (by simpa using hl)]
    exact htimed

theorem timed_change (h : Timed s.sessions) (hstep : Change settings request outside s s') :
    Timed s'.sessions := by
  cases hstep with
  | expire n hpolls => exact h.expireAll _
  | offer r slot n hmem hwaiting hknown hfree =>
    exact h.put (fun _ => rfl) fun hactive => by simp [RouterSession.offer] at hactive
  | reserve n hlater => exact h
  | join r hbounded hfresh hnamed hfirst hwaiting =>
    exact h.put (fun hs => by simp [hwaiting] at hs) fun hs => by simp [hwaiting] at hs
  | activate r n hcalled hmem hoffered =>
    exact h.put (fun hs => by simp [RouterSession.activate] at hs) fun _ => rfl
  | leave r hcalled hmem =>
    exact h.put (fun hs => by simp [RouterSession.leave] at hs) fun hs => by
      simp [RouterSession.leave] at hs
  | backoff r n hcalled hmem =>
    exact h.put (fun hs => by simp [RouterSession.backoff] at hs) fun hs => by
      simp [RouterSession.backoff] at hs
  | renew r n hcalled hmem hactive => exact h.put (fun hs => (h r hmem).1 hs) fun _ => rfl
  | persist => exact h

theorem timed_run (es : List Event) : Timed (Router.initial.run es).sessions := by
  have hrun := Router.upholds_run (I:=fun t _ => Timed t)
    (fun _ hr => absurd hr Table.mem_empty) (fun s hs r hr => hs r (mem_loadRecords hr))
    (fun _ _ _ _ _ => timed_change) es
  cases hr : Router.initial.run es with
  | down file => exact fun _ hr => absurd hr Table.mem_empty
  | up settings s =>
    rw [hr] at hrun
    exact hrun.1

/-- A record that is offered or active is leased exactly if it has not lapsed. -/
theorem leased_iff {now : Time} (h : (r.status = .offered → r.offerExpiresAt.isSome) ∧
      (r.status = .active → r.sessionExpiresAt.isSome)) :
    Leased now r ↔ (r.status = .offered ∨ r.status = .active) ∧ r.lapsed now = false := by
  cases hs : r.status with
  | offered =>
    obtain ⟨x,hx⟩ := Option.isSome_iff_exists.mp (h.1 hs)
    simp [Leased,RouterSession.lapsed,hs,hx]
  | active =>
    obtain ⟨x,hx⟩ := Option.isSome_iff_exists.mp (h.2 hs)
    simp [Leased,RouterSession.lapsed,hs,hx]
  | _ => simp [Leased,hs]

end Timers

section Activation

variable {settings : Settings} {outside : Outside} {s : Store} {id : String}
  {record : RouterSession}

/-- `activate` called at the first clock reading leaves or returns a record active only if it
was leased; the records of other sessions stay as they are. -/
def ActivatesLeased (settings : Settings) (s : Store) (id : String) (outside : Outside) : Prop :=
  ∀ r, (r ∈ (exec (activate settings id) ⟨s,outside⟩).2.store.sessions ∨
      (exec (activate settings id) ⟨s,outside⟩).1 = .ok r) → r.status = .active →
    (r ∈ s.sessions ∧ r.sessionId ≠ id) ∨
      ∃ r₀ ∈ s.sessions, r₀.sessionId = id ∧ r.sessionId = id ∧ Leased (outside.readings 0) r₀

/-- What `activate` leaves in memory, whether or not the state file is written. -/
theorem activate_sessions :
    (exec (activate settings id) ⟨s,outside⟩).2.store.sessions =
      match s.sessions.find id with
      | some r =>
        if readable id = true ∧ r.status = .offered then
          s.sessions.put (r.activate (outside.readings 0+settings.sessionTtl))
        else s.sessions
      | none => s.sessions := by
  by_cases hid : readable id = true
  · cases hfind : s.sessions.find id with
    | none => simp [-bind_pure_comp,activate,exec_bind,exec_requireLocked,hid,hfind]
    | some r =>
      by_cases hactive : r.status = .active
      · simp [-bind_pure_comp,activate,exec_bind,exec_requireLocked,hid,hfind,hactive]
      by_cases hoffered : r.status = .offered
      · by_cases hwrite : outside.writes 0 = true <;>
          simp [-bind_pure_comp,activate,exec_bind,exec_requireLocked,exec_persistLocked,hid,hfind,
            hoffered,hwrite]
      · simp [-bind_pure_comp,activate,exec_bind,exec_requireLocked,hid,hfind,hactive,hoffered]
  · cases hfind : s.sessions.find id <;>
      simp [-bind_pure_comp,activate,exec_bind,exec_requireLocked,hid]

/-- What `activate` returns is in memory. -/
theorem activate_answer (h : (exec (activate settings id) ⟨s,outside⟩).1 = .ok record) :
    record ∈ (exec (activate settings id) ⟨s,outside⟩).2.store.sessions := by
  by_cases hid : readable id = true
  · cases hfind : s.sessions.find id with
    | none => simp [-bind_pure_comp,activate,exec_bind,exec_requireLocked,hid,hfind] at h
    | some r =>
      have hmem := (Table.find_eq_some.mp hfind).1
      by_cases hactive : r.status = .active
      · simp [-bind_pure_comp,activate,exec_bind,exec_requireLocked,hid,hfind,hactive] at h ⊢
        rwa [← h]
      by_cases hoffered : r.status = .offered
      · by_cases hwrite : outside.writes 0 = true <;>
          simp [-bind_pure_comp,activate,exec_bind,exec_requireLocked,exec_persistLocked,hid,hfind,
            hoffered,hwrite] at h ⊢
        exact Or.inl h.symm
      · simp [-bind_pure_comp,activate,exec_bind,exec_requireLocked,hid,hfind,hactive,
          hoffered] at h
  · simp [-bind_pure_comp,activate,exec_bind,exec_requireLocked,hid] at h

/-- The session that is named has not lapsed: neither as an active session, nor as an offer
that the call is going to take up. -/
def Unlapsed (s : Store) (id : String) (now : Time) : Prop :=
  ∀ r ∈ s.sessions, r.sessionId = id →
    (r.status = .active ∨ r.status = .offered ∧ readable id) → r.lapsed now = false

/-- In every state that a router reaches, `activate` honours leases only exactly if the
session it names has not lapsed by then. -/
theorem activatesLeased_iff (es : List Event) {s : Store}
    (h : Router.initial.run es = .up settings s) (id : String) (outside : Outside) :
    ActivatesLeased settings s id outside ↔ Unlapsed s id (outside.readings 0) := by
  have htimed : Timed s.sessions := by
    have hrun := timed_run es
    rwa [h] at hrun
  rw [ActivatesLeased,activate_sessions]
  constructor
  · intro hleased r hr hrid hstatus
    have hfind := Table.find_eq_some.mpr ⟨hr,hrid⟩
    -- the record that is active afterwards, and was `r` before
    have hafter : Leased (outside.readings 0) r := by
      rcases hstatus with hactive | ⟨hoffered,hid⟩
      · have hkept := hleased r (Or.inl (by simp [hfind,hactive,hr])) hactive
        rcases hkept with ⟨-,hne⟩ | ⟨r₀,hr₀,hid₀,-,hlease⟩
        · exact absurd hrid hne
        · rwa [Table.eq_of_key hr hr₀ (hrid.trans hid₀.symm)]
      · have hmade := hleased (r.activate (outside.readings 0+settings.sessionTtl))
          (Or.inl (by simp [hfind,hoffered,hid])) rfl
        rcases hmade with ⟨-,hne⟩ | ⟨r₀,hr₀,hid₀,-,hlease⟩
        · exact absurd hrid hne
        · rwa [Table.eq_of_key hr hr₀ (hrid.trans hid₀.symm)]
    exact ((leased_iff (htimed r hr)).mp hafter).2
  · intro hunlapsed r hr hactive
    have hmem : r ∈ (exec (activate settings id) ⟨s,outside⟩).2.store.sessions := by
      rcases hr with hr | hr
      · rwa [activate_sessions]
      · exact activate_answer hr
    rw [activate_sessions] at hmem
    have hold : r ∈ s.sessions → (r ∈ s.sessions ∧ r.sessionId ≠ id) ∨ ∃ r₀ ∈ s.sessions,
        r₀.sessionId = id ∧ r.sessionId = id ∧ Leased (outside.readings 0) r₀ := by
      intro hr
      by_cases hid : r.sessionId = id
      · have hlive := hunlapsed r hr hid (Or.inl hactive)
        exact Or.inr ⟨r,hr,hid,hid,(leased_iff (htimed r hr)).mpr ⟨Or.inr hactive,hlive⟩⟩
      · exact Or.inl ⟨hr,hid⟩
    cases hfind : s.sessions.find id with
    | none =>
      simp only [hfind] at hmem
      exact hold hmem
    | some r₀ =>
      obtain ⟨hr₀,hid₀⟩ := Table.find_eq_some.mp hfind
      simp only [hfind] at hmem
      by_cases hoffered : readable id = true ∧ r₀.status = .offered
      · rw [if_pos hoffered] at hmem
        rcases Table.mem_put.mp hmem with rfl | ⟨hr,-⟩
        · have hlive := hunlapsed r₀ hr₀ hid₀ (Or.inr ⟨hoffered.2,hoffered.1⟩)
          have hlease := (leased_iff (htimed r₀ hr₀)).mpr ⟨Or.inl hoffered.2,hlive⟩
          exact Or.inr ⟨r₀,hr₀,hid₀,hid₀,hlease⟩
        · exact hold hr
      · rw [if_neg hoffered] at hmem
        exact hold hmem

theorem activatesLeased_iff_offered : ∃ s, Router.initial.run offered = .up oneSlot s ∧
    (ActivatesLeased oneSlot s "q-1" (.still 100) ↔ Unlapsed s "q-1" 100) :=
  ⟨_,rfl,activatesLeased_iff offered rfl "q-1" (.still 100)⟩

theorem lapsed_offer_activates : ¬∀ (es : List Event) (settings : Settings) (s : Store),
    Router.initial.run es = .up settings s →
      ∀ (id : String) (outside : Outside), ActivatesLeased settings s id outside := by
  intro h
  obtain ⟨s,hs,hactive,hlapsed⟩ : ∃ s, Router.initial.run offered = .up oneSlot s ∧
      ((exec (activate oneSlot "q-1") ⟨s,.still 100⟩).2.store.sessions.rows.any
        fun r => r.status = .active) = true ∧
      (s.sessions.rows.all fun r => r.sessionId = "q-1" && !decide (Leased 100 r)) = true :=
    ⟨_,rfl,by decide +kernel,by decide +kernel⟩
  have hleased := h offered oneSlot s hs "q-1" (.still 100)
  obtain ⟨r,hr,hstatus⟩ := List.any_eq_true.mp hactive
  have hbefore : ∀ r₀ ∈ s.sessions, r₀.sessionId = "q-1" ∧ ¬Leased 100 r₀ := by
    intro r₀ hr₀
    simpa using List.all_eq_true.mp hlapsed r₀ hr₀
  rcases hleased r (Or.inl hr) (by simpa using hstatus) with ⟨hr,hne⟩ | ⟨r₀,hr₀,-,-,hlease⟩
  · exact hne (hbefore r hr).1
  · exact (hbefore r₀ hr₀).2 hlease

end Activation
end RouterSessions
end CloudBrowser
