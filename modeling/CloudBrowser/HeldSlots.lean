import CloudBrowser.RouterRuns

/-! How long a session holds a slot. Whatever the operations do, two sessions never hold one
slot, and a session keeps the slot it holds until it ends, unless an operation finds its offer
lapsed or backs it off. -/
namespace CloudBrowser
namespace RouterSessions

open Keyed

section Unshared

variable {settings : Settings} {request : Request} {outside : Outside} {s s' : Store}
  {t : SessionTable} {r r' : RouterSession}

/-- No two sessions hold one slot. -/
def Unshared (t : SessionTable) : Prop :=
  ∀ r ∈ t, ∀ r' ∈ t, r.status.occupies = true → r'.status.occupies = true →
    r.slotId = r'.slotId → r = r'

/-- A record may be put where no other record holds its slot. -/
theorem Unshared.put (h : Unshared t) (hfree : r.status.occupies = true →
    ∀ x ∈ t, x.status.occupies = true → x.slotId = r.slotId → x.sessionId = r.sessionId) :
    Unshared (t.put r) := by
  intro x hx y hy hxocc hyocc hxy
  rcases Table.mem_put.mp hx with rfl | ⟨hxt,hxr⟩
  · rcases Table.mem_put.mp hy with rfl | ⟨hyt,hyr⟩
    · rfl
    · exact absurd (hfree hxocc y hyt hyocc hxy.symm) hyr
  · rcases Table.mem_put.mp hy with rfl | ⟨hyt,hyr⟩
    · exact absurd (hfree hyocc x hxt hxocc hxy) hxr
    · exact h x hxt y hyt hxocc hyocc hxy

/-- A changed record that holds no other slot than before. -/
theorem Unshared.same (h : Unshared t) (hmem : r ∈ t) (hid : r'.sessionId = r.sessionId)
    (hocc : r'.status.occupies = true → r.status.occupies = true ∧ r'.slotId = r.slotId) :
    Unshared (t.put r') := by
  apply h.put
  intro hr' x hx hxocc hxslot
  obtain ⟨hr,hslot⟩ := hocc hr'
  rw [hid,h x hx r hmem hxocc hr (hxslot.trans hslot)]

theorem occupies_expire (now : Time) (h : (r.expire now).status.occupies = true) :
    r.expire now = r := by
  unfold RouterSession.expire at h ⊢
  by_cases hl : r.lapsed now = true
  · rw [if_pos hl] at h ⊢
    cases hs : r.status <;> simp [hs,SessionStatus.occupies] at h ⊢
  · rw [if_neg hl]

theorem Unshared.expireAll (h : Unshared t) (now : Time) : Unshared (expireAll t now) := by
  intro x hx y hy hxocc hyocc hxy
  obtain ⟨r,hr,rfl⟩ := Table.mem_mapRows.mp hx
  obtain ⟨r',hr',rfl⟩ := Table.mem_mapRows.mp hy
  have hsame := occupies_expire now hxocc
  have hsame' := occupies_expire now hyocc
  rw [hsame] at hxocc hxy ⊢
  rw [hsame'] at hyocc hxy ⊢
  exact h r hr r' hr' hxocc hyocc hxy

theorem unshared_change (h : Unshared s.sessions)
    (hstep : Change settings request outside s s') : Unshared s'.sessions := by
  cases hstep with
  | expire n hpolls => exact h.expireAll _
  | offer r slot n hmem hwaiting hknown hfree =>
    apply h.put
    intro _ x hx hxocc hxslot
    exact absurd (mem_occupied.mpr ⟨x,hx,hxocc,hxslot⟩) hfree
  | reserve n hlater => exact h
  | join r hbounded hfresh hnamed halone hwaiting =>
    apply h.put
    intro hocc
    simp [hwaiting,SessionStatus.occupies] at hocc
  | activate r n hcalled hmem hoffered =>
    exact h.same hmem rfl fun _ => ⟨by simp [hoffered,SessionStatus.occupies],rfl⟩
  | leave r hcalled hmem =>
    exact h.same hmem rfl fun hocc => by simp [RouterSession.leave,SessionStatus.occupies] at hocc
  | backoff r n hcalled hmem =>
    exact h.same hmem rfl fun hocc => by simp [RouterSession.backoff,SessionStatus.occupies] at hocc
  | renew r n hcalled hmem hactive => exact h.same hmem rfl fun hocc => ⟨hocc,rfl⟩
  | persist => exact h

theorem unshared_run (es : List Event) : Unshared (Router.initial.run es).sessions := by
  have hrun := Router.upholds_run (I:=fun t _ => Unshared t)
    (fun _ hr => absurd hr Table.mem_empty)
    (fun s hs r hr r' hr' => hs r (mem_loadRecords hr) r' (mem_loadRecords hr'))
    (fun _ _ _ _ _ => unshared_change) es
  cases hr : Router.initial.run es with
  | down file => exact fun _ hr => absurd hr Table.mem_empty
  | up settings s =>
    rw [hr] at hrun
    exact hrun.1

end Unshared

section Kept

variable {settings : Settings} {request : Request} {outside : Outside} {s s' : Store}
  {t : SessionTable} {session r r' : RouterSession} {P : Prop}

/-- The record holds the slot of `session`, under its binding. -/
def Holds (session r : RouterSession) : Prop :=
  r.status.occupies = true ∧ r.slotId = session.slotId ∧ r.binding = session.binding

def Ended (r : RouterSession) : Prop := r.status = .stopped ∨ r.status = .left

/-- The session has ended, or is still where `session` was and `P`. -/
def Kept (session : RouterSession) (P : Prop) (t : SessionTable) : Prop :=
  ∃ r ∈ t, r.sessionId = session.sessionId ∧ (Ended r ∨ Holds session r ∧ P)

/-- An operation that backs the session off, or that polls when its offer has lapsed. -/
def Interrupts (request : Request) (outside : Outside) (t : SessionTable) (id : String) : Prop :=
  request = .backoff id ∨ request.polls = true ∧ ∃ r ∈ t, r.sessionId = id ∧
    r.status = .offered ∧ ∃ expiry ∈ r.offerExpiresAt, ∃ n, expiry ≤ outside.readings n

/-- No clock reading of the operation finds the record's offer lapsed. -/
def Unlapsing (request : Request) (outside : Outside) (r : RouterSession) : Prop :=
  request.polls = true → r.status = .offered →
    ∀ expiry ∈ r.offerExpiresAt, ∀ n, outside.readings n < expiry

/-- The session is kept, and the operation will not find its offer lapsed. -/
def Safe (request : Request) (outside : Outside) (session : RouterSession) (P : Prop)
    (t : SessionTable) : Prop :=
  ∃ r ∈ t, r.sessionId = session.sessionId ∧
    (Ended r ∨ (Holds session r ∧ P) ∧ Unlapsing request outside r)

theorem Safe.kept (h : Safe request outside session P t) : Kept session P t := by
  obtain ⟨r,hr,hid,hkept⟩ := h
  exact ⟨r,hr,hid,hkept.imp id And.left⟩

/-- Another session's record may be put beside it. -/
theorem Safe.other (h : Safe request outside session P t)
    (hid : r'.sessionId ≠ session.sessionId) : Safe request outside session P (t.put r') := by
  obtain ⟨r,hr,hsame,hkept⟩ := h
  exact ⟨r,Table.mem_put.mpr (Or.inr ⟨hr,by rw [hsame]; exact hid.symm⟩),hsame,hkept⟩

theorem Safe.ended (hid : r'.sessionId = session.sessionId) (h : Ended r') :
    Safe request outside session P (t.put r') :=
  ⟨r',Table.mem_put.mpr (Or.inl rfl),hid,Or.inl h⟩

theorem expire_safe (hpolls : request.polls = true)
    (h : Ended r ∨ (Holds session r ∧ P) ∧ Unlapsing request outside r) (n : ℕ) :
    Ended (r.expire (outside.readings n)) ∨ r.expire (outside.readings n) = r := by
  by_cases hl : r.lapsed (outside.readings n) = true
  · rcases h with h | ⟨⟨⟨hocc,-⟩,-⟩,hoffer⟩
    · rcases h with h | h <;> simp [RouterSession.lapsed,h] at hl
    · cases hs : r.status with
      | active =>
        left
        left
        simp [RouterSession.expire,hl,hs]
      | offered =>
        cases hexpiry : r.offerExpiresAt with
        | none => simp [RouterSession.lapsed,hs,hexpiry] at hl
        | some expiry =>
          have hlater := hoffer hpolls hs expiry (by simp [hexpiry]) n
          simp [RouterSession.lapsed,hs,hexpiry] at hl
          exact absurd hl (not_le.mpr hlater)
      | _ => simp [hs,SessionStatus.occupies] at hocc
  · right
    simp [RouterSession.expire,hl]

theorem safe_change (h : Safe request outside session P s.sessions)
    (hcalled : request ≠ .backoff session.sessionId)
    (hstep : Change settings request outside s s') :
    Safe request outside session P s'.sessions := by
  have hown : ∀ r ∈ s.sessions, r.sessionId = session.sessionId →
      Ended r ∨ (Holds session r ∧ P) ∧ Unlapsing request outside r := by
    obtain ⟨x,hx,hid,hkept⟩ := h
    intro r hr hsame
    rwa [Table.eq_of_key hr hx (hsame.trans hid.symm)]
  cases hstep with
  | expire n hpolls =>
    obtain ⟨x,hx,hid,hkept⟩ := h
    have hmem : x.expire (outside.readings n) ∈ expireAll s.sessions (outside.readings n) :=
      Table.mem_mapRows.mpr ⟨x,hx,rfl⟩
    rcases expire_safe hpolls hkept n with hended | hsame
    · exact ⟨_,hmem,by simpa using hid,Or.inl hended⟩
    · rw [hsame] at hmem
      exact ⟨x,hmem,hid,hkept⟩
  | offer r slot n hmem hwaiting hknown hfree =>
    apply h.other
    intro hid
    rcases hown r hmem hid with (hs | hs) | ⟨⟨⟨hocc,-⟩,-⟩,-⟩
    · simp [hwaiting] at hs
    · simp [hwaiting] at hs
    · simp [hwaiting,SessionStatus.occupies] at hocc
  | reserve n hlater => exact h
  | join r hbounded hfresh =>
    apply h.other
    obtain ⟨x,hx,hid,-⟩ := h
    intro hsame
    exact hfresh x hx (hid.trans hsame.symm)
  | activate r n hcalled hmem hoffered =>
    by_cases hid : r.sessionId = session.sessionId
    · have hactive : Holds session (r.activate (outside.readings n+settings.sessionTtl)) ∧ P := by
        rcases hown r hmem hid with (hs | hs) | ⟨hholds,-⟩
        · simp [hoffered] at hs
        · simp [hoffered] at hs
        · exact ⟨⟨rfl,hholds.1.2⟩,hholds.2⟩
      refine ⟨_,Table.mem_put.mpr (Or.inl rfl),hid,Or.inr ⟨hactive,fun _ hs => ?_⟩⟩
      simp [RouterSession.activate] at hs
    · exact h.other hid
  | leave r hcalled hmem =>
    by_cases hid : r.sessionId = session.sessionId
    · exact Safe.ended hid (Or.inr rfl)
    · exact h.other hid
  | backoff r n hcalled' hmem =>
    apply h.other
    intro hid
    have hsame : r.sessionId = session.sessionId := hid
    exact hcalled (by rw [hcalled',hsame])
  | renew r n hcalled hmem hactive =>
    by_cases hid : r.sessionId = session.sessionId
    · rcases hown r hmem hid with hs | ⟨hholds,-⟩
      · rcases hs with hs | hs <;> simp [hactive] at hs
      · refine ⟨_,Table.mem_put.mpr (Or.inl rfl),hid,Or.inr ⟨hholds,fun _ hs => ?_⟩⟩
        simp [RouterSession.renew,hactive] at hs
    · exact h.other hid
  | persist => exact h

/-- An operation that does not interrupt the session keeps it. -/
theorem Kept.step (h : Kept session P s.sessions)
    (hi : ¬Interrupts request outside s.sessions session.sessionId) :
    Kept session P (s.step settings (request,outside)).sessions := by
  obtain ⟨r,hr,hid,hkept⟩ := h
  simp only [Interrupts,not_or,not_and,not_exists,not_le] at hi
  have hsafe : Safe request outside session P s.sessions :=
    ⟨r,hr,hid,hkept.imp id fun hholds => ⟨hholds,fun hpolls hs => hi.2 hpolls r hr hid hs⟩⟩
  have hsteps := @step_changes settings s request outside
  exact (hsteps.invariant (I:=fun s => Safe request outside session P s.sessions)
    (fun _ _ hs hstep => safe_change hs hi.1 hstep) hsafe).kept

end Kept
end RouterSessions
end CloudBrowser
