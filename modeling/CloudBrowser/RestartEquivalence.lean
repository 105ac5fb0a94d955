import CloudBrowser.LiveSessions

/-! What a restart of the router preserves. A store started from the state file of another one
goes on from its sessions as they were, except where loading drops one: the session that a
record competes with is looked up under the principal id, among keys that are session ids. -/
namespace CloudBrowser
namespace RouterSessions

open Stateful Keyed

section Loading

variable {t : SessionTable} {r : RouterSession} {rows : List RouterSession}

/-- The record `r'`, loaded after `r`, is kept beside it. -/
def Yields (r r' : RouterSession) : Prop :=
  r.sessionId = r'.principalId → r'.survivorRank < r.survivorRank

instance : DecidableRel Yields := fun r r' => by unfold Yields; infer_instance

theorem loadRecord_rows (hfresh : ∀ x ∈ t, x.sessionId ≠ r.sessionId) :
    (loadRecord t r).rows = if ∀ x ∈ t.rows, Yields x r then t.rows ++ [r] else t.rows := by
  rw [loadRecord]
  cases hfind : t.find r.principalId with
  | none =>
    have hyields : ∀ x ∈ t.rows, Yields x r :=
      fun x hx heq => absurd heq (Table.find_eq_none.mp hfind x hx)
    simp only
    rw [if_pos hyields,Table.put_rows_of_fresh hfresh]
  | some current =>
    obtain ⟨hcurrent,hid⟩ := Table.find_eq_some.mp hfind
    simp only
    by_cases hrank : r.survivorRank < current.survivorRank
    · have hyields : ∀ x ∈ t.rows, Yields x r := by
        intro x hx heq
        rwa [Table.eq_of_key hx hcurrent (heq.trans hid.symm)]
      rw [if_pos hrank,if_pos hyields,Table.put_rows_of_fresh hfresh]
    · have hnot : ¬∀ x ∈ t.rows, Yields x r := fun h => hrank (h current hcurrent hid)
      rw [if_neg hrank,if_neg hnot]

theorem fresh_of_nodup (hkeys : ((t.rows ++ r::rows).map RouterSession.sessionId).Nodup) :
    ∀ x ∈ t, x.sessionId ≠ r.sessionId := by
  intro x hx heq
  rw [List.map_append,List.nodup_append] at hkeys
  exact hkeys.2.2 x.sessionId (List.mem_map_of_mem hx) r.sessionId (by simp) heq

theorem foldl_loadRecord_sublist
    (hkeys : ((t.rows ++ rows).map RouterSession.sessionId).Nodup) :
    (rows.foldl loadRecord t).rows.Sublist (t.rows ++ rows) := by
  induction rows generalizing t with
  | nil => simp
  | cons r rows ih =>
    have hfresh := fresh_of_nodup hkeys
    have hsub : ((loadRecord t r).rows ++ rows).Sublist (t.rows ++ r::rows) := by
      rw [loadRecord_rows hfresh]
      split
      · simp
      · exact (List.sublist_cons_self r rows).append_left t.rows
    exact (ih ((hsub.map RouterSession.sessionId).nodup hkeys)).trans hsub

/-- Loading keeps every record exactly if each yields to those loaded before it. -/
theorem foldl_loadRecord_rows
    (hkeys : ((t.rows ++ rows).map RouterSession.sessionId).Nodup) :
    (rows.foldl loadRecord t).rows = t.rows ++ rows ↔
      rows.Pairwise Yields ∧ ∀ x ∈ t.rows, ∀ r ∈ rows, Yields x r := by
  induction rows generalizing t with
  | nil => simp
  | cons r rows ih =>
    have hfresh := fresh_of_nodup hkeys
    have hrows := loadRecord_rows hfresh
    by_cases hyields : ∀ x ∈ t.rows, Yields x r
    · rw [if_pos hyields] at hrows
      have happend : t.rows ++ r::rows = (loadRecord t r).rows ++ rows := by simp [hrows]
      rw [happend] at hkeys ⊢
      rw [List.foldl_cons,ih hkeys,hrows,List.pairwise_cons]
      constructor
      · rintro ⟨hpair,hcross⟩
        refine ⟨⟨fun r' hr' => hcross r (by simp) r' hr',hpair⟩,?_⟩
        intro x hx r' hr'
        rcases List.mem_cons.mp hr' with rfl | hr'
        · exact hyields x hx
        · exact hcross x (by simp [hx]) r' hr'
      · rintro ⟨⟨hfirst,hpair⟩,hcross⟩
        refine ⟨hpair,?_⟩
        intro x hx r' hr'
        rcases List.mem_append.mp hx with hx | hx
        · exact hcross x hx r' (by simp [hr'])
        · obtain rfl := List.mem_singleton.mp hx
          exact hfirst r' hr'
    · rw [if_neg hyields] at hrows
      constructor
      · intro h
        have hsub : (t.rows ++ rows).Sublist (t.rows ++ r::rows) :=
          (List.sublist_cons_self r rows).append_left t.rows
        have hrest := (hsub.map RouterSession.sessionId).nodup hkeys
        rw [← hrows] at hrest
        have hlength := (foldl_loadRecord_sublist hrest).length_le
        rw [List.foldl_cons] at h
        rw [h,hrows] at hlength
        simp only [List.length_append,List.length_cons] at hlength
        omega
      · rintro ⟨-,hcross⟩
        exact absurd (fun x hx => hcross x hx r (by simp)) hyields

theorem loadRecords_sublist (t : SessionTable) :
    (loadRecords t.rows).rows.Sublist t.rows := by
  have h := @foldl_loadRecord_sublist .empty t.rows (by simpa using t.distinct)
  simpa [loadRecords] using h

theorem loadRecords_rows_iff (t : SessionTable) :
    (loadRecords t.rows).rows = t.rows ↔ t.rows.Pairwise Yields := by
  have h := @foldl_loadRecord_rows .empty t.rows (by simpa using t.distinct)
  simpa [loadRecords] using h

end Loading

section Sound

variable {settings : Settings} {request : Request} {outside : Outside} {s s' : Store}
  {t : SessionTable} {next : ℕ} {r : RouterSession}

/-- What is true of every record that a router has made. -/
structure Made (next : ℕ) (r : RouterSession) : Prop where
  named : ∃ n < next, r.sessionId = sessionName n
  principalId : readable r.principalId
  requestId : readable r.requestId
  displayEmail : ∀ e ∈ r.displayEmail, readable e
  owner : ∀ b ∈ r.binding, b.principalId = r.principalId

def Sound (t : SessionTable) (next : ℕ) : Prop := 1 ≤ next ∧ ∀ r ∈ t, Made next r

theorem Sound.put (h : Sound t next) (hr : Made next r) : Sound (t.put r) next := by
  refine ⟨h.1,fun x hx => ?_⟩
  rcases Table.mem_put.mp hx with rfl | hx
  · exact hr
  · exact h.2 x hx.1

/-- A record may change in everything that identifies neither it nor its owner. -/
theorem Made.same {r' : RouterSession} (h : Made next r) (hid : r'.sessionId = r.sessionId)
    (hprincipal : r'.principalId = r.principalId) (hrequest : r'.requestId = r.requestId)
    (hemail : r'.displayEmail = r.displayEmail)
    (howner : ∀ b ∈ r'.binding, b.principalId = r.principalId) : Made next r' := by
  refine ⟨?_,?_,?_,?_,?_⟩
  · rw [hid]
    exact h.named
  · rw [hprincipal]
    exact h.principalId
  · rw [hrequest]
    exact h.requestId
  · rw [hemail]
    exact h.displayEmail
  · rw [hprincipal]
    exact howner

theorem Made.expire (h : Made next r) (now : Time) : Made next (r.expire now) := by
  unfold RouterSession.expire
  split
  · split
    · exact h.same rfl rfl rfl rfl fun b hb => nomatch hb
    · exact h.same rfl rfl rfl rfl fun b hb => nomatch hb
    · exact h.same rfl rfl rfl rfl h.owner
    · exact h
  · exact h

theorem sound_change (h : Sound s.sessions s.nextSequence)
    (hstep : Change settings request outside s s') : Sound s'.sessions s'.nextSequence := by
  cases hstep with
  | expire n hpolls =>
    refine ⟨h.1,fun x hx => ?_⟩
    obtain ⟨r,hr,rfl⟩ := mem_expireAll.mp hx
    exact (h.2 r hr).expire _
  | offer r slot n hmem hwaiting hknown hfree =>
    have howner : ∀ b ∈ (r.offer slot (outside.readings n+settings.offerTtl)).binding,
        b.principalId = r.principalId := by
      rintro b ⟨⟩
      rfl
    exact h.put ((h.2 r hmem).same rfl rfl rfl rfl howner)
  | reserve n hlater =>
    refine ⟨by simp,fun r hr => ?_⟩
    obtain ⟨m,hm,hname⟩ := (h.2 r hr).named
    have hmade := h.2 r hr
    exact ⟨⟨m,by simp; omega,hname⟩,hmade.principalId,hmade.requestId,hmade.displayEmail,hmade.owner⟩
  | join r hbounded hfresh hnamed hfirst hwaiting hslot hbinding =>
    apply h.put ⟨hnamed,hbounded.principalId,hbounded.requestId,hbounded.displayEmail,?_⟩
    intro b hb
    rw [hbinding] at hb
    cases hb
  | activate r n hcalled hmem hoffered =>
    exact h.put ((h.2 r hmem).same rfl rfl rfl rfl (h.2 r hmem).owner)
  | leave r hcalled hmem =>
    exact h.put ((h.2 r hmem).same rfl rfl rfl rfl fun b hb => nomatch hb)
  | backoff r n hcalled hmem =>
    exact h.put ((h.2 r hmem).same rfl rfl rfl rfl fun b hb => nomatch hb)
  | renew r n hcalled hmem hactive =>
    exact h.put ((h.2 r hmem).same rfl rfl rfl rfl (h.2 r hmem).owner)
  | persist => exact h

theorem Sound.names (h : Sound t next) {rows : List RouterSession} (hrows : ∀ r ∈ rows, r ∈ t) :
    (rows.map RouterSession.sessionId).foldl sequenceAfter next = next := by
  apply foldl_sequenceAfter
  intro id hid
  obtain ⟨r,hr,rfl⟩ := List.mem_map.mp hid
  exact (h.2 r (hrows r hr)).named

theorem sound_reloaded (h : Sound s.sessions s.nextSequence) :
    Sound s.reloaded.sessions s.reloaded.nextSequence := by
  have hkept : s.reloaded.nextSequence = s.nextSequence := h.names fun r hr => mem_loadRecords hr
  rw [hkept]
  exact ⟨h.1,fun r hr => h.2 r (mem_loadRecords hr)⟩

theorem sound_empty : Sound .empty 1 := ⟨by omega,fun _ hr => absurd hr Table.mem_empty⟩

theorem sound_run (es : List Event) {s : Store} (h : Router.initial.run es = .up settings s) :
    Sound s.sessions s.nextSequence := by
  have hrun := Router.upholds_run (I:=Sound) sound_empty (fun s => sound_reloaded)
    (fun _ _ _ _ _ => sound_change) es
  rw [h] at hrun
  exact hrun.1

end Sound

section Restart

variable {settings : Settings} {s : Store} {outside : Outside}

theorem length_refresh (s : Store) (outside : Outside) :
    (exec (refresh settings) ⟨s,outside⟩).2.store.sessions.rows.length = s.sessions.rows.length := by
  have hexpire : (expireAll s.sessions (outside.readings 0)).rows.length = s.sessions.rows.length :=
    List.length_map _
  show (assignAll settings (expireAll s.sessions (outside.readings 0))
    (outside.readings 1)).rows.length = _
  apply offerAll_induct (P:=fun t => t.rows.length = s.sessions.rows.length) _ hexpire
  intro t r slot ht hmem hwaiting hknown hfree
  have hlength := Table.length_put_of_mem hmem
    (x:=r.offer slot (outside.readings 1+settings.offerTtl)) rfl
  rw [hlength,ht]

/-- A store that starts from the state file of `s` is `s` after expiry and assignment, and
the next sequence number is greater than that of every record. -/
def Restores (settings : Settings) (s : Store) (outside : Outside) : Prop :=
  ∃ s', construct settings (some (document s)) outside = .ok s' ∧
    s' = (exec (refresh settings) ⟨s.saved,outside⟩).2.store ∧
    ∀ r ∈ s'.sessions, ∀ n, r.sessionId = sessionName n → n < s'.nextSequence

/-- What a restore comes to in numbers: as many records are loaded as there were. -/
theorem Restores.length (h : Restores settings s outside) :
    (loadRecords s.sessions.rows).rows.length = s.sessions.rows.length := by
  obtain ⟨s',hconstruct,hs',-⟩ := h
  obtain ⟨hstorable,hnext⟩ := construct_document_ok hconstruct
  rw [construct_document hstorable hnext,hs'] at hconstruct
  have hlength := congrArg (fun s : Store => s.sessions.rows.length) (Except.ok.inj hconstruct)
  simp only [length_refresh] at hlength
  exact hlength

/-- The records read back: their slots and session ids pass validation, and none is dropped
in favour of the record whose session id is its principal id. -/
structure Restorable (s : Store) : Prop where
  slotIds : ∀ r ∈ s.sessions, ∀ k ∈ r.slotId, readable k
  sessionIds : ∀ r ∈ s.sessions, readable r.sessionId
  kept : s.sessions.rows.Pairwise Yields

theorem storable_of_made {r : RouterSession} {next : ℕ} (h : Made next r)
    (hslot : ∀ k ∈ r.slotId, readable k) (hid : readable r.sessionId) : r.Storable :=
  ⟨hid,h.requestId,h.principalId,hslot,h.displayEmail,h.owner⟩

/-- Where nothing is dropped, what is loaded is what was saved. -/
theorem reloaded_eq_saved (h : Sound s.sessions s.nextSequence)
    (hkept : s.sessions.rows.Pairwise Yields) : s.reloaded = s.saved := by
  have hsessions : loadRecords s.sessions.rows = s.sessions :=
    Table.ext ((loadRecords_rows_iff s.sessions).mpr hkept)
  have hnext : (s.sessions.rows.map RouterSession.sessionId).foldl sequenceAfter
      s.nextSequence = s.nextSequence := h.names fun r hr => hr
  rw [Store.reloaded,hsessions,hnext]
  rfl

/-- In every state that a router reaches, a restart from its state file restores it exactly
if its records are read back. -/
theorem restores_iff (es : List Event) (h : Router.initial.run es = .up settings s)
    (outside : Outside) : Restores settings s outside ↔ Restorable s := by
  have hsound := sound_run es h
  constructor
  · intro hrestores
    have hlength := hrestores.length
    obtain ⟨s',hconstruct,-,-⟩ := hrestores
    obtain ⟨hstorable,hnext⟩ := construct_document_ok hconstruct
    refine ⟨fun r hr => (hstorable r hr).slotId,fun r hr => (hstorable r hr).sessionId,?_⟩
    -- a record that was dropped would be missed
    by_contra hdropped
    have hrows : (loadRecords s.sessions.rows).rows ≠ s.sessions.rows :=
      fun heq => hdropped ((loadRecords_rows_iff s.sessions).mp heq)
    exact hrows ((loadRecords_sublist s.sessions).eq_of_length hlength)
  · intro hr
    have hstorable : ∀ r ∈ s.sessions, r.Storable :=
      fun r hmem => storable_of_made (hsound.2 r hmem) (hr.slotIds r hmem) (hr.sessionIds r hmem)
    refine ⟨_,construct_document hstorable hsound.1,by rw [reloaded_eq_saved hsound hr.kept],?_⟩
    intro r hmem n hn
    have hsteps := refresh_changes settings s.reloaded outside
    have hafter := hsteps.invariant (I:=fun s => Sound s.sessions s.nextSequence)
      (fun _ _ hs hstep => sound_change hs hstep) (sound_reloaded hsound)
    obtain ⟨m,hm,hname⟩ := (hafter.2 r hmem).named
    rwa [sessionName_injective (hn.symm.trans hname)]

/-- A principal is named like the session that alice was given before. -/
def namesake : List Event :=
  [.construct oneSlot (.still 0),.call (.enqueue "alice" "r1" none) (.still 0),
    .call (.enqueue "q-1" "r2" none) (.still 0)]

theorem restores_iff_namesake : ∃ s, Router.initial.run namesake = .up oneSlot s ∧
    (Restores oneSlot s (.still 1) ↔ Restorable s) :=
  ⟨_,rfl,restores_iff namesake rfl (.still 1)⟩

theorem namesake_lost : ¬∀ (es : List Event) (settings : Settings) (s : Store),
    Router.initial.run es = .up settings s →
      ∀ outside : Outside, Restores settings s outside := by
  intro h
  obtain ⟨s,hs⟩ : ∃ s, Router.initial.run namesake = .up oneSlot s := ⟨_,rfl⟩
  have hlength := (h namesake oneSlot s hs (.still 1)).length
  have hsessions : s.sessions = (Router.initial.run namesake).sessions := by
    rw [hs]
    rfl
  have htwo : (Router.initial.run namesake).sessions.rows.length = 2 := by decide +kernel
  have hone : (loadRecords (Router.initial.run namesake).sessions.rows).rows.length = 1 := by
    decide +kernel
  rw [hsessions,htwo,hone] at hlength
  omega

end Restart
end RouterSessions
end CloudBrowser
