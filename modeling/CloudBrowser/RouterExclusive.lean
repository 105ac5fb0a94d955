import CloudBrowser.RouterTransitions

/-! Slots are handed out exclusively: a slot goes to at most one offered or active session,
under the binding of that session, and nobody else keeps one. -/
namespace CloudBrowser
namespace RouterSessions

open Stateful Keyed

/-- The record holds one of the configured slots, under its own binding. -/
def Placed (settings : Settings) (r : RouterSession) : Prop :=
  ∃ slot ∈ settings.slots, r.slotId = some slot.slotId ∧ r.binding = some (r.bindingOn slot)

structure Exclusive (settings : Settings) (t : SessionTable) : Prop where
  placed : ∀ r ∈ t, r.status.occupies → Placed settings r
  unplaced : ∀ r ∈ t, ¬r.status.occupies → r.slotId = none ∧ r.binding = none
  unshared : ∀ r ∈ t, ∀ r' ∈ t, r.status.occupies → r'.status.occupies → r.slotId = r'.slotId →
    r = r'

variable {settings : Settings} {t : SessionTable} {r r' : RouterSession}

theorem exclusive_empty : Exclusive settings .empty where
  placed _ hr := absurd hr Table.mem_empty
  unplaced _ hr := absurd hr Table.mem_empty
  unshared _ hr := absurd hr Table.mem_empty

/-- A record without a slot can take the place of any record. -/
theorem Exclusive.put_unplaced (h : Exclusive settings t) (hs : ¬r.status.occupies)
    (hslot : r.slotId = none) (hbinding : r.binding = none) : Exclusive settings (t.put r) := by
  constructor
  · intro x hx hocc
    rcases Table.mem_put.mp hx with rfl | hx
    · exact absurd hocc hs
    · exact h.placed x hx.1 hocc
  · intro x hx hocc
    rcases Table.mem_put.mp hx with rfl | hx
    · exact ⟨hslot,hbinding⟩
    · exact h.unplaced x hx.1 hocc
  · intro x hx y hy hxocc hyocc hxy
    rcases Table.mem_put.mp hx with rfl | hx
    · exact absurd hxocc hs
    rcases Table.mem_put.mp hy with rfl | hy
    · exact absurd hyocc hs
    exact h.unshared x hx.1 y hy.1 hxocc hyocc hxy

/-- A placed record can take its place when no other record occupies its slot. -/
theorem Exclusive.put_placed (h : Exclusive settings t) (hplaced : Placed settings r)
    (hs : r.status.occupies)
    (hfree : ∀ x ∈ t, x.status.occupies → x.slotId = r.slotId → x.sessionId = r.sessionId) :
    Exclusive settings (t.put r) := by
  constructor
  · intro x hx hocc
    rcases Table.mem_put.mp hx with rfl | hx
    · exact hplaced
    · exact h.placed x hx.1 hocc
  · intro x hx hocc
    rcases Table.mem_put.mp hx with rfl | hx
    · exact absurd hs hocc
    · exact h.unplaced x hx.1 hocc
  · intro x hx y hy hxocc hyocc hxy
    rcases Table.mem_put.mp hx with rfl | ⟨hxt,hxr⟩
    · rcases Table.mem_put.mp hy with rfl | ⟨hyt,hyr⟩
      · rfl
      · exact absurd (hfree y hyt hyocc hxy.symm) hyr
    · rcases Table.mem_put.mp hy with rfl | ⟨hyt,hyr⟩
      · exact absurd (hfree x hxt hxocc hxy) hxr
      · exact h.unshared x hxt y hyt hxocc hyocc hxy

/-- A record that keeps its slot keeps its place, whatever else changes in it. -/
theorem Exclusive.put_kept (h : Exclusive settings t) (hmem : r ∈ t) (hr : r.status.occupies)
    (hs : r'.status.occupies) (hid : r'.sessionId = r.sessionId)
    (hprincipal : r'.principalId = r.principalId) (hslot : r'.slotId = r.slotId)
    (hbinding : r'.binding = r.binding) : Exclusive settings (t.put r') := by
  apply h.put_placed _ hs
  · intro x hx hocc hxr
    rw [hid,h.unshared x hx r hmem hocc hr (hxr.trans hslot)]
  · obtain ⟨slot,hknown,hrslot,hrbinding⟩ := h.placed r hmem hr
    refine ⟨slot,hknown,hslot.trans hrslot,?_⟩
    rw [hbinding,hrbinding,RouterSession.bindingOn,RouterSession.bindingOn,hid,hprincipal]

theorem expire_occupies (now : Time) (h : (r.expire now).status.occupies) : r.expire now = r := by
  unfold RouterSession.expire at h ⊢
  by_cases hl : r.lapsed now
  · rw [if_pos hl] at h ⊢
    cases hs : r.status <;> simp [hs,SessionStatus.occupies] at h ⊢
  · rw [if_neg hl]

theorem expire_unplaced (now : Time) (hr : ¬r.status.occupies → r.slotId = none ∧ r.binding = none)
    (h : ¬(r.expire now).status.occupies) :
    (r.expire now).slotId = none ∧ (r.expire now).binding = none := by
  unfold RouterSession.expire at h ⊢
  by_cases hl : r.lapsed now
  · rw [if_pos hl] at h ⊢
    cases hs : r.status <;> simp [hs,SessionStatus.occupies] at h hr ⊢ <;> exact hr
  · rw [if_neg hl] at h ⊢
    exact hr h

theorem Exclusive.expireAll (h : Exclusive settings t) (now : Time) :
    Exclusive settings (expireAll t now) := by
  constructor
  · intro x hx hocc
    obtain ⟨r,hr,rfl⟩ := Table.mem_mapRows.mp hx
    have hsame := expire_occupies now hocc
    rw [hsame] at hocc ⊢
    exact h.placed r hr hocc
  · intro x hx hocc
    obtain ⟨r,hr,rfl⟩ := Table.mem_mapRows.mp hx
    exact expire_unplaced now (h.unplaced r hr) hocc
  · intro x hx y hy hxocc hyocc hxy
    obtain ⟨r,hr,rfl⟩ := Table.mem_mapRows.mp hx
    obtain ⟨r',hr',rfl⟩ := Table.mem_mapRows.mp hy
    have hxsame := expire_occupies now hxocc
    have hysame := expire_occupies now hyocc
    rw [hxsame] at hxocc hxy ⊢
    rw [hysame] at hyocc hxy ⊢
    exact h.unshared r hr r' hr' hxocc hyocc hxy

theorem exclusive_transition {s s' : Store} (h : Exclusive settings s.sessions)
    (hstep : Transition settings s s') : Exclusive settings s'.sessions := by
  cases hstep with
  | expire now => exact h.expireAll now
  | offer r slot expiresAt hmem hwaiting hknown hfree =>
    apply h.put_placed ⟨slot,hknown,rfl,rfl⟩ rfl
    intro x hx hocc hslot
    exact absurd (mem_occupied.mpr ⟨x,hx,hocc,hslot⟩) hfree
  | reserve n hlater => exact h
  | join r hfresh hnamed hwaiting hslot hbinding htimers =>
    exact h.put_unplaced (by simp [hwaiting,SessionStatus.occupies]) hslot hbinding
  | activate r expiresAt hmem hoffered =>
    exact h.put_kept hmem (by simp [hoffered,SessionStatus.occupies]) rfl rfl rfl rfl rfl
  | leave r hmem => exact h.put_unplaced (by simp [RouterSession.leave,SessionStatus.occupies]) rfl rfl
  | backoff r backoffUntil hmem =>
    exact h.put_unplaced (by simp [RouterSession.backoff,SessionStatus.occupies]) rfl rfl
  | renew r expiresAt hmem hactive =>
    have hocc : r.status.occupies := by simp [hactive,SessionStatus.occupies]
    exact h.put_kept hmem hocc hocc rfl rfl rfl rfl
  | persist => exact h

/-- In every state that the operations reach from an empty store, whatever they raise and
whatever the clock shows, slots are handed out exclusively. -/
theorem exclusive_run (settings : Settings) (es : List (Request × Outside)) :
    Exclusive settings (run settings .empty es).sessions := by
  apply (run_reaches .empty es).invariant (I:=fun s => Exclusive settings s.sessions)
  · exact fun _ _ => exclusive_transition
  · exact exclusive_empty

end RouterSessions
end CloudBrowser
