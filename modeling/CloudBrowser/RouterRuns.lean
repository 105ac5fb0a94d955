import CloudBrowser.StateFile

/-! Invariants of the router over restarts: what is true of the sessions in memory, and was
true of those that the state file was written from. -/
namespace CloudBrowser
namespace RouterSessions

open Stateful Keyed

section Loading

variable {t : SessionTable} {r record : RouterSession} {rows : List RouterSession}

theorem mem_loadRecord (h : r ∈ loadRecord t record) : r ∈ t ∨ r = record := by
  have hput : r ∈ t.put record → r ∈ t ∨ r = record := by
    intro h
    rcases Table.mem_put.mp h with rfl | h
    · exact Or.inr rfl
    · exact Or.inl h.1
  rw [loadRecord] at h
  split at h
  · exact hput h
  · split at h
    · exact hput h
    · exact Or.inl h

theorem mem_loadRecords (h : r ∈ loadRecords rows) : r ∈ rows := by
  have hfold : ∀ (t : SessionTable), r ∈ rows.foldl loadRecord t → r ∈ t ∨ r ∈ rows := by
    clear h
    induction rows with
    | nil => exact fun t h => Or.inl h
    | cons x rows ih =>
      intro t h
      rcases ih _ h with h | h
      · rcases mem_loadRecord h with h | rfl
        · exact Or.inl h
        · exact Or.inr (by simp)
      · exact Or.inr (by simp [h])
  rcases hfold _ h with h | h
  · exact absurd h Table.mem_empty
  · exact h

theorem sequenceAfter_sessionName (next n : ℕ) :
    sequenceAfter next (sessionName n) = max next (n+1) := by
  have hlist : (sessionName n).toList = 'q' :: '-' :: Nat.toDigits 10 n := by
    simp [sessionName]
  have hnat : ((n : ℤ)+1).toNat = n+1 := by omega
  simp only [sequenceAfter,hlist,parseInt_digits,hnat]

/-- Sequence numbers that the records do not exceed are kept. -/
theorem foldl_sequenceAfter {ids : List String} {next : ℕ}
    (h : ∀ id ∈ ids, ∃ n < next, id = sessionName n) : ids.foldl sequenceAfter next = next := by
  induction ids with
  | nil => rfl
  | cons id ids ih =>
    obtain ⟨n,hn,rfl⟩ := h id (by simp)
    have hmax : max next (n+1) = next := by omega
    rw [List.foldl_cons,sequenceAfter_sessionName,hmax]
    exact ih fun x hx => h x (by simp [hx])

end Loading

/-- Expiry and assignment, as every poll and every start of the router runs them. -/
def refresh (settings : Settings) : Operation Unit := do
  let _ ← expireLocked
  let _ ← assignWaitersLocked settings
  return ()

/-- The store as `_load` reads it from what this one wrote, before expiry and assignment. -/
def Store.reloaded (s : Store) : Store where
  sessions := loadRecords s.sessions.rows
  nextSequence :=
    ((loadRecords s.sessions.rows).rows.map RouterSession.sessionId).foldl sequenceAfter
      s.nextSequence
  file := some (document s)

theorem construct_none (settings : Settings) (outside : Outside) :
    construct settings none outside = .ok ⟨.empty,1,none⟩ := rfl

/-- A router that starts from the state file of `s`. -/
theorem construct_document {settings : Settings} {s : Store} {outside : Outside}
    (h : ∀ r ∈ s.sessions, r.Storable) (hnext : 1 ≤ s.nextSequence) :
    construct settings (some (document s)) outside =
      .ok (exec (refresh settings) ⟨s.reloaded,outside⟩).2.store := by
  simp only [construct,load,exec_bind,exec_get,decodeDocument_document h hnext]
  rfl

theorem construct_document_ok {settings : Settings} {s s' : Store} {outside : Outside}
    (h : construct settings (some (document s)) outside = .ok s') :
    (∀ r ∈ s.sessions, r.Storable) ∧ 1 ≤ s.nextSequence := by
  cases hread : decodeDocument (document s) with
  | error e =>
    simp only [construct,load,exec_bind,exec_get,hread] at h
    cases h
  | ok x =>
    obtain ⟨hstorable,hnext,-⟩ := decodeDocument_ok hread
    exact ⟨hstorable,hnext⟩

theorem refresh_changes (settings : Settings) (s : Store) (outside : Outside) :
    Changes settings .roster outside s (exec (refresh settings) ⟨s,outside⟩).2.store := by
  have hkeeps : Keeps (During outside (Changes settings .roster outside s)) (refresh settings) := by
    apply Keeps.bind (expireLocked_keeps rfl)
    intro _
    apply Keeps.bind assignWaitersLocked_keeps
    exact fun _ => triple_pure fun _ h => h
  exact (hkeeps ⟨s,outside⟩ ⟨.refl,fun n => ⟨n,rfl⟩⟩).1

section Invariants

variable {I : SessionTable → ℕ → Prop} {settings : Settings} {request : Request}
  {outside : Outside} {s s' : Store}

/-- The state file, if there is one, was written by a store whose memory was in `I`. -/
def Written (I : SessionTable → ℕ → Prop) (file : Option Json) : Prop :=
  ∀ f ∈ file, ∃ s : Store, I s.sessions s.nextSequence ∧ f = document s

def Store.Upholds (I : SessionTable → ℕ → Prop) (s : Store) : Prop :=
  I s.sessions s.nextSequence ∧ Written I s.file

def Router.Upholds (I : SessionTable → ℕ → Prop) : Router → Prop
  | .down file => Written I file
  | .up _ s => s.Upholds I

theorem Router.Upholds.file {r : Router} (h : r.Upholds I) : Written I r.file := by
  cases r with
  | down file => exact h
  | up settings s => exact h.2

theorem Change.file (h : Change settings request outside s s') :
    s'.file = s.file ∨ s' = { s with file := some (document s) } := by
  cases h with
  | persist => exact Or.inr rfl
  | _ => exact Or.inl rfl

theorem Store.Upholds.change (h : s.Upholds I) (hstep : Change settings request outside s s')
    (hI : I s'.sessions s'.nextSequence) : s'.Upholds I := by
  refine ⟨hI,?_⟩
  rcases hstep.file with hfile | rfl
  · rw [hfile]
    exact h.2
  · rintro f ⟨⟩
    exact ⟨s,h.1,rfl⟩

theorem Store.Upholds.changes (h : s.Upholds I) (hsteps : Changes settings request outside s s')
    (hI : ∀ s s' : Store, I s.sessions s.nextSequence → Change settings request outside s s' →
      I s'.sessions s'.nextSequence) : s'.Upholds I :=
  hsteps.invariant (I:=Store.Upholds I) (fun s s' hs hstep => hs.change hstep (hI s s' hs.1 hstep)) h

/-- An invariant that holds of no sessions, of what loading keeps, and along expiry and
assignment, holds when a router starts. -/
theorem Router.Upholds.construct {r : Router} (h : r.Upholds I) (hempty : I .empty 1)
    (hload : ∀ s : Store, I s.sessions s.nextSequence →
      I s.reloaded.sessions s.reloaded.nextSequence)
    (hI : ∀ s s' : Store, I s.sessions s.nextSequence → Change settings .roster outside s s' →
      I s'.sessions s'.nextSequence) : (r.next (.construct settings outside)).Upholds I := by
  have hfile := h.file
  rw [Router.next]
  cases hf : r.file with
  | none =>
    rw [construct_none]
    exact ⟨hempty,fun f hf => nomatch hf⟩
  | some f =>
    obtain ⟨s₁,hs₁,rfl⟩ := hfile f hf
    cases hc : RouterSessions.construct settings (some (document s₁)) outside with
    | error e =>
      rintro f ⟨⟩
      exact ⟨s₁,hs₁,rfl⟩
    | ok s' =>
      obtain ⟨hstorable,hnext⟩ := construct_document_ok hc
      rw [construct_document hstorable hnext] at hc
      cases hc
      have hloaded : s₁.reloaded.Upholds I := by
        refine ⟨hload s₁ hs₁,?_⟩
        rintro f ⟨⟩
        exact ⟨s₁,hs₁,rfl⟩
      exact hloaded.changes (refresh_changes settings s₁.reloaded outside) hI

/-- Over any run of the router, restarts included. -/
theorem Router.upholds_run (hempty : I .empty 1)
    (hload : ∀ s : Store, I s.sessions s.nextSequence →
      I s.reloaded.sessions s.reloaded.nextSequence)
    (hI : ∀ settings request outside (s s' : Store), I s.sessions s.nextSequence →
      Change settings request outside s s' → I s'.sessions s'.nextSequence) (es : List Event) :
    (Router.initial.run es).Upholds I := by
  have hnext : ∀ (r : Router) (e : Event), r.Upholds I → (r.next e).Upholds I := by
    intro r e h
    cases e with
    | construct settings outside => exact h.construct hempty hload (hI settings .roster outside)
    | call request outside =>
      cases r with
      | down file => exact h
      | up settings s =>
        exact Store.Upholds.changes h (step_changes s request outside) (hI settings request outside)
  have hrun : ∀ (r : Router), r.Upholds I → (r.run es).Upholds I := by
    induction es with
    | nil => exact fun r h => h
    | cons e es ih => exact fun r h => ih _ (hnext r e h)
  exact hrun _ fun f hf => nomatch hf

end Invariants

/-- A router with one slot. -/
def oneSlot : Settings where
  slots := [⟨"slot-1","http://slot-1","browser-1",by decide +kernel,by decide +kernel⟩]
  offerTtl := 60
  sessionTtl := 3600
  backoffTtl := 30
  slots_ne := by simp
  slotIds_nodup := by simp
  browserIds_nodup := by simp
  offerTtl_pos := by decide +kernel
  sessionTtl_pos := by decide +kernel
  backoffTtl_pos := by decide +kernel

/-- The clock stands at `now`, and the disk takes every write. -/
def Outside.still (now : Time) : Outside := ⟨fun _ => now,fun _ => true⟩

/-- Alice has an offer until second 60. -/
def offered : List Event :=
  [.construct oneSlot (.still 0),.call (.enqueue "alice" "r1" none) (.still 0)]

end RouterSessions
end CloudBrowser
