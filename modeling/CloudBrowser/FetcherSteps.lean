import CloudBrowser.CredentialFetcher

/-! What one step of a call, or of the environment, can do to the tables, the write lock and
the other calls. -/
namespace CloudBrowser
namespace CredentialFetcher

open Interleave GrantCustody VaultItems

section Rows

/-- The row after any number of erasures and rotations. -/
inductive Descends (r : GrantRow) : GrantRow → Prop
  | refl : Descends r r
  | erase {r' : GrantRow} (epoch now : ℕ) (h : Descends r r') : Descends r (r'.erase epoch now)
  | rotate {r' : GrantRow} (session : Envelope) (now : ℕ) (h : Descends r r') :
      Descends r (r'.rotate session now)

theorem Descends.trans {r r' r'' : GrantRow} (h : Descends r r') (h' : Descends r' r'') :
    Descends r r'' := by
  induction h' with
  | refl => exact h
  | erase epoch now _ ih => exact .erase epoch now ih
  | rotate session now _ ih => exact .rotate session now ih

theorem Descends.grantId {r r' : GrantRow} (h : Descends r r') : r'.grantId = r.grantId := by
  induction h with
  | refl => rfl
  | erase _ _ _ ih => exact ih
  | rotate _ _ _ ih => exact ih

theorem Descends.scope {r r' : GrantRow} (h : Descends r r') : r'.scope = r.scope := by
  induction h with
  | refl => rfl
  | erase _ _ _ ih => exact ih
  | rotate _ _ _ ih => exact ih

/-- A row that is still active was never erased: only its session leg may differ. -/
theorem Descends.active {r r' : GrantRow} (h : Descends r r') (ha : r'.active = true) :
    r.active = true ∧ r'.epoch = r.epoch ∧ r'.legs.kUser = r.legs.kUser := by
  induction h with
  | refl => exact ⟨ha,rfl,rfl⟩
  | erase _ _ _ _ => cases ha
  | rotate _ _ _ ih => exact ih ha

/-- Every row of a grant id drawn before descends from a row of the earlier tables. -/
def Evolves (drawn : List FreshId) (db db' : Database) : Prop :=
  ∀ d ∈ drawn, ∀ r ∈ db'.grants, r.grantId = d.toGrantId → ∃ r' ∈ db.grants, Descends r' r

theorem Evolves.refl (drawn : List FreshId) (db : Database) : Evolves drawn db db :=
  fun _ _ r hr _ => ⟨r,hr,.refl⟩

theorem Evolves.trans {drawn drawn' : List FreshId} {db db' db'' : Database}
    (h : Evolves drawn db db') (hd : drawn ⊆ drawn') (h' : Evolves drawn' db' db'') :
    Evolves drawn db db'' := by
  intro d hmem r hr hid
  obtain ⟨r',hr',hdesc⟩ := h' d (hd hmem) r hr hid
  obtain ⟨r₀,hr₀,hdesc₀⟩ := h d hmem r' hr' (hdesc.grantId.symm.trans hid)
  exact ⟨r₀,hr₀,hdesc₀.trans hdesc⟩

/-- Every row's grant id has been drawn. -/
def Drawn (drawn : List FreshId) (db : Database) : Prop :=
  ∀ r ∈ db.grants, ∃ d ∈ drawn, r.grantId = d.toGrantId

variable (broker : Broker)

theorem evolves_step (db : Database) (e : GrantCustody.Event) {drawn : List FreshId}
    (he : ∀ d, e.1.drawn = some d → d ∉ drawn) : Evolves drawn db (db.step broker e) := by
  intro d hmem r hr hid
  refine @rows_effect broker e.2 e.1 db _ d.toGrantId (fun r => ∃ r' ∈ db.grants, Descends r' r)
    (step_effect db e) ?_ ?_ ?_ ?_ r hr hid
  · intro d' hd' heq
    rw [freshId_ext heq] at hd'
    exact he d hd' hmem
  · rintro r epoch ⟨r',hr',hdesc⟩
    exact ⟨r',hr',hdesc.erase epoch _⟩
  · rintro lease t iv - - r session ⟨r',hr',hdesc⟩
    exact ⟨r',hr',hdesc.rotate session _⟩
  · exact fun r hr _ => ⟨r,hr,.refl⟩

theorem drawn_effect {now : ℕ} {r : Request} {db db' : Database} {drawn : List FreshId}
    (h : Drawn drawn db) (he : Effect broker now r db db') (hr : ∀ d, r.drawn = some d → d ∈ drawn) :
    Drawn drawn db' := by
  have hupdate (p : GrantRow → Bool) (u : RowUpdate) : Drawn drawn (db.update p u) := by
    intro r hr
    obtain ⟨r',hr',rfl⟩ := Database.mem_update.mp hr
    rw [RowUpdate.applyWhere_grantId]
    exact h r' hr'
  cases he with
  | refused => exact h
  | provisioned scope i v t o d _ _ legs epoch hfull hok =>
    obtain ⟨-,-,row,hid,-,-,-,-,hgrants,-⟩ := provision_ok hok
    intro r' hr'
    rw [hgrants,Keyed.Table.mem_put] at hr'
    rcases hr' with rfl | ⟨hr',-⟩
    · exact ⟨d.grantId,hr d.grantId rfl,hid⟩
    · exact h r' hr'
  | revoked scope o =>
    unfold Database.revoke
    split
    · exact h
    split
    · exact hupdate _ _
    · exact h
  | statusRead scope o => exact h
  | rotated lease t iv _ _ session hok =>
    unfold Database.rotate at hok
    split at hok
    · cases hok
    · cases hok
      exact hupdate _ _
  | invalidated lease =>
    unfold Database.invalidate
    split <;> exact hupdate _ _

end Rows

section Steps

variable (broker : Broker)

/-- The record of the other calls stays, and the vault's refusals are kept. -/
structure Noted (t : ℕ) (r r' : Record) : Prop where
  resolved : ∀ u, u ≠ t → r'.resolved u = r.resolved u
  began : ∀ u, u ≠ t → r'.began u = r.began u
  hindered : ∀ u, u ≠ t → r'.hindered u = r.hindered u
  minted : ∀ u, u ≠ t → r'.minted u = r.minted u
  refused : r.refused ⊆ r'.refused

/-- What a step of call `t` can do to the shared state. -/
inductive Change (t : ℕ) (s : State) : State → Prop
  | noted (record : Record) (accepted : List Bytes) (h : Noted t s.record record) :
      Change t s { s with record := record, accepted := accepted }
  | began (record : Record) (h : Noted t s.record record) (free : s.writer = none) :
      Change t s { s with writer := some (t,s.committed), record := record }
  | stored (r : Request) (now : ℕ) (hr : r.drawn = none) (free : s.writer = none) :
      Change t s { s with committed := s.committed.step broker (r,now) }
  | worked (work : Database) (r : Request) (now : ℕ) (hr : r.drawn = none)
      (held : s.writer = some (t,work)) :
      Change t s { s with writer := some (t,work.step broker (r,now)) }
  | committed (work : Database) (held : s.writer = some (t,work)) :
      Change t s { s with committed := work, writer := none }
  | rolledBack (work : Database) (held : s.writer = some (t,work)) :
      Change t s { s with writer := none }

variable {broker} {ρ : Type} {t : ℕ} {s s' : State} {x : Choice ρ}

theorem Noted.refl (r : Record) : Noted t r r :=
  ⟨fun _ _ => rfl,fun _ _ => rfl,fun _ _ => rfl,fun _ _ => rfl,fun _ h => h⟩

theorem Noted.hinder (r : Record) :
    Noted t r { r with hindered := Function.update r.hindered t true } :=
  ⟨fun _ _ => rfl,fun _ _ => rfl,fun u hu => by simp [hu],fun _ _ => rfl,fun _ h => h⟩

theorem Noted.refuse (r : Record) (lease : GrantLease) (b : Bool) : Noted t r (r.refuse lease b) := by
  cases b with
  | false => exact Noted.refl r
  | true => exact ⟨fun _ _ => rfl,fun _ _ => rfl,fun _ _ => rfl,fun _ _ => rfl,
      fun _ h => List.mem_cons_of_mem _ h⟩

theorem Change.same (s : State) : Change broker t s s := .noted s.record s.accepted (Noted.refl _)

theorem Change.hinder (s : State) : Change broker t s (s.hinder t) :=
  .noted _ s.accepted (Noted.hinder _)

theorem change_select {α : Type} {r r' : Except CustodyError α} (h : s.select t x r = (r',s')) :
    Change broker t s s' := by
  rcases State.select_cases h with ⟨-,rfl⟩ | ⟨-,rfl⟩
  · exact .same _
  · exact .hinder s

theorem change_change {r : Request} {r' : Except CustodyError Unit} (hr : r.drawn = none)
    (h : s.change broker t x r = some (r',s')) : Change broker t s s' := by
  rcases State.change_cases h with ⟨hw,-,rfl⟩ | ⟨work,hw,-,rfl⟩ | ⟨-,-,rfl⟩
  · exact .stored r x.now hr hw
  · exact .worked work r x.now hr hw
  · exact .hinder s

theorem change_answer (lease : GrantLease) (response : Response) :
    Change broker t s (s.answer t lease response) := by
  have hrefuse := @Noted.refuse t s.record lease response.refuses
  unfold State.answer
  dsimp only
  split
  · exact .noted _ s.accepted hrefuse
  · refine .noted _ _ ⟨hrefuse.resolved,hrefuse.began,hrefuse.hindered,fun u hu => ?_,hrefuse.refused⟩
    simpa [hu] using hrefuse.minted u hu

theorem exec_change {a : Action} {r : Except CustodyError (Answer ρ a)}
    (h : exec broker t a x s = some (r,s')) : Change broker t s s' := by
  cases a with
  | selectAuthorization scope =>
    simp only [exec] at h
    split at h
    · rename_i e s₁ hs
      cases h
      exact change_select hs
    · rename_i authorization s₁ hs
      cases h
      rcases State.select_cases hs with ⟨-,rfl⟩ | ⟨he,-⟩
      · exact .noted _ _ ⟨fun u hu => by simp [hu],fun _ _ => rfl,fun _ _ => rfl,fun _ _ => rfl,
          fun _ h => h⟩
      · cases he
  | selectScope grantId => exact change_select (Option.some.inj h)
  | beginImmediate =>
    simp only [exec] at h
    split at h
    · split at h
      · rename_i hw
        cases h
        exact .began _ ⟨fun _ _ => rfl,fun u hu => by simp [hu],fun _ _ => rfl,fun _ _ => rfl,
          fun _ h => h⟩ hw
      · cases h
    · cases h
      exact .hinder s
  | checkout ref => exact change_select (Option.some.inj h)
  | recheck lease => exact change_select (Option.some.inj h)
  | deadline expiresAt =>
    simp only [exec] at h
    split at h
    · cases h
      exact .same s
    · cases h
      exact .hinder s
  | postToken lease =>
    simp only [exec] at h
    split at h
    · cases h
      exact .same s
    · cases h
      exact change_answer lease _
  | getSync lease accessToken =>
    simp only [exec] at h
    split at h
    · cases h
      exact .same s
    · cases h
      exact .noted _ s.accepted (Noted.refuse _ _ _)
  | rotate lease token => exact change_change rfl h
  | invalidate lease => exact change_change rfl h
  | commit =>
    simp only [exec] at h
    split at h
    · cases h
      exact .same s
    · rename_i u work hw
      split at h
      · rename_i hu
        subst hu
        split at h
        · cases h
          exact .committed work hw
        · cases h
          exact .hinder s
      · cases h
        exact .same s
  | rollback =>
    simp only [exec] at h
    split at h
    · cases h
      exact .same s
    · rename_i u work hw
      split at h
      · rename_i hu
        subst hu
        cases h
        exact .rolledBack work hw
      · cases h
        exact .same s
  | startOperation authorization material =>
    cases h
    exact .same s
  | endOperation authorization =>
    cases h
    exact .same s

/-- What every reachable state satisfies: the tables are sound, their grant ids have been
drawn, and a working copy descends from the committed tables. -/
structure WellFormed (s : State) : Prop where
  sound : Sound s.committed
  drawn : Drawn s.drawn s.committed
  work : ∀ u work, s.writer = some (u,work) →
    Sound work ∧ Drawn s.drawn work ∧ Evolves s.drawn s.committed work

theorem wellFormed_change (h : WellFormed s) (hc : Change broker t s s') : WellFormed s' := by
  cases hc with
  | noted record accepted _ => exact ⟨h.sound,h.drawn,h.work⟩
  | began record _ free =>
    refine ⟨h.sound,h.drawn,fun u work hw => ?_⟩
    cases hw
    exact ⟨h.sound,h.drawn,.refl _ _⟩
  | stored r now hr free =>
    have heffect := @step_effect broker s.committed (r,now)
    refine ⟨sound_effect h.sound heffect,drawn_effect broker h.drawn heffect ?_,fun u work hw => ?_⟩
    · simp [hr]
    · rw [show s.writer = some (u,work) from hw] at free
      cases free
  | worked work r now hr held =>
    refine ⟨h.sound,h.drawn,fun u work' hw => ?_⟩
    cases hw
    obtain ⟨hsound,hdrawn,hevolves⟩ := h.work t work held
    have heffect := @step_effect broker work (r,now)
    refine ⟨sound_effect hsound heffect,drawn_effect broker hdrawn heffect (by simp [hr]),?_⟩
    exact hevolves.trans (fun _ h => h) (evolves_step broker work (r,now) (by simp [hr]))
  | committed work held =>
    obtain ⟨hsound,hdrawn,-⟩ := h.work t work held
    exact ⟨hsound,hdrawn,nofun⟩
  | rolledBack work held => exact ⟨h.sound,h.drawn,nofun⟩

/-- What the others may do to the state between two steps of call `t`. -/
structure Rely (t : ℕ) (s s' : State) : Prop where
  resolved : s'.record.resolved t = s.record.resolved t
  began : s'.record.began t = s.record.began t
  hindered : s'.record.hindered t = s.record.hindered t
  minted : s'.record.minted t = s.record.minted t
  refused : s.record.refused ⊆ s'.record.refused
  held : ∀ work, s.writer = some (t,work) → s'.writer = some (t,work) ∧ s'.committed = s.committed
  free : (∀ work, s.writer ≠ some (t,work)) → ∀ work, s'.writer ≠ some (t,work)
  drawn : s.drawn ⊆ s'.drawn
  evolves : Evolves s.drawn s.committed s'.committed

theorem Rely.refl (t : ℕ) (s : State) : Rely t s s where
  resolved := rfl
  began := rfl
  hindered := rfl
  minted := rfl
  refused _ h := h
  held _ h := ⟨h,rfl⟩
  free h := h
  drawn _ h := h
  evolves := .refl _ _

theorem Rely.trans {s'' : State} (h : Rely t s s') (h' : Rely t s' s'') : Rely t s s'' where
  resolved := h'.resolved.trans h.resolved
  began := h'.began.trans h.began
  hindered := h'.hindered.trans h.hindered
  minted := h'.minted.trans h.minted
  refused _ hb := h'.refused (h.refused hb)
  held work hw := by
    obtain ⟨hw',hc⟩ := h.held work hw
    obtain ⟨hw'',hc'⟩ := h'.held work hw'
    exact ⟨hw'',hc'.trans hc⟩
  free hf := h'.free (h.free hf)
  drawn _ hd := h'.drawn (h.drawn hd)
  evolves := h.evolves.trans h.drawn h'.evolves

theorem rely_change {u : ℕ} (hne : u ≠ t) (h : WellFormed s) (hc : Change broker u s s') :
    Rely t s s' := by
  have hother (work work' : Database) (hw : s.writer = some (u,work)) : s.writer ≠ some (t,work') := by
    rw [hw]
    simp [hne]
  cases hc with
  | noted record accepted hn =>
    exact { Rely.refl t s with
      resolved := hn.resolved t hne.symm
      began := hn.began t hne.symm
      hindered := hn.hindered t hne.symm
      minted := hn.minted t hne.symm
      refused := hn.refused }
  | began record hn free =>
    exact {
      resolved := hn.resolved t hne.symm
      began := hn.began t hne.symm
      hindered := hn.hindered t hne.symm
      minted := hn.minted t hne.symm
      refused := hn.refused
      held := fun work hw => by rw [free] at hw; cases hw
      free := fun _ work => by simp [hne]
      drawn := fun _ h => h
      evolves := .refl _ _ }
  | stored r now hr free =>
    exact { Rely.refl t s with
      held := fun work hw => by rw [free] at hw; cases hw
      evolves := evolves_step broker s.committed (r,now) (by simp [hr]) }
  | worked work r now hr held =>
    exact { Rely.refl t s with
      held := fun work' hw => absurd hw (hother work work' held)
      free := fun _ work' => by simp [hne] }
  | committed work held =>
    exact { Rely.refl t s with
      held := fun work' hw => absurd hw (hother work work' held)
      free := fun _ work' => by simp
      evolves := (h.work u work held).2.2 }
  | rolledBack work held =>
    exact { Rely.refl t s with
      held := fun work' hw => absurd hw (hother work work' held)
      free := fun _ work' => by simp }

/-- The environment keeps the state well formed, and is one of the others for every call. -/
theorem environment_spec {v : Move} (h : WellFormed s) (hv : environment broker v s = some s') :
    WellFormed s' ∧ Rely t s s' := by
  cases v with
  | administer r now =>
    have heffect := @step_effect broker s.committed (r,now)
    have moved (drawn : List FreshId) (hsub : s.drawn ⊆ drawn) (free : s.writer = none)
        (hold : ∀ d, r.drawn = some d → d ∉ s.drawn) (hnew : ∀ d, r.drawn = some d → d ∈ drawn)
        (hs : s' = { s with committed := s.committed.step broker (r,now), drawn := drawn }) :
        WellFormed s' ∧ Rely t s s' := by
      subst hs
      have hdrawn : Drawn drawn s.committed := by
        intro row hrow
        obtain ⟨d,hd,hid⟩ := h.drawn row hrow
        exact ⟨d,hsub hd,hid⟩
      refine ⟨⟨sound_effect h.sound heffect,drawn_effect broker hdrawn heffect hnew,?_⟩,?_⟩
      · intro u work hw
        rw [show s.writer = some (u,work) from hw] at free
        cases free
      · exact { Rely.refl t s with
          held := fun work hw => by rw [free] at hw; cases hw
          drawn := hsub
          evolves := evolves_step broker s.committed (r,now) hold }
    simp only [environment] at hv
    split at hv
    · cases hv
    · rename_i free hr
      cases hv
      exact moved s.drawn (fun _ h => h) free (by simp [hr]) (by simp [hr]) rfl
    · rename_i d free hr
      split at hv
      · cases hv
      · rename_i hd
        cases hv
        refine moved (d::s.drawn) (fun _ h => List.mem_cons_of_mem _ h) free ?_ ?_ rfl
        · intro d' hd'
          rw [hr] at hd'
          cases hd'
          exact hd
        · intro d' hd'
          rw [hr] at hd'
          cases hd'
          exact List.mem_cons_self
  | openSession token =>
    simp only [environment] at hv
    split at hv
    · cases hv
    · cases hv
      exact ⟨⟨h.sound,h.drawn,h.work⟩,{ Rely.refl t s with }⟩
  | loseAnswer old new =>
    simp only [environment] at hv
    split at hv
    · cases hv
    · cases hv
      exact ⟨⟨h.sound,h.drawn,h.work⟩,{ Rely.refl t s with }⟩
  | tick duration =>
    simp only [environment] at hv
    split at hv
    · cases hv
      exact ⟨⟨h.sound,h.drawn,h.work⟩,{ Rely.refl t s with }⟩
    · cases hv

theorem wellFormed_boot (decryptItem : List (String × Json) → String → Bytes →
      Except CustodyError CredentialMaterial) (tasks : ℕ → Task) :
    WellFormed (World.boot (ρ:=ρ) decryptItem tasks).shared :=
  ⟨sound_initial,fun _ hr => absurd hr Keyed.Table.mem_empty,nofun⟩

theorem wellFormed_next (c d : World ρ) (e : Interleave.Event (Choice ρ) Move)
    (h : WellFormed c.shared) (hn : (machine broker).next c e = some d) : WellFormed d.shared := by
  cases e with
  | call t x =>
    obtain ⟨a,k,r,s,-,he,rfl⟩ := Machine.next_call hn
    exact wellFormed_change h (exec_change he)
  | environment v =>
    obtain ⟨s,hs,rfl⟩ := Machine.next_environment hn
    exact (@environment_spec broker 0 _ _ v h hs).1

theorem wellFormed_throughout (decryptItem : List (String × Json) → String → Bytes →
      Except CustodyError CredentialMaterial) (tasks : ℕ → Task)
    (es : List (Interleave.Event (Choice ρ) Move)) :
    (machine broker).Throughout (fun c => WellFormed c.shared) (World.boot decryptItem tasks) es :=
  Machine.throughout_of_step (fun c d e h _ hn => wellFormed_next c d e h hn)
    (wellFormed_boot decryptItem tasks) Machine.eachStep_true

end Steps
end CredentialFetcher
end CloudBrowser
