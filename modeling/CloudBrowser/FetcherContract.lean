import CloudBrowser.FetcherSteps

/-! The contract of one call of the fetcher beside the others: what holds wherever it
invalidates a grant or runs an operation, and the assertions about its transaction. -/
namespace CloudBrowser
namespace CredentialFetcher

open Interleave GrantCustody VaultItems

section Leases

variable (broker : Broker)

/-- The key that the legs of a row are sealed under. -/
def userKey (row : GrantRow) : Except CustodyError Bytes :=
  asMaterial (row.legs.kUser.envelope >>= fun e =>
    unwrap broker.gcm broker.kek e (aad row.grantId row.scope .kUser))

/-- What the session leg of a row unwraps to. -/
def sessionToken (row : GrantRow) : Except CustodyError Bytes := do
  let key ← userKey broker row
  asMaterial (row.legs.session.envelope >>= fun e =>
    unwrap broker.gcm key e (aad row.grantId row.scope .session))

/-- If the lease's grant is still active in its epoch, its session leg unwraps to the token. -/
def Opens (lease : GrantLease) (token : Bytes) (db : Database) : Prop :=
  ∀ row ∈ db.grants, GrantRow.leased lease.grantId lease.scope lease.epoch row = true →
    sessionToken broker row = .ok token

instance (lease : GrantLease) (token : Bytes) (db : Database) :
    Decidable (Opens broker lease token db) :=
  inferInstanceAs (Decidable (∀ row ∈ db.grants.rows, _ → _))

/-- The scope's row is active and carries the grant id and the epoch of the authorization. -/
def Authorised (a : GrantAuthorization) (db : Database) : Prop :=
  ∃ row, db.ofScope a.scope = some row ∧ row.active = true ∧
    parseGrantRef a.usernameRef = .ok row.grantId ∧ row.epoch = a.epoch

/-- The rows of the authorization's grant are of its scope, and in its epoch while active. -/
def Pinned (a : GrantAuthorization) (id : GrantId) (db : Database) : Prop :=
  ∀ row ∈ db.grants, row.grantId = id →
    row.scope = a.scope ∧ (row.active = true → row.epoch = a.epoch)

variable {broker} {db : Database} {lease : GrantLease} {ref : String}

theorem Pinned.evolves {a : GrantAuthorization} {drawn : List FreshId} {d : FreshId}
    {db' : Database} (h : Pinned a d.toGrantId db) (hd : d ∈ drawn) (he : Evolves drawn db db') :
    Pinned a d.toGrantId db' := by
  intro row hrow hid
  obtain ⟨row',hrow',hdesc⟩ := he d hd row hrow hid
  obtain ⟨hscope,hepoch⟩ := h row' hrow' (hdesc.grantId.symm.trans hid)
  refine ⟨hdesc.scope.trans hscope,fun hactive => ?_⟩
  obtain ⟨hactive',hsame,-⟩ := hdesc.active hactive
  exact hsame.trans (hepoch hactive')

theorem openLegs_ok {row : GrantRow} (h : openLegs broker row = .ok lease) :
    lease.grantId = row.grantId ∧ lease.epoch = row.epoch ∧ lease.scope = row.scope ∧
      userKey broker row = .ok lease.kUser ∧ sessionToken broker row = .ok lease.refreshToken := by
  obtain ⟨kUser,hkey,h⟩ := Stateful.bind_ok h
  obtain ⟨vaultKey,-,h⟩ := Stateful.bind_ok h
  obtain ⟨token,htoken,h⟩ := Stateful.bind_ok h
  obtain ⟨raw,-,h⟩ := Stateful.bind_ok h
  have hrest : ∃ itemRef, Text.decodeUtf8 raw = some itemRef ∧ (do
      validateVaultKey vaultKey
      validateRefreshToken token
      validateItemRef itemRef
      return (⟨row.grantId,row.epoch,row.scope,itemRef,kUser,vaultKey,token⟩ : GrantLease)) =
        .ok lease := by
    cases hraw : Text.decodeUtf8 raw with
    | none => rw [hraw] at h; cases h
    | some itemRef => rw [hraw] at h; exact ⟨itemRef,rfl,h⟩
  obtain ⟨itemRef,-,h⟩ := hrest
  obtain ⟨_,-,h⟩ := Stateful.bind_ok h
  obtain ⟨_,-,h⟩ := Stateful.bind_ok h
  obtain ⟨_,-,h⟩ := Stateful.bind_ok h
  cases h
  have huser : userKey broker row = .ok kUser := hkey
  refine ⟨rfl,rfl,rfl,huser,?_⟩
  rw [sessionToken,huser]
  exact htoken

/-- A checkout found an active row, of which the lease is a view. -/
theorem checkout_ok (h : db.checkout broker ref = .ok lease) :
    ∃ row ∈ db.grants, parseGrantRef ref = .ok row.grantId ∧ row.active = true ∧
      lease.grantId = row.grantId ∧ lease.epoch = row.epoch ∧ lease.scope = row.scope ∧
      userKey broker row = .ok lease.kUser ∧ sessionToken broker row = .ok lease.refreshToken := by
  obtain ⟨id,hid,h⟩ := Stateful.bind_ok h
  split at h
  · cases h
  rename_i row hrow
  split at h
  · rename_i hactive
    have hmem : row ∈ db.grants := List.mem_of_find?_eq_some hrow
    have hrid : row.grantId = id := by simpa using List.find?_some hrow
    subst hrid
    exact ⟨row,hmem,hid,hactive,openLegs_ok h⟩
  · cases h

theorem opens_of_checkout (h : db.checkout broker ref = .ok lease) : Opens broker lease lease.refreshToken db := by
  obtain ⟨row,hmem,-,-,-,-,hscope,-,htoken⟩ := checkout_ok h
  intro row' hmem' hleased
  have hsame : row' = row :=
    Keyed.Table.eq_of_key hmem' hmem ((leased_iff.mp hleased).2.1.trans hscope)
  rw [hsame]
  exact htoken

theorem authorised_of_checkout {a : GrantAuthorization}
    (h : db.checkout broker a.usernameRef = .ok lease) (hepoch : lease.epoch = a.epoch)
    (hscope : lease.scope = a.scope) : Authorised a db := by
  obtain ⟨row,hmem,hparse,hactive,-,he,hs,-,-⟩ := checkout_ok h
  have hrow : db.ofScope a.scope = some row :=
    Database.ofScope_eq_some.mpr ⟨hmem,hs.symm.trans hscope⟩
  exact ⟨row,hrow,hactive,hparse,he.symm.trans hepoch⟩

/-- Where the rows of the authorization's grant are pinned, a checkout through an authorization
that the tables do not grant finds no active row. -/
theorem checkout_pinned {a : GrantAuthorization} {id : GrantId}
    (hid : parseGrantRef a.usernameRef = .ok id) (hp : Pinned a id db)
    (ha : ¬Authorised a db) : db.checkout broker a.usernameRef = .error .grantRevoked := by
  simp only [Database.checkout,hid,bind,Except.bind]
  cases hrow : db.ofGrant id with
  | none => rfl
  | some row =>
    have hmem : row ∈ db.grants := List.mem_of_find?_eq_some hrow
    have hrid : row.grantId = id := by simpa using List.find?_some hrow
    obtain ⟨hscope,hepoch⟩ := hp row hmem hrid
    by_cases hactive : row.active = true
    · have hscoped : db.ofScope a.scope = some row := Database.ofScope_eq_some.mpr ⟨hmem,hscope⟩
      exact absurd ⟨row,hscoped,hactive,by rw [hid,hrid],hepoch hactive⟩ ha
    · simp only [hactive]
      rfl

end Leases

section Answers

variable {ρ : Type} {broker : Broker} {t : ℕ} {s s' : State} {x : Choice ρ}

/-- The actions that leave the tables and the write lock alone. -/
def Action.reads : Action → Bool
  | .selectScope _ => true
  | .checkout _ => true
  | .recheck _ => true
  | .deadline _ => true
  | .postToken _ => true
  | .getSync _ _ => true
  | .startOperation _ _ => true
  | .endOperation _ => true
  | _ => false

/-- For call `t` nothing is different but that it may have been hindered, or refused. -/
structure Same (t : ℕ) (s s' : State) : Prop where
  committed : s'.committed = s.committed
  writer : s'.writer = s.writer
  drawn : s'.drawn = s.drawn
  resolved : s'.record.resolved t = s.record.resolved t
  began : s'.record.began t = s.record.began t
  hindered : s.record.hindered t = true → s'.record.hindered t = true
  refused : s.record.refused ⊆ s'.record.refused

theorem Same.refl (t : ℕ) (s : State) : Same t s s :=
  ⟨rfl,rfl,rfl,rfl,rfl,fun h => h,fun _ h => h⟩

theorem Same.hinder (t : ℕ) (s : State) : Same t s (s.hinder t) :=
  ⟨rfl,rfl,rfl,rfl,rfl,fun _ => by simp [State.hinder],fun _ h => h⟩

theorem hinder_hindered (t : ℕ) (s : State) : (s.hinder t).record.hindered t = true := by
  simp [State.hinder]

theorem select_spec {α : Type} {r r' : Except CustodyError α} (h : s.select t x r = (r',s')) :
    Same t s s' ∧ (r' = r ∨ ∃ e, r' = .error e ∧ s'.record.hindered t = true) := by
  rcases State.select_cases h with ⟨rfl,rfl⟩ | ⟨rfl,rfl⟩
  · exact ⟨.refl t _,.inl rfl⟩
  · exact ⟨.hinder t s,.inr ⟨_,rfl,hinder_hindered t s⟩⟩

theorem refuse_spec (r : Record) (lease : GrantLease) (b : Bool) :
    (r.refuse lease b).resolved = r.resolved ∧ (r.refuse lease b).began = r.began ∧
      (r.refuse lease b).hindered = r.hindered ∧ r.refused ⊆ (r.refuse lease b).refused ∧
      (b = true → lease.refreshToken ∈ (r.refuse lease b).refused) := by
  cases b with
  | false => exact ⟨rfl,rfl,rfl,fun _ h => h,nofun⟩
  | true => exact ⟨rfl,rfl,rfl,fun _ h => List.mem_cons_of_mem _ h,fun _ => List.mem_cons_self⟩

theorem answer_spec (lease : GrantLease) (response : Response) :
    Same t s (s.answer t lease response) ∧ (response.refuses = true →
      lease.refreshToken ∈ (s.answer t lease response).record.refused) := by
  obtain ⟨hresolved,hbegan,hhindered,hrefused,hadded⟩ := refuse_spec s.record lease response.refuses
  unfold State.answer
  dsimp only
  split
  · exact ⟨⟨rfl,rfl,rfl,congrFun hresolved t,congrFun hbegan t,
      fun h => (congrFun hhindered t).trans h,hrefused⟩,hadded⟩
  · exact ⟨⟨rfl,rfl,rfl,congrFun hresolved t,congrFun hbegan t,
      fun h => (congrFun hhindered t).trans h,hrefused⟩,hadded⟩

theorem sync_spec {lease : GrantLease} {access : String} {r : Except CustodyError Response}
    (h : exec broker t (.getSync lease access) x s = some (r,s')) :
    Same t s s' ∧ ∀ response, r = .ok response → response.status = 401 →
      lease.refreshToken ∈ s'.record.refused := by
  simp only [exec] at h
  split at h
  · cases h
    exact ⟨.refl t s,fun _ h => by cases h⟩
  · rename_i response _
    cases h
    obtain ⟨hresolved,hbegan,hhindered,hrefused,hadded⟩ :=
      refuse_spec s.record lease (response.status = 401)
    refine ⟨⟨rfl,rfl,rfl,congrFun hresolved t,congrFun hbegan t,
      fun h => (congrFun hhindered t).trans h,hrefused⟩,?_⟩
    intro response' hr hst
    cases hr
    exact hadded (by simp [hst])

theorem exec_reads {a : Action} {r : Except CustodyError (Answer ρ a)} (ha : a.reads = true)
    (h : exec broker t a x s = some (r,s')) : Same t s s' := by
  cases a with
  | selectScope grantId => exact (select_spec (Option.some.inj h)).1
  | checkout ref => exact (select_spec (Option.some.inj h)).1
  | recheck lease => exact (select_spec (Option.some.inj h)).1
  | deadline expiresAt =>
    simp only [exec] at h
    split at h
    · cases h
      exact .refl t s
    · cases h
      exact .hinder t s
  | postToken lease =>
    simp only [exec] at h
    split at h
    · cases h
      exact .refl t s
    · cases h
      exact (answer_spec lease _).1
  | getSync lease access => exact (sync_spec h).1
  | startOperation authorization material =>
    cases h
    exact .refl t s
  | endOperation authorization =>
    cases h
    exact .refl t s
  | _ => cases ha

/-- No action but `BEGIN IMMEDIATE` and the capture of an authorization changes what is noted
of the call's transaction. -/
theorem exec_noted {a : Action} {r : Except CustodyError (Answer ρ a)}
    (h : exec broker t a x s = some (r,s')) (hb : a ≠ .beginImmediate)
    (hs : ∀ scope, a ≠ .selectAuthorization scope) :
    s'.record.resolved t = s.record.resolved t ∧ s'.record.began t = s.record.began t ∧
      (s.record.hindered t = true → s'.record.hindered t = true) := by
  have hchange {request : Request} {r' : Except CustodyError Unit}
      (h : s.change broker t x request = some (r',s')) :
      s'.record.resolved t = s.record.resolved t ∧ s'.record.began t = s.record.began t ∧
        (s.record.hindered t = true → s'.record.hindered t = true) := by
    rcases State.change_cases h with ⟨-,-,rfl⟩ | ⟨work,-,-,rfl⟩ | ⟨-,-,rfl⟩
    · exact ⟨rfl,rfl,fun h => h⟩
    · exact ⟨rfl,rfl,fun h => h⟩
    · exact ⟨rfl,rfl,fun _ => hinder_hindered t s⟩
  cases a with
  | selectAuthorization scope => exact absurd rfl (hs scope)
  | beginImmediate => exact absurd rfl hb
  | rotate lease token => exact hchange h
  | invalidate lease => exact hchange h
  | commit =>
    simp only [exec] at h
    repeat' split at h
    all_goals cases h
    all_goals first | exact ⟨rfl,rfl,fun h => h⟩ | exact ⟨rfl,rfl,fun _ => hinder_hindered t s⟩
  | rollback =>
    simp only [exec] at h
    repeat' split at h
    all_goals cases h
    all_goals exact ⟨rfl,rfl,fun h => h⟩
  | _ =>
    have hsame : Same t s s' := exec_reads rfl h
    exact ⟨hsame.resolved,hsame.began,hsame.hindered⟩

end Answers

section Contracts

/-- Call `t` has the write lock. -/
def Holds (t : ℕ) (s : State) : Prop := ∃ work, s.writer = some (t,work)

/-- What holds where a call is about to perform an action: its operation is authorised by the
committed tables, which it has locked; and it invalidates a grant for a refused session leg,
which under its lock is still the stored one. -/
def Performs (broker : Broker) (t : ℕ) : Action → State → Prop
  | .startOperation a _, s => Authorised a s.committed ∧ Holds t s ∧
      s.record.began t = some s.committed ∧ ∀ b, s.record.resolved t = some b → b = a
  | .endOperation a, s => Authorised a s.committed ∧ Holds t s ∧
      s.record.began t = some s.committed ∧ ∀ b, s.record.resolved t = some b → b = a
  | .invalidate lease, s => lease.refreshToken ∈ s.record.refused ∧
      ∀ work, s.writer = some (t,work) → Opens broker lease lease.refreshToken work
  | _, _ => True

def contract (ρ : Type) (broker : Broker) (t : ℕ) :
    Contract Action (Answer ρ) CustodyError State where
  step a r s s' := WellFormed s ∧ ∃ x : Choice ρ, exec broker t a x s = some (r,s')
  pre a s := Performs broker t a s
  rely := Rely t
  guar s s' := WellFormed s ∧ Change broker t s s'
  rely_refl := Rely.refl t
  rely_trans _ _ _ := Rely.trans

/-- An assertion about the call's own transaction, which neither the others nor the call's
reads disturb. -/
structure Framed (t : ℕ) (P : State → Prop) : Prop where
  rely : ∀ s s', P s → Rely t s s' → P s'
  same : ∀ s s', P s → Same t s s' → P s'

variable {ρ : Type} {broker : Broker} {t : ℕ} {P P' : State → Prop}

theorem Framed.and (h : Framed t P) (h' : Framed t P') : Framed t fun s => P s ∧ P' s :=
  ⟨fun s s' hs hr => ⟨h.rely s s' hs.1 hr,h'.rely s s' hs.2 hr⟩,
    fun s s' hs hr => ⟨h.same s s' hs.1 hr,h'.same s s' hs.2 hr⟩⟩

theorem framed_refused (token : Bytes) (b : Prop) :
    Framed t fun s => b → token ∈ s.record.refused :=
  ⟨fun _ _ h hr hb => hr.refused (h hb),fun _ _ h hr hb => hr.refused (h hb)⟩

theorem framed_hindered : Framed t fun s => s.record.hindered t = true :=
  ⟨fun _ _ h hr => hr.hindered.trans h,fun _ _ h hr => hr.hindered h⟩

theorem framed_const (p : Prop) : Framed t fun _ => p := ⟨fun _ _ h _ => h,fun _ _ h _ => h⟩

/-- A call's transaction: the authorization it is for, and the tables it began on. A fetch
has none. -/
abbrev Transaction := Option (GrantAuthorization × Database)

/-- The transaction of the call has begun, and is noted. An authorization that the call has
captured itself is the one it is for, and pins the rows of its grant; a fetch captures none. -/
def Begun (t : ℕ) : Transaction → State → Prop
  | none, s => s.record.resolved t = none
  | some (a,db), s => s.record.began t = some db ∧ ∀ b, s.record.resolved t = some b → b = a ∧
      ∃ id, parseGrantRef a.usernameRef = .ok id ∧ Pinned a id db

/-- Nobody has changed the tables since the transaction began. -/
def Inside (t : ℕ) : Transaction → State → Prop
  | none, s => ∀ work, s.writer ≠ some (t,work)
  | some (_,db), s => s.committed = db ∧ Holds t s

/-- Nor has the call itself. -/
def Untouched (t : ℕ) : Transaction → State → Prop
  | none, s => ∀ work, s.writer ≠ some (t,work)
  | some (_,db), s => s.committed = db ∧ s.writer = some (t,db)

theorem framed_begun (o : Transaction) : Framed t (Begun t o) := by
  cases o with
  | none => exact ⟨fun _ _ h hr => hr.resolved.trans h,fun _ _ h hr => hr.resolved.trans h⟩
  | some o =>
    constructor
    · intro s s' h hr
      exact ⟨hr.began.trans h.1,fun b hb => h.2 b (hr.resolved.symm.trans hb)⟩
    · intro s s' h hr
      exact ⟨hr.began.trans h.1,fun b hb => h.2 b (hr.resolved.symm.trans hb)⟩

theorem framed_inside (o : Transaction) : Framed t (Inside t o) := by
  cases o with
  | none => exact ⟨fun s s' h hr => hr.free h,fun s s' h hr work => by rw [hr.writer]; exact h work⟩
  | some o =>
    constructor
    · rintro s s' ⟨hc,work,hw⟩ hr
      obtain ⟨hw',hc'⟩ := hr.held work hw
      exact ⟨hc'.trans hc,work,hw'⟩
    · rintro s s' ⟨hc,work,hw⟩ hr
      exact ⟨hr.committed.trans hc,work,hr.writer.trans hw⟩

theorem framed_untouched (o : Transaction) : Framed t (Untouched t o) := by
  cases o with
  | none => exact ⟨fun s s' h hr => hr.free h,fun s s' h hr work => by rw [hr.writer]; exact h work⟩
  | some o =>
    constructor
    · rintro s s' ⟨hc,hw⟩ hr
      obtain ⟨hw',hc'⟩ := hr.held _ hw
      exact ⟨hc'.trans hc,hw'⟩
    · rintro s s' ⟨hc,hw⟩ hr
      exact ⟨hr.committed.trans hc,hr.writer.trans hw⟩

theorem Untouched.inside {o : Transaction} {s : State} (h : Untouched t o s) : Inside t o s := by
  cases o with
  | none => exact h
  | some o => exact ⟨h.1,_,h.2⟩

abbrev Framed.stable (h : Framed t P) : (contract ρ broker t).Stable P := h.rely

theorem perform_triple {a : Action} {Q : Except CustodyError (Answer ρ a) → State → Prop}
    (hP : Framed t P) (hpre : ∀ s, P s → Performs broker t a s)
    (h : ∀ (s : State) (x : Choice ρ) r s', WellFormed s → P s →
      exec broker t a x s = some (r,s') → Q r s') (hQ : ∀ r, (contract ρ broker t).Stable (Q r)) :
    (contract ρ broker t).Triple P (perform a) Q := by
  refine Contract.Triple.perform hP.stable hpre (fun s r s' hs hstep => ?_) hQ
  obtain ⟨hwf,x,hx⟩ := hstep
  exact ⟨⟨hwf,exec_change hx⟩,h s x r s' hwf hs hx⟩

/-- An action that leaves the tables alone keeps every assertion about the transaction. -/
theorem read_triple {a : Action} (ha : a.reads = true) (hP : Framed t P)
    (hpre : ∀ s, P s → Performs broker t a s) :
    (contract ρ broker t).Triple P (perform a) (fun _ => P) :=
  perform_triple hP hpre (fun s _ _ s' _ hs hx => hP.same s s' hs (exec_reads ha hx))
    fun _ => hP.stable

theorem recheck_triple (lease : GrantLease) (hP : Framed t P) :
    (contract ρ broker t).Triple P (perform (.recheck lease)) (fun _ => P) :=
  read_triple rfl hP fun _ _ => trivial

theorem raise_triple {α : Type} (e : CustodyError) {Q : Except CustodyError α → State → Prop}
    (h : ∀ s, P s → Q (.error e) s) (hQ : (contract ρ broker t).Stable (Q (.error e))) :
    (contract ρ broker t).Triple P (throw e : Call ρ α) Q :=
  Contract.Triple.raise h hQ

/-- A missed deadline is noted. -/
theorem checkDeadline_triple (deadline : Option Time) (hP : Framed t P) :
    (contract ρ broker t).Triple P (checkDeadline deadline)
      (Contract.Ends (fun _ => P) fun _ s => P s ∧ s.record.hindered t = true) := by
  cases deadline with
  | none => exact Contract.Triple.ret (fun _ hs => hs) hP.stable
  | some expiresAt =>
    refine perform_triple hP (fun _ _ => trivial) (fun s x r s' _ hs hx => ?_)
      (Contract.stable_ends (fun _ => hP.stable) fun _ => (hP.and framed_hindered).stable)
    simp only [exec] at hx
    split at hx
    · cases hx
      exact hs
    · cases hx
      exact ⟨hP.same s _ hs (.hinder t s),hinder_hindered t s⟩

end Contracts
end CredentialFetcher
end CloudBrowser
