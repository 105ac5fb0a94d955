import CloudBrowser.SpuriousInvalidation

/-! A refresh token that the vault rotated is in the committed tables when its call has ended,
as long as nothing fails between the vault's answer and the commit. -/
namespace CloudBrowser
namespace CredentialFetcher

open Interleave GrantCustody VaultItems

section Custody

/-- What the crypto library promises: what it sealed under a proper key opens again. -/
structure RoundTrips (gcm : AesGcm) : Prop where
  tag : ∀ key iv plaintext aad, key.length = 16 ∨ key.length = 32 →
    (gcm.seals key iv plaintext aad).2.length = 16
  opens : ∀ key iv plaintext aad, key.length = 16 ∨ key.length = 32 →
    gcm.opens key iv (gcm.seals key iv plaintext aad).1 (gcm.seals key iv plaintext aad).2 aad =
      some plaintext

variable {broker : Broker} {db : Database} {lease : GrantLease} {token iv : Bytes} {now : ℕ}

theorem wrap_unwrap {key aad : Bytes} (hgcm : RoundTrips broker.gcm) (hiv : iv.length = 12)
    (hkey : key.length = 16 ∨ key.length = 32) (htoken : token ≠ []) :
    ∃ e, wrap broker.gcm iv token key aad = .ok e ∧ unwrap broker.gcm key e aad = .ok token := by
  have hne : iv ≠ [] := by
    rintro rfl
    cases hiv
  have hlen : ¬(key.length ≠ 16 ∧ key.length ≠ 32) := by omega
  have hvec : ¬(iv.length < 1 ∨ 255 < iv.length) := by omega
  refine ⟨⟨iv,(broker.gcm.seals key iv token aad).1,(broker.gcm.seals key iv token aad).2⟩,?_,?_⟩
  · rw [wrap,if_neg htoken,aesGcmEncrypt,if_neg hlen,if_neg hvec]
    rfl
  · rw [unwrap,if_neg hne,aesGcmDecrypt,if_neg hlen,if_neg (by simp [hgcm.tag _ _ _ _ hkey]),
      hgcm.opens _ _ _ _ hkey]

theorem asMaterial_ok {α : Type} {r : Except CustodyError α} {x : α} :
    asMaterial r = .ok x ↔ r = .ok x := by
  unfold asMaterial
  split
  · simp
  · rfl

theorem unwrap_key {key aad plaintext : Bytes} {e : Envelope}
    (h : unwrap broker.gcm key e aad = .ok plaintext) : key.length = 16 ∨ key.length = 32 := by
  unfold unwrap aesGcmDecrypt at h
  split at h
  · cases h
  split at h
  · cases h
  · omega

/-- A key under which a session leg opens is one that can seal. -/
theorem sessionToken_key {row : GrantRow} {key : Bytes} (hkey : userKey broker row = .ok key)
    (h : sessionToken broker row = .ok token) : key.length = 16 ∨ key.length = 32 := by
  rw [sessionToken,hkey] at h
  obtain ⟨e,-,he⟩ := Stateful.bind_ok (asMaterial_ok.mp h)
  exact unwrap_key he

/-- The legs of the lease's grant, while it is active, are sealed under the lease's key. -/
def UnderKey (broker : Broker) (lease : GrantLease) (db : Database) : Prop :=
  (lease.kUser.length = 16 ∨ lease.kUser.length = 32) ∧ ∀ row ∈ db.grants, GrantRow.leased lease.grantId lease.scope lease.epoch row = true →
    userKey broker row = .ok lease.kUser

theorem UnderKey.evolves {drawn : List FreshId} {d : FreshId} {db' : Database}
    (h : UnderKey broker lease db) (hd : d ∈ drawn) (hid : lease.grantId = d.toGrantId)
    (he : Evolves drawn db db') : UnderKey broker lease db' := by
  refine ⟨h.1,fun row hrow hleased => ?_⟩
  obtain ⟨hrid,hscope,hepoch,hactive⟩ := leased_iff.mp hleased
  obtain ⟨row',hrow',hdesc⟩ := he d hd row hrow (hrid.trans hid)
  obtain ⟨hactive',hsame,hkey⟩ := hdesc.active hactive
  have hleased' : GrantRow.leased lease.grantId lease.scope lease.epoch row' = true :=
    leased_iff.mpr ⟨hdesc.grantId.symm.trans hrid,hdesc.scope.symm.trans hscope,
      hsame.symm.trans hepoch,hactive'⟩
  have hold := h.2 row' hrow' hleased'
  rw [userKey] at hold ⊢
  rw [hkey,hdesc.grantId,hdesc.scope]
  exact hold

theorem rotate_exec {session : Envelope} (hvalid : validRefreshToken token = true)
    (hwrap : wrap broker.gcm iv token lease.kUser (aad lease.grantId lease.scope .session) = .ok session) :
    Stateful.exec (rotateRefreshToken broker lease token iv now) db =
      match db.rotate lease.grantId lease.scope lease.epoch session now with
      | .ok db' => (.ok (),db')
      | .error e => (.error e,db) := by
  have hv : validateRefreshToken token = .ok () := by rw [validateRefreshToken,if_pos hvalid]
  unfold rotateRefreshToken
  rw [hv,hwrap]
  simp only [Stateful.check,Stateful.exec_bind,Stateful.exec_pure,Stateful.exec_get]
  cases db.rotate lease.grantId lease.scope lease.epoch session now with
  | ok db' => rfl
  | error e => rfl

/-- Once it is rotated, the session leg unwraps to the new token; a rotation that is refused
finds no such grant. -/
theorem opens_rotate (hgcm : RoundTrips broker.gcm) (hiv : iv.length = 12)
    (hvalid : validRefreshToken token = true) (hunder : UnderKey broker lease db) :
    Opens broker lease token (db.step broker (.rotate lease token iv,now)) ∧
      ∀ e, (Stateful.exec (rotateRefreshToken broker lease token iv now) db).1 = .error e →
        Opens broker lease token db := by
  have hne : token ≠ [] := by
    rintro rfl
    cases hvalid
  obtain ⟨session,hwrap,hunwrap⟩ := @wrap_unwrap broker token iv lease.kUser
    (aad lease.grantId lease.scope .session) hgcm hiv hunder.1 hne
  have hexec := @rotate_exec broker db lease token iv now session hvalid hwrap
  have hstep : db.step broker (.rotate lease token iv,now) =
      (Stateful.exec (rotateRefreshToken broker lease token iv now) db).2 := rfl
  rw [hstep,hexec]
  unfold Database.rotate
  by_cases hcount : db.rowcount (GrantRow.leased lease.grantId lease.scope lease.epoch) = 1
  · simp only [hcount,ne_eq,not_true_eq_false,if_false]
    refine ⟨fun row hrow hleased => ?_,nofun⟩
    obtain ⟨row',hrow',rfl⟩ := Database.mem_update.mp hrow
    by_cases hleased' : GrantRow.leased lease.grantId lease.scope lease.epoch row' = true
    · have hold := hunder.2 row' hrow' hleased'
      obtain ⟨hid,hscope,-,-⟩ := leased_iff.mp hleased'
      have huser : userKey broker (row'.rotate session now) = .ok lease.kUser := hold
      rw [RowUpdate.applyWhere,if_pos hleased']
      show sessionToken broker (row'.rotate session now) = _
      rw [sessionToken,huser]
      rw [hid.symm,hscope.symm] at hunwrap
      exact asMaterial_ok.mpr hunwrap
    · rw [RowUpdate.applyWhere,if_neg hleased'] at hleased
      exact absurd hleased hleased'
  · have hle : db.rowcount (GrantRow.leased lease.grantId lease.scope lease.epoch) ≤ 1 :=
      db.grants.countP_le_one fun r _ r' _ hr hr' =>
        (leased_iff.mp hr).2.1.trans (leased_iff.mp hr').2.1.symm
    have hnone : Opens broker lease token db := by
      intro row hrow hleased
      have hpos : 0 < db.rowcount (GrantRow.leased lease.grantId lease.scope lease.epoch) :=
        List.countP_pos_iff.mpr ⟨row,hrow,hleased⟩
      omega
    simp only [hcount,ne_eq,not_false_eq_true,if_true]
    exact ⟨hnone,fun _ _ => hnone⟩

/-- An invalidated grant has no session leg that could unwrap to another token. -/
theorem opens_invalidate : Opens broker lease token (db.step broker (.invalidate lease,now)) := by
  have hupdate : Opens broker lease token
      (db.update (GrantRow.leased lease.grantId lease.scope lease.epoch) (.erase (lease.epoch+1) now)) := by
    intro row hrow hleased
    obtain ⟨row',hrow',rfl⟩ := Database.mem_update.mp hrow
    by_cases hleased' : GrantRow.leased lease.grantId lease.scope lease.epoch row' = true
    · rw [RowUpdate.applyWhere,if_pos hleased'] at hleased
      have hactive := (leased_iff.mp hleased).2.2.2
      cases hactive
    · rw [RowUpdate.applyWhere,if_neg hleased'] at hleased
      exact absurd hleased hleased'
  show Opens broker lease token (db.invalidate lease.grantId lease.scope lease.epoch now)
  unfold Database.invalidate
  split
  · exact hupdate
  · exact hupdate

/-- Only a rotation of the same grant changes what its session leg unwraps to. -/
theorem Opens.step (h : Opens broker lease token db) (e : GrantCustody.Event)
    (hdrawn : ∀ d, e.1.drawn = some d → d.toGrantId ≠ lease.grantId)
    (hrotate : ∀ other t iv, e.1 = .rotate other t iv → other.grantId ≠ lease.grantId) :
    Opens broker lease token (db.step broker e) := by
  have hrows := @rows_effect broker e.2 e.1 db _ lease.grantId
    (fun row => GrantRow.leased lease.grantId lease.scope lease.epoch row = true →
      sessionToken broker row = .ok token) (step_effect db e) hdrawn ?_ ?_ fun row hrow _ => h row hrow
  · intro row hrow hleased
    exact hrows row hrow (leased_iff.mp hleased).1 hleased
  · intro row epoch _ hleased
    have hactive := (leased_iff.mp hleased).2.2.2
    cases hactive
  · intro other t iv hr hid
    exact absurd hid (hrotate other t iv hr)

theorem ofGrant_eq_some (hsound : Sound db) {row : GrantRow} (hrow : row ∈ db.grants) :
    db.ofGrant row.grantId = some row := by
  cases hfind : db.ofGrant row.grantId with
  | none =>
    have hno := List.find?_eq_none.mp hfind row hrow
    exact absurd (by simp) hno
  | some row' =>
    have hmem : row' ∈ db.grants := List.mem_of_find?_eq_some hfind
    have hid : row'.grantId = row.grantId := by simpa using List.find?_some hfind
    rw [hsound.ids row' hmem row hrow hid]

theorem recheck_error {e : CustodyError} (hsound : Sound db)
    (h : db.recheck lease.grantId lease.scope lease.epoch = .error e) : Opens broker lease token db := by
  intro row hrow hleased
  obtain ⟨hid,hscope,hepoch,hactive⟩ := leased_iff.mp hleased
  have hfound : db.ofGrant lease.grantId = some row := hid ▸ ofGrant_eq_some hsound hrow
  simp [Database.recheck,hfound,hactive,hepoch,hscope] at h

end Custody

section Conditions

variable {ρ : Type} (broker : Broker)
  (decryptItem : List (String × Json) → String → Bytes → Except CustodyError CredentialMaterial)

/-- The rotated token that the call got from the vault is in the committed tables, unless the
grant is no longer active in the epoch of the lease. -/
def Keeps (t : ℕ) (s : State) : Prop :=
  ∀ lease token, s.record.minted t = some (lease,token) → Opens broker lease token s.committed

/-- A finished call has not lost a rotated token. -/
def TokenKept (t : ℕ) (c : World ρ) : Prop := (c.calls t).finished = true → Keeps broker t c.shared

instance (t : ℕ) (s : State) : Decidable (Keeps broker t s) :=
  decidable_of_iff (∀ m ∈ s.record.minted t, Opens broker m.1 m.2 s.committed)
    ⟨fun h lease token hm => h (lease,token) hm,fun h m hm => h m.1 m.2 hm⟩

def State.holds (s : State) (t : ℕ) : Bool := s.writer.any fun w => w.1 = t

/-- The step goes through: the database answers, the deadline has not passed, a sync brings a
vault (in which a call that holds the write lock finds its item) or refuses the session, the
operation returns. -/
def goes (t : ℕ) (x : Choice ρ) (s : State) : Action → Bool
  | .deadline expiresAt => s.clock < expiresAt
  | .getSync lease _ =>
    match x.response with
    | .ok ⟨401,_⟩ => true
    | .ok ⟨200,some (.obj document)⟩ =>
      !s.holds t || (decryptItem document lease.itemRef lease.vaultKey).isOk
    | _ => false
  | .endOperation _ => x.outcome.isOk
  | .startOperation _ _ => true
  | .rollback => true
  | _ => x.available

/-- A step of the call itself: while its token is not stored it goes through, and the vault
sends back the same token only while that is the stored one. -/
def ownStep (t : ℕ) (x : Choice ρ) (s : State) (a : Action) : Bool :=
  (Keeps broker t s || goes decryptItem t x s a) &&
    match a, x.response with
    | .postToken lease, .ok response =>
      response.minted ≠ some lease.refreshToken || Opens broker lease lease.refreshToken s.committed
    | _, _ => true

/-- A step of another call does not store another session leg over the token. -/
def spares (u : ℕ) (s : State) (lease : GrantLease) (token : Bytes) : Action → Bool
  | .rotate other _ => s.writer.isSome || other.grantId ≠ lease.grantId
  | .commit => s.writer.all fun w => w.1 ≠ u || Opens broker lease token w.2
  | _ => true

def otherStep (t u : ℕ) (s : State) (a : Action) : Bool :=
  (s.record.minted t).all fun m => !Opens broker m.1 m.2 s.committed || spares broker u s m.1 m.2 a

def sparingMove (t : ℕ) (s : State) : Move → Bool
  | .administer (.rotate other _ _) _ => (s.record.minted t).all fun m => other.grantId ≠ m.1.grantId
  | _ => true

/-- Nothing comes between the rotated token of call `t` and its commit, and nothing replaces it
before the call has ended. -/
def undisturbed (t : ℕ) (c : World ρ) : Interleave.Event (Choice ρ) Move → Bool
  | .call u x => (c.calls u).upcoming.all fun a =>
      if u = t then ownStep broker decryptItem t x c.shared a else otherStep broker t u c.shared a
  | .environment v => sparingMove t c.shared v

/-- The grant of the lease has been drawn. -/
def State.knows (s : State) (lease : GrantLease) : Prop := ∃ d ∈ s.drawn, lease.grantId = d.toGrantId

/-- What is stored of call `t` stays stored. -/
def Persists (t : ℕ) (s s' : State) : Prop :=
  ∀ lease token, s.record.minted t = some (lease,token) → s.knows lease →
    Opens broker lease token s.committed → Opens broker lease token s'.committed

variable {broker} {t u : ℕ} {s s' : State} {x : Choice ρ}

theorem persists_change {a : Action} {r : Except CustodyError (Answer ρ a)}
    (h : exec broker u a x s = some (r,s')) (hspares : otherStep broker t u s a = true) :
    Persists broker t s s' := by
  intro lease token hm _ hopens
  have hspare : spares broker u s lease token a = true := by
    simpa [otherStep,hm,hopens] using hspares
  have hchange (request : Request) (r' : Except CustodyError Unit) (hdrawn : request.drawn = none)
      (hrotate : s.writer = none → ∀ other t iv, request = .rotate other t iv →
        other.grantId ≠ lease.grantId) (h : s.change broker u x request = some (r',s')) :
      Opens broker lease token s'.committed := by
    rcases State.change_cases h with ⟨hw,-,rfl⟩ | ⟨work,-,-,rfl⟩ | ⟨-,-,rfl⟩
    · exact hopens.step (request,x.now) (by simp [hdrawn]) (hrotate hw)
    · exact hopens
    · exact hopens
  cases a with
  | selectAuthorization scope =>
    simp only [exec] at h
    split at h
    · rename_i hs
      cases h
      rw [(select_spec hs).1.committed]
      exact hopens
    · rename_i hs
      cases h
      show Opens broker lease token _
      rw [(select_spec hs).1.committed]
      exact hopens
  | beginImmediate =>
    simp only [exec] at h
    repeat' split at h
    all_goals cases h
    all_goals exact hopens
  | rotate other new =>
    refine hchange _ _ rfl (fun hw other' t iv hr => ?_) h
    cases hr
    simpa [spares,hw] using hspare
  | invalidate other =>
    refine hchange _ _ rfl (fun _ _ _ _ hr => ?_) h
    cases hr
  | commit =>
    simp only [exec] at h
    split at h
    · cases h
      exact hopens
    · rename_i v work hw
      split at h
      · rename_i hv
        split at h
        · cases h
          simpa [spares,hw,hv] using hspare
        · cases h
          exact hopens
      · cases h
        exact hopens
  | rollback =>
    simp only [exec] at h
    repeat' split at h
    all_goals cases h
    all_goals exact hopens
  | _ =>
    rw [(exec_reads rfl h).committed]
    exact hopens

theorem persists_environment {v : Move} (h : environment broker v s = some s')
    (hspares : sparingMove t s v = true) : Persists broker t s s' := by
  intro lease token hm hknown hopens
  cases v with
  | administer request now =>
    have hrotate (other : GrantLease) (b iv : Bytes) (hr : request = .rotate other b iv) :
        other.grantId ≠ lease.grantId := by
      subst hr
      simpa [sparingMove,hm] using hspares
    simp only [environment] at h
    split at h
    · cases h
    · rename_i hr
      cases h
      exact hopens.step (request,now) (by simp [hr]) hrotate
    · rename_i d hr
      split at h
      · cases h
      · rename_i hd
        cases h
        refine hopens.step (request,now) (fun d' hd' heq => ?_) hrotate
        obtain ⟨d₀,hd₀,hid⟩ := hknown
        rw [hr] at hd'
        cases hd'
        rw [freshId_ext (heq.trans hid)] at hd
        exact hd hd₀
  | openSession token =>
    simp only [environment] at h
    repeat' split at h
    all_goals cases h
    all_goals exact hopens
  | loseAnswer old new =>
    simp only [environment] at h
    repeat' split at h
    all_goals cases h
    all_goals exact hopens
  | tick duration =>
    simp only [environment] at h
    repeat' split at h
    all_goals cases h
    all_goals exact hopens

end Conditions

section Contract

variable {ρ : Type} {broker : Broker} {t : ℕ}
  {decryptItem : List (String × Json) → String → Bytes → Except CustodyError CredentialMaterial}

/-- The contract of call `u`, as far as the token of call `t` goes. -/
def rotation (ρ : Type) (broker : Broker)
    (decryptItem : List (String × Json) → String → Bytes → Except CustodyError CredentialMaterial)
    (t u : ℕ) : Contract Action (Answer ρ) CustodyError State where
  step a r s s' := WellFormed s ∧ ∃ x : Choice ρ, exec broker u a x s = some (r,s') ∧
    (if u = t then ownStep broker decryptItem t x s a else otherStep broker t u s a) = true
  rely s s' := u = t → Rely t s s' ∧ Persists broker t s s'
  guar s s' := WellFormed s ∧ Change broker u s s' ∧ (u ≠ t → Persists broker t s s')
  rely_refl s _ := ⟨Rely.refl t s,fun _ _ _ _ h => h⟩
  rely_trans s s' s'' h h' hu := by
    obtain ⟨hr,hp⟩ := h hu
    obtain ⟨hr',hp'⟩ := h' hu
    refine ⟨hr.trans hr',fun lease token hm hknown hopens => ?_⟩
    obtain ⟨d,hd,hid⟩ := hknown
    exact hp' lease token (hr.minted.trans hm) ⟨d,hr.drawn hd,hid⟩ (hp lease token hm ⟨d,hd,hid⟩ hopens)

theorem rotation_compatible : Compatible (α:=Returned ρ) (machine broker)
    (rotation ρ broker decryptItem t)
    (fun c e => WellFormed c.shared ∧ undisturbed broker decryptItem t c e = true) where
  own c u x a k r s hk he hQ := by
    refine ⟨hQ.1,x,he,?_⟩
    have hup : (c.calls u).upcoming = some a := by rw [hk]; rfl
    have hstep := hQ.2
    simp only [undisturbed,hup,Option.all_some] at hstep
    by_cases hu : u = t
    · rw [if_pos hu] at hstep ⊢
      exact hstep
    · rw [if_neg hu] at hstep ⊢
      exact hstep
  others u v s s' hne hg := by
    rintro rfl
    exact ⟨rely_change hne hg.1 hg.2.1,hg.2.2 hne⟩
  environment c v s he hQ u := by
    rintro rfl
    exact ⟨(environment_spec hQ.1 he).2,persists_environment he hQ.2⟩

/-- Whatever another call does, it keeps its part. -/
theorem bystander_safe {α : Type} {u : ℕ} (hne : u ≠ t) (p : Call ρ α) (s : State) :
    (rotation ρ broker decryptItem t u).Safe (fun _ _ => True) p s := by
  apply Contract.Safe.of_step
  · exact fun _ _ => trivial
  · rintro a r s s' ⟨hwf,x,hx,hstep⟩
    rw [if_neg hne] at hstep
    exact ⟨hwf,exec_change hx,fun _ => persists_change hx hstep⟩

end Contract

section Stages

variable {ρ : Type} {broker : Broker} {t : ℕ} {o : Transaction} {lease : GrantLease}
  {decryptItem : List (String × Json) → String → Bytes → Except CustodyError CredentialMaterial}
  {P : State → Prop} {α : Type}

/-- The call has ended without losing a token. -/
def Kept (broker : Broker) (t : ℕ) (s : State) : Prop :=
  ∀ lease token, s.record.minted t = some (lease,token) →
    s.knows lease ∧ Opens broker lease token s.committed

/-- The token that the call got for its lease, if it got one. -/
def Owed (t : ℕ) (lease : GrantLease) (rotated : Option Bytes) (s : State) : Prop :=
  s.knows lease ∧ s.record.minted t = rotated.map fun token => (lease,token)

def Stored (broker : Broker) (lease : GrantLease) (rotated : Option Bytes) (db : Database) : Prop :=
  ∀ token, rotated = some token → Opens broker lease token db

/-- The call has checked out its lease, and has not yet asked the vault. -/
def Taken (broker : Broker) (t : ℕ) (o : Transaction) (lease : GrantLease) (s : State) : Prop :=
  Owed t lease none s ∧ Untouched t o s ∧ UnderKey broker lease s.committed

/-- The call has the vault's token; the same token as before is the stored one. -/
def Minted (broker : Broker) (t : ℕ) (o : Transaction) (lease : GrantLease) (rotated : Option Bytes)
    (s : State) : Prop :=
  Owed t lease rotated s ∧ Untouched t o s ∧ UnderKey broker lease s.committed ∧
    (rotated = some lease.refreshToken → Opens broker lease lease.refreshToken s.committed) ∧
    ∀ token, rotated = some token → validRefreshToken token = true

/-- The call has stored the token: in the tables, or in the working copy of its transaction. -/
def Secured (broker : Broker) (t : ℕ) (o : Transaction) (lease : GrantLease) (rotated : Option Bytes)
    (s : State) : Prop :=
  Owed t lease rotated s ∧ match o with
    | none => (∀ work, s.writer ≠ some (t,work)) ∧ Stored broker lease rotated s.committed
    | some (_,db) => s.committed = db ∧ ∃ work, s.writer = some (t,work) ∧
        Stored broker lease rotated work

/-- Unless the token is in the committed tables, `p` holds. -/
def Unless (broker : Broker) (lease : GrantLease) (rotated : Option Bytes) (p : Prop) (s : State) : Prop :=
  Stored broker lease rotated s.committed ∨ p

theorem Owed.kept {rotated : Option Bytes} {s : State} (h : Owed t lease rotated s)
    (hs : Stored broker lease rotated s.committed) : Kept broker t s := by
  intro lease' token hm
  rw [h.2] at hm
  obtain ⟨token',rfl,heq⟩ := Option.map_eq_some_iff.mp hm
  cases heq
  exact ⟨h.1,hs token rfl⟩

theorem Owed.stored {rotated : Option Bytes} {s : State} (h : Owed t lease rotated s)
    (hs : Keeps broker t s) : Stored broker lease rotated s.committed := by
  rintro token rfl
  exact hs lease token h.2

theorem Owed.rely {rotated : Option Bytes} {s s' : State} (h : Owed t lease rotated s)
    (hr : Rely t s s') : Owed t lease rotated s' := by
  obtain ⟨⟨d,hd,hid⟩,hm⟩ := h
  exact ⟨⟨d,hr.drawn hd,hid⟩,hr.minted.trans hm⟩

theorem Owed.persists {rotated : Option Bytes} {s s' : State} (h : Owed t lease rotated s)
    (hp : Persists broker t s s') (hs : Stored broker lease rotated s.committed) :
    Stored broker lease rotated s'.committed := by
  rintro token rfl
  exact hp lease token h.2 h.1 (hs token rfl)

theorem Owed.under {rotated : Option Bytes} {s s' : State} (h : Owed t lease rotated s)
    (hr : Rely t s s') (hu : UnderKey broker lease s.committed) :
    UnderKey broker lease s'.committed := by
  obtain ⟨⟨d,hd,hid⟩,-⟩ := h
  exact hu.evolves hd hid hr.evolves

/-- An assertion about the stage that a call with a lease has reached: the others keep it, and
so does a step of the call that changes neither the tables nor its token. -/
structure Stage (broker : Broker) (t : ℕ) (lease : GrantLease) (P : State → Prop) : Prop where
  lasts : ∀ s s', P s → Rely t s s' → Persists broker t s s' → P s'
  same : ∀ s s', P s → Same t s s' → s'.record.minted t = s.record.minted t → P s'
  owed : ∀ s, P s → ∃ rotated, Owed t lease rotated s

theorem Owed.same {rotated : Option Bytes} {s s' : State} (h : Owed t lease rotated s)
    (hs : Same t s s') (hm : s'.record.minted t = s.record.minted t) : Owed t lease rotated s' := by
  obtain ⟨⟨d,hd,hid⟩,hm'⟩ := h
  exact ⟨⟨d,by rw [hs.drawn]; exact hd,hid⟩,hm.trans hm'⟩

theorem stage_taken : Stage broker t lease (Taken broker t o lease) where
  lasts s s' h hr hp := ⟨h.1.rely hr,(framed_untouched o).rely s s' h.2.1 hr,h.1.under hr h.2.2⟩
  same s s' h hs hm := by
    refine ⟨h.1.same hs hm,(framed_untouched o).same s s' h.2.1 hs,?_⟩
    rw [hs.committed]
    exact h.2.2
  owed s h := ⟨none,h.1⟩

theorem stage_minted (rotated : Option Bytes) :
    Stage broker t lease (Minted broker t o lease rotated) where
  lasts s s' h hr hp := by
    refine ⟨h.1.rely hr,(framed_untouched o).rely s s' h.2.1 hr,h.1.under hr h.2.2.1,?_,h.2.2.2.2⟩
    rintro rfl
    exact hp lease lease.refreshToken h.1.2 h.1.1 (h.2.2.2.1 rfl)
  same s s' h hs hm := by
    refine ⟨h.1.same hs hm,(framed_untouched o).same s s' h.2.1 hs,?_⟩
    rw [hs.committed]
    exact h.2.2
  owed s h := ⟨rotated,h.1⟩

theorem stage_secured (rotated : Option Bytes) :
    Stage broker t lease (Secured broker t o lease rotated) where
  lasts s s' h hr hp := by
    refine ⟨h.1.rely hr,?_⟩
    cases o with
    | none => exact ⟨hr.free h.2.1,h.1.persists hp h.2.2⟩
    | some o =>
      obtain ⟨-,hc,work,hw,hs⟩ := h
      obtain ⟨hw',hc'⟩ := hr.held work hw
      exact ⟨hc'.trans hc,work,hw',hs⟩
  same s s' h hs hm := by
    refine ⟨h.1.same hs hm,?_⟩
    cases o with
    | none =>
      refine ⟨fun work => ?_,?_⟩
      · rw [hs.writer]
        exact h.2.1 work
      · rw [hs.committed]
        exact h.2.2
    | some o =>
      obtain ⟨-,hc,work,hw,hst⟩ := h
      exact ⟨hs.committed.trans hc,work,hs.writer.trans hw,hst⟩
  owed s h := ⟨rotated,h.1⟩

theorem Stage.unless {rotated : Option Bytes} (h : Stage broker t lease P) (p : Prop)
    (howed : ∀ s, P s → Owed t lease rotated s) :
    Stage broker t lease fun s => P s ∧ Unless broker lease rotated p s where
  lasts s s' hs hr hp := by
    refine ⟨h.lasts s s' hs.1 hr hp,?_⟩
    rcases hs.2 with hst | hq
    · exact .inl ((howed s hs.1).persists hp hst)
    · exact .inr hq
  same s s' hs hsame hm := by
    refine ⟨h.same s s' hs.1 hsame hm,?_⟩
    rw [Unless,hsame.committed]
    exact hs.2
  owed s hs := h.owed s hs.1

end Stages
end CredentialFetcher
end CloudBrowser
