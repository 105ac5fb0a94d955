import CloudBrowser.TokenRotation

/-! The way of a rotated refresh token through a call: from the vault's answer, past every
point of failure, to its commit. -/
namespace CloudBrowser
namespace CredentialFetcher

open Interleave GrantCustody VaultItems

section Walk

variable {ρ : Type} {broker : Broker} {t : ℕ} {o : Transaction} {lease : GrantLease}
  {decryptItem : List (String × Json) → String → Bytes → Except CustodyError CredentialMaterial}
  {P : State → Prop} {α : Type} {rotated : Option Bytes}

/-- The triples of call `t` under its own contract. -/
abbrev Walk (ρ : Type) (broker : Broker)
    (decryptItem : List (String × Json) → String → Bytes → Except CustodyError CredentialMaterial)
    (t : ℕ) {α : Type} (P : State → Prop) (p : Call ρ α) (Q : Except CustodyError α → State → Prop) : Prop :=
  (rotation ρ broker decryptItem t t).Triple P p Q

theorem Stage.stable (h : Stage broker t lease P) : (rotation ρ broker decryptItem t t).Stable P :=
  fun s s' hs hr => h.lasts s s' hs (hr rfl).1 (hr rfl).2

theorem stable_kept : (rotation ρ broker decryptItem t t).Stable (Kept broker t) := by
  intro s s' h hr lease token hm
  obtain ⟨hrely,hpersists⟩ := hr rfl
  obtain ⟨⟨d,hd,hid⟩,hopens⟩ := h lease token (hrely.minted.symm.trans hm)
  have hm' := hrely.minted.symm.trans hm
  exact ⟨⟨d,hrely.drawn hd,hid⟩,hpersists lease token hm' ⟨d,hd,hid⟩ hopens⟩

theorem own_triple {a : Action} {Q : Except CustodyError (Answer ρ a) → State → Prop}
    (hP : (rotation ρ broker decryptItem t t).Stable P)
    (h : ∀ (s : State) (x : Choice ρ) r s', WellFormed s → P s → exec broker t a x s = some (r,s') →
      ownStep broker decryptItem t x s a = true → Q r s')
    (hQ : ∀ r, (rotation ρ broker decryptItem t t).Stable (Q r)) :
    Walk ρ broker decryptItem t P (perform a) Q := by
  refine Contract.Triple.perform hP (fun _ _ => trivial) (fun s r s' hs hstep => ?_) hQ
  obtain ⟨hwf,x,hx,hown⟩ := hstep
  rw [if_pos rfl] at hown
  exact ⟨⟨hwf,exec_change hx,fun hne => absurd rfl hne⟩,h s x r s' hwf hs hx hown⟩

/-- A step before which the token is not stored goes through. -/
theorem stored_or_goes {s : State} {x : Choice ρ} {a : Action} (howed : Owed t lease rotated s)
    (h : ownStep broker decryptItem t x s a = true) :
    Stored broker lease rotated s.committed ∨ goes decryptItem t x s a = true := by
  simp only [ownStep,Bool.and_eq_true,Bool.or_eq_true,decide_eq_true_eq] at h
  rcases h.1 with hk | hg
  · exact .inl (howed.stored hk)
  · exact .inr hg

theorem exec_minted {a : Action} {s s' : State} {x : Choice ρ} {r : Except CustodyError (Answer ρ a)}
    (h : exec broker t a x s = some (r,s')) (ha : ∀ lease, a ≠ .postToken lease) :
    s'.record.minted t = s.record.minted t ∧ s'.drawn = s.drawn := by
  have hselect {β : Type} {r r' : Except CustodyError β} {s' : State} (h : s.select t x r = (r',s')) :
      s'.record.minted t = s.record.minted t ∧ s'.drawn = s.drawn := by
    rcases State.select_cases h with ⟨-,rfl⟩ | ⟨-,rfl⟩
    · exact ⟨rfl,rfl⟩
    · exact ⟨rfl,rfl⟩
  have hchange {request : Request} {r' : Except CustodyError Unit}
      (h : s.change broker t x request = some (r',s')) :
      s'.record.minted t = s.record.minted t ∧ s'.drawn = s.drawn := by
    rcases State.change_cases h with ⟨-,-,rfl⟩ | ⟨work,-,-,rfl⟩ | ⟨-,-,rfl⟩
    · exact ⟨rfl,rfl⟩
    · exact ⟨rfl,rfl⟩
    · exact ⟨rfl,rfl⟩
  cases a with
  | selectAuthorization scope =>
    simp only [exec] at h
    split at h
    · rename_i hs
      cases h
      exact hselect hs
    · rename_i hs
      cases h
      have hs' := hselect hs
      exact hs'
  | selectScope grantId => exact hselect (Option.some.inj h)
  | checkout ref => exact hselect (Option.some.inj h)
  | recheck lease => exact hselect (Option.some.inj h)
  | postToken lease => exact absurd rfl (ha lease)
  | getSync lease access =>
    simp only [exec] at h
    split at h
    · cases h
      exact ⟨rfl,rfl⟩
    · cases h
      refine ⟨?_,rfl⟩
      simp only [Record.refuse]
      split <;> rfl
  | rotate lease token => exact hchange h
  | invalidate lease => exact hchange h
  | _ =>
    simp only [exec] at h
    repeat' split at h
    all_goals cases h
    all_goals exact ⟨rfl,rfl⟩

/-- The actions after the vault's answer that neither write nor ask the vault. -/
def steady (lease : GrantLease) : Action → Bool
  | .recheck other => other = lease
  | .deadline _ => true
  | .startOperation _ _ => true
  | .endOperation _ => true
  | _ => false

/-- Such a step only fails when the token is stored, or the grant is not active any more. -/
theorem steady_error {a : Action} {s s' : State} {x : Choice ρ} {e : CustodyError}
    (ha : steady lease a = true) (hwf : WellFormed s) (howed : Owed t lease rotated s)
    (hown : ownStep broker decryptItem t x s a = true)
    (hx : exec broker t a x s = some (.error e,s')) : Stored broker lease rotated s.committed := by
  rcases stored_or_goes howed hown with hs | hg
  · exact hs
  cases a with
  | recheck other =>
    have hsame : other = lease := by simpa [steady] using ha
    subst hsame
    have havailable : x.available = true := hg
    simp only [exec,State.select,havailable,if_true,Option.some.injEq,Prod.mk.injEq] at hx
    exact fun token _ => recheck_error hwf.sound hx.1
  | deadline expiresAt =>
    have hclock : s.clock < expiresAt := by simpa [goes] using hg
    simp [exec,hclock] at hx
  | startOperation a material => cases hx
  | endOperation a =>
    have hout : x.outcome = .error e := (Prod.mk.inj (Option.some.inj hx)).1
    simp [goes,hout,Except.isOk,Except.toBool] at hg
  | _ => cases ha

theorem steady_reads {a : Action} (ha : steady lease a = true) :
    a.reads = true ∧ ∀ other, a ≠ .postToken other := by
  cases a with
  | recheck other => exact ⟨rfl,nofun⟩
  | deadline expiresAt => exact ⟨rfl,nofun⟩
  | startOperation a material => exact ⟨rfl,nofun⟩
  | endOperation a => exact ⟨rfl,nofun⟩
  | _ => cases ha

theorem steady_triple {a : Action} (ha : steady lease a = true) (hP : Stage broker t lease P) :
    Walk ρ broker decryptItem t P (perform a) (Contract.Ends (fun _ => P) fun _ => Kept broker t) := by
  refine own_triple hP.stable (fun s x r s' hwf hs hx hown => ?_)
    (Contract.stable_ends (fun _ => hP.stable) fun _ => stable_kept)
  obtain ⟨hreads,hpost⟩ := steady_reads ha
  have hsame := exec_reads hreads hx
  have hminted := (exec_minted hx hpost).1
  cases r with
  | ok y => exact hP.same s s' hs hsame hminted
  | error e =>
    obtain ⟨rotated,howed⟩ := hP.owed s hs
    have hstored := steady_error ha hwf howed hown hx
    refine (howed.same hsame hminted).kept ?_
    rw [hsame.committed]
    exact hstored

theorem checkDeadline_steady (deadline : Option Time) (hP : Stage broker t lease P) :
    Walk ρ broker decryptItem t P (checkDeadline deadline)
      (Contract.Ends (fun _ => P) fun _ => Kept broker t) := by
  cases deadline with
  | none => exact Contract.Triple.ret (fun _ h => h) hP.stable
  | some expiresAt => exact steady_triple rfl hP

theorem lose_triple {Q : α → State → Prop} (e : CustodyError) (h : ∀ s, P s → Kept broker t s) :
    Walk ρ broker decryptItem t P (throw e : Call ρ α) (Contract.Ends Q fun _ => Kept broker t) :=
  Contract.Triple.raise h stable_kept

theorem callVault_steady {deadline : Option Time} {send : Call ρ Response}
    {Q : Response → State → Prop} (hP : Stage broker t lease P) (hQ : ∀ r, Stage broker t lease (Q r))
    (hsend : Walk ρ broker decryptItem t P send (Contract.Ends Q fun _ => Kept broker t)) :
    Walk ρ broker decryptItem t P (callVault deadline send)
      (Contract.Ends Q fun _ => Kept broker t) := by
  refine Contract.Triple.tryCatch (Q:=Contract.Ends Q fun _ => Kept broker t) ?_ (fun _ _ h => h)
    fun e => ?_
  · refine Contract.Triple.bind (checkDeadline_steady deadline hP) (fun _ => ?_) fun _ _ h => h
    refine Contract.Triple.bind hsend (fun response => ?_) fun _ _ h => h
    refine Contract.Triple.bind (checkDeadline_steady deadline (hQ response)) (fun _ => ?_)
      fun _ _ h => h
    exact Contract.Triple.ret (fun _ h => h) (hQ response).stable
  · unfold asDependency
    split
    · exact lose_triple _ fun _ h => h
    · exact lose_triple _ fun _ h => h

/-- A change of the tables by the call itself, from the copies that it has not touched: it is
made in the working copy of its transaction, or committed at once. -/
theorem change_untouched {s s' : State} {x : Choice ρ} {request : Request}
    {r : Except CustodyError Unit} (hu : Untouched t o s)
    (hx : s.change broker t x request = some (r,s')) :
    (r = .error .sqliteOperational ∧ s' = s.hinder t ∧ x.available = false) ∨
    (o = none ∧ r = (Stateful.exec (request.perform broker x.now) s.committed).1 ∧
      s' = { s with committed := s.committed.step broker (request,x.now) } ∧ s.writer = none) ∨
    (o.isSome = true ∧ r = (Stateful.exec (request.perform broker x.now) s.committed).1 ∧
      s' = { s with writer := some (t,s.committed.step broker (request,x.now)) }) := by
  rcases State.change_cases hx with ⟨hw,hr,rfl⟩ | ⟨work,hw,hr,rfl⟩ | ⟨ha,hr,rfl⟩
  · cases o with
    | none => exact .inr (.inl ⟨rfl,hr,rfl,hw⟩)
    | some o =>
      have hwriter := hu.2
      rw [hw] at hwriter
      cases hwriter
  · cases o with
    | none => exact absurd hw (hu work)
    | some o =>
      have hwork : work = o.2 := by simpa using hw.symm.trans hu.2
      have hc : s.committed = work := hu.1.trans hwork.symm
      rw [hc]
      exact .inr (.inr ⟨rfl,hr,rfl⟩)
  · exact .inl ⟨hr,rfl,ha⟩

/-- A change that settles the token secures it; one that cannot be made finds it stored. -/
theorem settle {s s' : State} {x : Choice ρ} {request : Request} {r : Except CustodyError Unit}
    (hs : Minted broker t o lease rotated s) (hx : s.change broker t x request = some (r,s'))
    (hgoes : Stored broker lease rotated s.committed ∨ x.available = true)
    (hstep : Stored broker lease rotated (s.committed.step broker (request,x.now)))
    (herror : ∀ e, (Stateful.exec (request.perform broker x.now) s.committed).1 = .error e →
      Stored broker lease rotated s.committed) :
    Contract.Ends (fun _ => Secured broker t o lease rotated) (fun _ => Kept broker t) r s' := by
  have howed : Owed t lease rotated s := hs.1
  rcases change_untouched hs.2.1 hx with ⟨rfl,rfl,hx'⟩ | ⟨rfl,rfl,rfl,hw⟩ | ⟨ho,rfl,rfl⟩
  · have hstored : Stored broker lease rotated s.committed := by
      rcases hgoes with hstored | hgoes
      · exact hstored
      · rw [hx'] at hgoes
        cases hgoes
    have howed' : Owed t lease rotated (s.hinder t) := howed
    exact howed'.kept hstored
  · have howed' : Owed t lease rotated
        { s with committed := s.committed.step broker (request,x.now) } := howed
    cases (Stateful.exec (request.perform broker x.now) s.committed).1 with
    | ok _ => exact ⟨howed',hs.2.1,hstep⟩
    | error e => exact howed'.kept hstep
  · have howed' : Owed t lease rotated
        { s with writer := some (t,s.committed.step broker (request,x.now)) } := howed
    cases hr : (Stateful.exec (request.perform broker x.now) s.committed).1 with
    | ok _ =>
      cases o with
      | none => cases ho
      | some o => exact ⟨howed',hs.2.1.1,_,rfl,hstep⟩
    | error e => exact howed'.kept (herror e hr)

theorem invalidate_triple :
    Walk ρ broker decryptItem t (Minted broker t o lease rotated) (perform (.invalidate lease))
      (Contract.Ends (fun _ => Secured broker t o lease rotated) fun _ => Kept broker t) := by
  refine own_triple (stage_minted rotated).stable (fun s x r s' _ hs hx hown => ?_)
    (Contract.stable_ends (fun _ => (stage_secured rotated).stable) fun _ => stable_kept)
  have hinvalidate (db : Database) :
      Stored broker lease rotated (db.step broker (.invalidate lease,x.now)) :=
    fun _ _ => opens_invalidate
  exact settle hs hx (stored_or_goes hs.1 hown) (hinvalidate _) nofun

theorem storeRotated_secures (hgcm : RoundTrips broker.gcm) (p : Prop) :
    Walk ρ broker decryptItem t
      (fun s => Minted broker t o lease rotated s ∧ Unless broker lease rotated p s)
      (storeRotated lease rotated)
      (Contract.Ends (fun _ s => Secured broker t o lease rotated s ∧ Unless broker lease rotated p s)
        fun _ => Kept broker t) := by
  have hstage : Stage broker t lease
      fun s => Secured broker t o lease rotated s ∧ Unless broker lease rotated p s :=
    (stage_secured rotated).unless p fun _ h => h.1
  have hminted : Stage broker t lease
      fun s => Minted broker t o lease rotated s ∧ Unless broker lease rotated p s :=
    (stage_minted rotated).unless p fun _ h => h.1
  have keep (hstored : ∀ s, Minted broker t o lease rotated s → Stored broker lease rotated s.committed) :
      Walk ρ broker decryptItem t
        (fun s => Minted broker t o lease rotated s ∧ Unless broker lease rotated p s)
        (pure () : Call ρ Unit)
        (Contract.Ends (fun _ s => Secured broker t o lease rotated s ∧ Unless broker lease rotated p s)
          fun _ => Kept broker t) := by
    refine Contract.Triple.ret (fun s hs => ⟨⟨hs.1.1,?_⟩,hs.2⟩) hstage.stable
    have hst := hstored s hs.1
    cases o with
    | none => exact ⟨hs.1.2.1,hst⟩
    | some o =>
      obtain ⟨hc,hw⟩ := hs.1.2.1
      rw [hc] at hst
      exact ⟨hc,o.2,hw,hst⟩
  cases rotated with
  | none => exact keep fun _ _ => nofun
  | some token =>
    by_cases hne : token ≠ lease.refreshToken
    · rw [storeRotated,if_pos hne]
      refine own_triple hminted.stable (fun s x r s' _ hs hx hown => ?_)
        (Contract.stable_ends (fun _ => hstage.stable) fun _ => stable_kept)
      have hvalid : validRefreshToken token = true := hs.1.2.2.2.2 token rfl
      have hrotate := @opens_rotate broker s.committed lease token x.iv.1 x.now hgcm x.iv.2 hvalid
        hs.1.2.2.1
      have hsettled := settle hs.1 hx (stored_or_goes hs.1.1 hown)
        (fun _ h => by cases h; exact hrotate.1) fun e he _ h => by cases h; exact hrotate.2 e he
      cases r with
      | error e => exact hsettled
      | ok _ =>
        refine ⟨hsettled,?_⟩
        cases o with
        | none => exact .inl hsettled.2.2
        | some o =>
          have hsame : s'.committed = s.committed := hsettled.2.1.trans hs.1.2.1.1.symm
          rw [Unless,hsame]
          exact hs.2
    · rw [storeRotated,if_neg hne]
      rw [ne_eq,not_not] at hne
      subst hne
      refine keep fun s hs _ h => ?_
      cases h
      exact hs.2.2.2.1 rfl

/-- The commit of the call puts what it has secured into the tables. -/
theorem commit_triple :
    Walk ρ broker decryptItem t (Secured broker t o lease rotated) (perform .commit)
      (fun _ => Kept broker t) := by
  refine own_triple (stage_secured rotated).stable (fun s x r s' _ hs hx hown => ?_) fun _ => stable_kept
  have howed : Owed t lease rotated s := hs.1
  cases o with
  | none =>
    obtain ⟨-,hfree,hstored⟩ := hs
    have hsame : s' = s := by
      simp only [exec] at hx
      split at hx
      · cases hx
        rfl
      · rename_i u work hw
        split at hx
        · rename_i hu
          subst hu
          exact absurd hw (hfree work)
        · cases hx
          rfl
    rw [hsame]
    exact howed.kept hstored
  | some o =>
    obtain ⟨-,hc,work,hw,hstored⟩ := hs
    simp only [exec,hw,if_true] at hx
    split at hx
    · cases hx
      have howed' : Owed t lease rotated { s with committed := work, writer := none } := howed
      exact howed'.kept hstored
    · rename_i havailable
      cases hx
      have howed' : Owed t lease rotated (s.hinder t) := howed
      rcases stored_or_goes howed hown with hst | hgoes
      · exact howed'.kept hst
      · exact absurd hgoes havailable

theorem reject_settles {Q : α → State → Prop} :
    Walk ρ broker decryptItem t (Minted broker t o lease rotated) (reject lease : Call ρ α)
      (Contract.Ends Q fun _ => Kept broker t) := by
  refine Contract.Triple.bind invalidate_triple (fun _ => ?_) fun _ _ h => h
  refine Contract.Triple.bind commit_triple (fun _ => ?_) fun _ _ h => h
  exact lose_triple _ fun _ h => h

theorem rotatedToken_valid {j : Json} {token : Bytes} (h : rotatedToken j = .ok (some token)) :
    validRefreshToken token = true := by
  unfold rotatedToken at h
  split at h
  · cases h
  · obtain ⟨_,hv,h⟩ := Stateful.bind_ok h
    cases h
    unfold validateRefreshToken at hv
    split at hv
    · assumption
    · cases hv
  · cases h

theorem minted_valid {response : Response} {token : Bytes} (h : response.minted = some token) :
    validRefreshToken token = true := by
  unfold Response.minted at h
  split at h
  · split at h
    · rename_i hr
      subst h
      exact rotatedToken_valid hr
    · cases h
  · cases h

theorem minted_document {response : Response} {document : List (String × Json)}
    (hstatus : response.status = 200) (hbody : response.body = some (.obj document)) :
    ∀ r, rotatedToken (Json.get document "refresh_token") = .ok r → response.minted = r := by
  intro r hr
  simp only [Response.minted,hstatus,hbody,hr]

/-- Only an answer with status 200 and an object as its body brings a token. -/
theorem minted_none {response : Response}
    (h : ∀ document, response.status = 200 → response.body ≠ some (.obj document)) :
    response.minted = none := by
  unfold Response.minted
  split
  · rename_i document hstatus hbody
    exact absurd hbody (h document hstatus)
  · rfl

theorem answer_minted (s : State) (lease : GrantLease) (response : Response)
    (h : s.record.minted t = none) :
    (s.answer t lease response).record.minted t = response.minted.map fun token => (lease,token) := by
  have hrefuse : (s.record.refuse lease response.refuses).minted = s.record.minted := by
    unfold Record.refuse
    split
    · rfl
    · rfl
  unfold State.answer
  cases response.minted with
  | none => exact (congrFun hrefuse t).trans h
  | some token => simp

theorem postToken_mints :
    Walk ρ broker decryptItem t (Taken broker t o lease) (perform (.postToken lease))
      (Contract.Ends (fun response => Minted broker t o lease response.minted)
        fun _ => Kept broker t) := by
  refine own_triple stage_taken.stable (fun s x r s' _ hs hx hown => ?_)
    (Contract.stable_ends (fun _ => (stage_minted _).stable) fun _ => stable_kept)
  simp only [exec] at hx
  split at hx
  · cases hx
    exact hs.1.kept fun _ h => by cases h
  · rename_i response hresponse
    cases hx
    have hsame := (@answer_spec t s lease response).1
    refine ⟨⟨?_,answer_minted s lease response hs.1.2⟩,
      (framed_untouched o).same s _ hs.2.1 hsame,?_,fun hm => ?_,fun token => minted_valid⟩
    · obtain ⟨d,hd,hid⟩ := hs.1.1
      exact ⟨d,by rw [hsame.drawn]; exact hd,hid⟩
    · rw [hsame.committed]
      exact hs.2.2
    · rw [hsame.committed]
      simp only [ownStep,hresponse,Bool.and_eq_true,Bool.or_eq_true,ne_eq,hm,
        not_true_eq_false,false_or,decide_eq_true_eq] at hown
      exact hown.2

theorem mintSession_mints (deadline : Option Time) :
    Walk ρ broker decryptItem t (Taken broker t o lease) (mintSession lease deadline)
      (Contract.Ends (fun session => Minted broker t o lease session.2) fun _ => Kept broker t) := by
  refine Contract.Triple.ofExcept_bind stage_taken.stable (fun _ _ => ?_)
    fun _ _ _ h => h.1.kept nofun
  refine Contract.Triple.bind (callVault_steady stage_taken (fun _ => stage_minted _) postToken_mints)
    (fun response => ?_) fun _ _ h => h
  have fail (e : CustodyError) (h : response.minted = none) :
      Walk ρ broker decryptItem t (Minted broker t o lease response.minted)
        (throw e : Call ρ (String × Option Bytes))
        (Contract.Ends (fun session => Minted broker t o lease session.2) fun _ => Kept broker t) := by
    refine lose_triple e fun s hs => hs.1.kept ?_
    rw [h]
    exact nofun
  split
  · exact reject_settles
  split
  · rename_i hstatus
    exact fail _ (minted_none fun _ hok => absurd hok hstatus)
  rename_i hstatus
  have hok : response.status = 200 := by simpa using hstatus
  split
  · rename_i document hbody
    have hminted := minted_document hok hbody
    split
    · split
      · exact reject_settles
      · refine Contract.Triple.ofExcept_bind (stage_minted _).stable (fun r hr => ?_)
          fun e s he hs => hs.1.kept ?_
        · have hr' := hminted r hr
          subst hr'
          exact Contract.Triple.ret (fun _ h => h) (stage_minted _).stable
        · have hnone : response.minted = none := by
            simp only [Response.minted,hok,hbody,he]
          rw [hnone]
          exact nofun
    · exact reject_settles
  · rename_i hbody
    exact fail _ (minted_none fun document _ => hbody document)

/-- A sync of a call for its lease goes through. -/
def Brings (decryptItem : List (String × Json) → String → Bytes → Except CustodyError CredentialMaterial)
    (lease : GrantLease) (locked : Prop) (response : Response) : Prop :=
  response.status = 401 ∨ ∃ document, response = ⟨200,some (.obj document)⟩ ∧
    (locked → (decryptItem document lease.itemRef lease.vaultKey).isOk = true)

theorem goes_getSync {x : Choice ρ} {s : State} {access : String}
    (h : goes decryptItem t x s (.getSync lease access) = true) :
    ∃ response, x.response = .ok response ∧ Brings decryptItem lease (s.holds t = true) response := by
  simp only [goes] at h
  split at h
  · rename_i body hresponse
    exact ⟨_,hresponse,.inl rfl⟩
  · rename_i document hresponse
    refine ⟨_,hresponse,.inr ⟨document,rfl,fun hholds => ?_⟩⟩
    simpa [hholds] using h
  · cases h

theorem Untouched.holds {s : State} (h : Untouched t o s) (ho : o.isSome = true) : s.holds t = true := by
  cases o with
  | none => cases ho
  | some o => simp [State.holds,h.2]

/-- A sync that fails finds the token stored; so does one that brings a vault in which a
call with a transaction does not find its item. -/
theorem getSync_goes (access : String) :
    Walk ρ broker decryptItem t (Minted broker t o lease rotated) (perform (.getSync lease access))
      (Contract.Ends (fun response s => Minted broker t o lease rotated s ∧
        Unless broker lease rotated (Brings decryptItem lease (o.isSome = true) response) s)
        fun _ => Kept broker t) := by
  refine own_triple (stage_minted rotated).stable (fun s x r s' _ hs hx hown => ?_)
    (Contract.stable_ends (fun _ => ((stage_minted rotated).unless _ fun _ h => h.1).stable)
      fun _ => stable_kept)
  have hsame := (sync_spec hx).1
  have hm := (exec_minted hx nofun).1
  have hminted : Minted broker t o lease rotated s' := (stage_minted rotated).same s s' hs hsame hm
  have hgoes := stored_or_goes hs.1 hown
  rw [← hsame.committed] at hgoes
  simp only [exec] at hx
  split at hx
  · rename_i e he
    cases hx
    rcases hgoes with hst | hgoes
    · exact hminted.1.kept hst
    · obtain ⟨response,hresponse,-⟩ := goes_getSync hgoes
      rw [he] at hresponse
      cases hresponse
  · rename_i response hresponse
    cases hx
    refine ⟨hminted,?_⟩
    rcases hgoes with hst | hgoes
    · exact .inl hst
    · obtain ⟨response',hresponse',hbrings⟩ := goes_getSync hgoes
      rw [hresponse] at hresponse'
      cases hresponse'
      rcases hbrings with hrefused | ⟨document,hdocument,hitem⟩
      · exact .inr (.inl hrefused)
      · exact .inr (.inr ⟨document,hdocument,fun ho => hitem (hs.2.1.holds ho)⟩)

/-- What is known of the vault that a sync brings. -/
abbrev Synced (broker : Broker)
    (decryptItem : List (String × Json) → String → Bytes → Except CustodyError CredentialMaterial)
    (o : Transaction) (lease : GrantLease) (rotated : Option Bytes) (document : List (String × Json)) :
    State → Prop :=
  Unless broker lease rotated
    (o.isSome = true → (decryptItem document lease.itemRef lease.vaultKey).isOk = true)

theorem sync_goes (access : String) (deadline : Option Time) :
    Walk ρ broker decryptItem t (Minted broker t o lease rotated) (sync access lease deadline)
      (Contract.Ends (fun document s => Minted broker t o lease rotated s ∧
        Synced broker decryptItem o lease rotated document s) fun _ => Kept broker t) := by
  refine Contract.Triple.bind (steady_triple (by simp [steady]) (stage_minted rotated)) (fun _ => ?_)
    fun _ _ h => h
  refine Contract.Triple.bind (callVault_steady (stage_minted rotated)
    (fun _ => (stage_minted rotated).unless _ fun _ h => h.1) (getSync_goes access))
    (fun response => ?_) fun _ _ h => h
  have fail (e : CustodyError) (hrefused : ¬response.status = 401)
      (h : ∀ document, response ≠ ⟨200,some (.obj document)⟩) :
      Walk ρ broker decryptItem t (fun s => Minted broker t o lease rotated s ∧
        Unless broker lease rotated (Brings decryptItem lease (o.isSome = true) response) s)
        (throw e : Call ρ (List (String × Json)))
        (Contract.Ends (fun document s => Minted broker t o lease rotated s ∧
          Synced broker decryptItem o lease rotated document s) fun _ => Kept broker t) := by
    refine lose_triple e fun s hs => ?_
    rcases hs.2 with hst | hr | ⟨document,hdocument,-⟩
    · exact hs.1.1.kept hst
    · exact absurd hr hrefused
    · exact absurd hdocument (h document)
  split
  · exact reject_settles.conseq (fun _ h => h.1) fun _ _ h => h
  rename_i hrefused
  split
  · rename_i hstatus
    exact fail _ hrefused fun document h => hstatus (by rw [h])
  split
  · rename_i document hbody
    refine Contract.Triple.ret (fun s hs => ⟨hs.1,?_⟩)
      ((stage_minted rotated).unless _ fun _ h => h.1).stable
    rcases hs.2 with hst | hr | ⟨document',hdocument,hitem⟩
    · exact .inl hst
    · exact absurd hr hrefused
    · rw [hdocument] at hbody
      cases hbody
      exact .inr hitem
  · rename_i hbody
    exact fail _ hrefused fun document h => hbody document (by rw [h])

/-- The call has secured whatever token it got. -/
def Settled (broker : Broker) (t : ℕ) (o : Transaction) (lease : GrantLease) (s : State) : Prop :=
  ∃ rotated, Secured broker t o lease rotated s

theorem stage_settled : Stage broker t lease (Settled broker t o lease) where
  lasts s s' h hr hp := by
    obtain ⟨rotated,h⟩ := h
    exact ⟨rotated,(stage_secured rotated).lasts s s' h hr hp⟩
  same s s' h hs hm := by
    obtain ⟨rotated,h⟩ := h
    exact ⟨rotated,(stage_secured rotated).same s s' h hs hm⟩
  owed s h := by
    obtain ⟨rotated,h⟩ := h
    exact ⟨rotated,h.1⟩

theorem leaseMaterial_secures (hgcm : RoundTrips broker.gcm) (deadline : Option Time) :
    Walk ρ broker decryptItem t (Taken broker t o lease) (leaseMaterial decryptItem lease deadline)
      (Contract.Ends (fun _ => Settled broker t o lease) fun _ => Kept broker t) := by
  have hself : steady lease (.recheck lease) = true := by simp [steady]
  refine Contract.Triple.bind (steady_triple hself stage_taken) (fun _ => ?_) fun _ _ h => h
  refine Contract.Triple.bind (mintSession_mints deadline) (fun session => ?_) fun _ _ h => h
  obtain ⟨access,rotated⟩ := session
  have hminted : Stage broker t lease (Minted broker t o lease rotated) := stage_minted rotated
  have hsecured : Stage broker t lease (Secured broker t o lease rotated) := stage_secured rotated
  refine Contract.Triple.bind (steady_triple hself hminted) (fun _ => ?_) fun _ _ h => h
  refine Contract.Triple.bind (sync_goes access deadline) (fun document => ?_) fun _ _ h => h
  refine Contract.Triple.bind (steady_triple hself (hminted.unless _ fun _ h => h.1)) (fun _ => ?_)
    fun _ _ h => h
  refine Contract.Triple.bind (storeRotated_secures hgcm _) (fun _ => ?_) fun _ _ h => h
  have hsynced := hsecured.unless (o.isSome = true →
    (decryptItem document lease.itemRef lease.vaultKey).isOk = true) fun _ h => h.1
  refine Contract.Triple.bind (steady_triple hself hsynced) (fun _ => ?_) fun _ _ h => h
  refine Contract.Triple.ofExcept_bind hsynced.stable (fun material _ => ?_) fun e s he hs => ?_
  · refine Contract.Triple.bind (steady_triple hself hsynced) (fun _ => ?_) fun _ _ h => h
    exact Contract.Triple.ret (fun s hs => ⟨rotated,hs.1⟩) stage_settled.stable
  · rcases hs.2 with hst | hitem
    · exact hs.1.1.kept hst
    · cases o with
      | none => exact hs.1.1.kept hs.1.2.2
      | some o =>
        have hok := hitem rfl
        rw [he] at hok
        cases hok

theorem authorizedBody_settles (hgcm : RoundTrips broker.gcm) {a : GrantAuthorization}
    {expected : GrantId} {deadline : Option Time} :
    Walk ρ broker decryptItem t (Taken broker t o lease)
      (authorizedBody decryptItem a expected deadline lease)
      (Contract.Ends (fun _ => Settled broker t o lease) fun _ => Kept broker t) := by
  refine Contract.Triple.bind (checkDeadline_steady deadline stage_taken) (fun _ => ?_) fun _ _ h => h
  split
  · exact lose_triple _ fun s hs => hs.1.kept nofun
  split
  · exact lose_triple _ fun s hs => hs.1.kept nofun
  refine Contract.Triple.bind (leaseMaterial_secures hgcm deadline) (fun material => ?_) fun _ _ h => h
  refine Contract.Triple.bind (steady_triple rfl stage_settled) (fun _ => ?_) fun _ _ h => h
  refine Contract.Triple.bind (steady_triple rfl stage_settled) (fun result => ?_) fun _ _ h => h
  refine Contract.Triple.bind (steady_triple (by simp [steady]) stage_settled) (fun _ => ?_)
    fun _ _ h => h
  exact Contract.Triple.ret (fun _ h => h) stage_settled.stable

/-- The call has not asked the vault yet, and holds no lock. -/
def Fresh (t : ℕ) (s : State) : Prop :=
  s.record.minted t = none ∧ ∀ work, s.writer ≠ some (t,work)

theorem kept_of_unminted {s : State} (h : s.record.minted t = none) : Kept broker t s := by
  intro lease token hm
  rw [h] at hm
  cases hm

theorem stable_fresh : (rotation ρ broker decryptItem t t).Stable (Fresh t) :=
  fun _ _ h hr => ⟨(hr rfl).1.minted.trans h.1,(hr rfl).1.free h.2⟩

/-- Before it asks the vault, a call can fail anywhere. -/
theorem fresh_triple {a : Action} (ha : a.reads = true) (hpost : ∀ lease, a ≠ .postToken lease) :
    Walk ρ broker decryptItem t (Fresh t) (perform a)
      (Contract.Ends (fun _ => Fresh t) fun _ => Kept broker t) := by
  refine own_triple stable_fresh (fun s x r s' _ hs hx _ => ?_)
    (Contract.stable_ends (fun _ => stable_fresh) fun _ => stable_kept)
  have hm : s'.record.minted t = none := (exec_minted hx hpost).1.trans hs.1
  cases r with
  | ok _ => exact ⟨hm,fun work => by rw [(exec_reads ha hx).writer]; exact hs.2 work⟩
  | error e => exact kept_of_unminted hm

theorem checkDeadline_fresh (deadline : Option Time) :
    Walk ρ broker decryptItem t (Fresh t) (checkDeadline deadline)
      (Contract.Ends (fun _ => Fresh t) fun _ => Kept broker t) := by
  cases deadline with
  | none => exact Contract.Triple.ret (fun _ h => h) stable_fresh
  | some expiresAt => exact fresh_triple rfl nofun

/-- Once the token is in the tables, the call can fail anywhere, or roll back. -/
theorem kept_triple {a : Action} (ha : a.reads = true ∨ a = .rollback)
    (hpost : ∀ lease, a ≠ .postToken lease) :
    Walk ρ broker decryptItem t (Kept broker t) (perform a) (fun _ => Kept broker t) := by
  refine own_triple stable_kept (fun s x r s' _ hs hx _ => ?_) fun _ => stable_kept
  have hm := exec_minted hx hpost
  have hc : s'.committed = s.committed := by
    rcases ha with ha | rfl
    · exact (exec_reads ha hx).committed
    · simp only [exec] at hx
      repeat' split at hx
      all_goals cases hx
      all_goals rfl
  intro lease token htoken
  obtain ⟨⟨d,hd,hid⟩,hopens⟩ := hs lease token (hm.1.symm.trans htoken)
  rw [hc]
  exact ⟨⟨d,by rw [hm.2]; exact hd,hid⟩,hopens⟩

/-- A checkout brings a grant that has been drawn, and its key. -/
theorem checkout_takes {ref : String} {P : State → Prop}
    (hP : (rotation ρ broker decryptItem t t).Stable P)
    (hsame : ∀ s s', P s → Same t s s' → s'.record.minted t = s.record.minted t → P s')
    (h : ∀ s, P s → s.record.minted t = none ∧ Untouched t o s) :
    Walk ρ broker decryptItem t P (perform (.checkout ref))
      (Contract.Ends (fun lease => Taken broker t o lease) fun _ => Kept broker t) := by
  refine own_triple hP (fun s x r s' hwf hs hx _ => ?_)
    (Contract.stable_ends (fun _ => stage_taken.stable) fun _ => stable_kept)
  have hm := exec_minted hx nofun
  have hsel := select_spec (Option.some.inj hx)
  obtain ⟨hnone,huntouched⟩ := h s' (hsame s s' hs hsel.1 hm.1)
  cases r with
  | error e => exact kept_of_unminted hnone
  | ok lease =>
    have hco : s.committed.checkout broker ref = .ok lease := by
      rcases hsel.2 with hr | ⟨e,he,-⟩
      · exact hr.symm
      · cases he
    obtain ⟨row,hmem,-,-,hid,-,hscope,hkey,htoken⟩ := checkout_ok hco
    obtain ⟨d,hd,hdrawn⟩ := hwf.drawn row hmem
    refine ⟨⟨⟨d,by rw [hm.2]; exact hd,hid.trans hdrawn⟩,hnone⟩,huntouched,sessionToken_key hkey htoken,?_⟩
    intro row' hmem' hleased
    rw [hsel.1.committed] at hmem'
    have hrow : row' = row :=
      Keyed.Table.eq_of_key hmem' hmem ((leased_iff.mp hleased).2.1.trans hscope)
    rw [hrow]
    exact hkey

/-- Nothing has been written since the transaction began. -/
def Entered (t : ℕ) (o : Transaction) (s : State) : Prop :=
  s.record.minted t = none ∧ Untouched t o s

theorem stable_entered : (rotation ρ broker decryptItem t t).Stable (Entered t o) :=
  fun s s' h hr => ⟨(hr rfl).1.minted.trans h.1,(framed_untouched o).rely s s' h.2 (hr rfl).1⟩

theorem entered_same (s s' : State) (h : Entered t o s) (hs : Same t s s')
    (hm : s'.record.minted t = s.record.minted t) : Entered t o s' :=
  ⟨hm.trans h.1,(framed_untouched o).same s s' h.2 hs⟩

theorem begin_enters (a : GrantAuthorization) :
    Walk ρ broker decryptItem t (Fresh t) (perform .beginImmediate)
      (Contract.Ends (fun _ s => ∃ db, Entered t (some (a,db)) s) fun _ => Kept broker t) := by
  refine own_triple stable_fresh (fun s x r s' _ hs hx _ => ?_)
    (Contract.stable_ends (fun _ s s' ⟨db,h⟩ hr => ⟨db,stable_entered s s' h hr⟩) fun _ => stable_kept)
  have hm : s'.record.minted t = none := (exec_minted hx nofun).1.trans hs.1
  cases r with
  | error e => exact kept_of_unminted hm
  | ok _ =>
    simp only [exec] at hx
    split at hx
    · split at hx
      · cases hx
        exact ⟨s.committed,hm,rfl,rfl⟩
      · cases hx
    · cases hx

theorem gated_keeps {body : GrantLease → Call ρ α} (a : GrantAuthorization)
    (hbody : ∀ o lease, Walk ρ broker decryptItem t (Taken broker t o lease) (body lease)
      (Contract.Ends (fun _ => Settled broker t o lease) fun _ => Kept broker t)) :
    Walk ρ broker decryptItem t (Fresh t) (gated a.usernameRef body) (fun _ => Kept broker t) := by
  refine Contract.Triple.tryCatch (Q:=fun _ => Kept broker t) ?_ (fun _ _ h => h) fun e => ?_
  · refine Contract.Triple.bind (begin_enters a) (fun _ => ?_) fun _ _ h => h
    rintro s ⟨db,hentered⟩
    refine (Contract.Triple.bind (checkout_takes stable_entered entered_same fun _ h => h)
      (fun lease => ?_) (fun _ _ h => h) : Walk ρ broker decryptItem t (Entered t (some (a,db))) _
        fun _ => Kept broker t) s hentered
    refine Contract.Triple.bind (hbody (some (a,db)) lease) (fun result => ?_) fun _ _ h => h
    rintro s ⟨rotated,hsecured⟩
    refine (Contract.Triple.bind commit_triple (fun _ => ?_) (fun _ _ h => h) :
      Walk ρ broker decryptItem t _ _ fun _ => Kept broker t) s hsecured
    exact Contract.Triple.ret (fun _ h => h) stable_kept
  · refine Contract.Triple.bind (kept_triple (.inr rfl) nofun) (fun _ => ?_) fun _ _ h => h
    exact Contract.Triple.raise (fun _ h => h) stable_kept

theorem asCustody_keeps (deadline : Option Time) (e : CustodyError) :
    Walk ρ broker decryptItem t (Kept broker t) (asCustody deadline e : Call ρ α)
      (fun _ => Kept broker t) := by
  have raised (e : CustodyError) : Walk ρ broker decryptItem t (Kept broker t) (throw e : Call ρ α)
      (fun _ => Kept broker t) := Contract.Triple.raise (fun _ h => h) stable_kept
  cases e with
  | sqliteOperational =>
    refine Contract.Triple.bind (Q:=fun _ => Kept broker t) ?_ (fun _ => raised _) fun _ _ h => h
    cases deadline with
    | none => exact Contract.Triple.ret (fun _ h => h) stable_kept
    | some expiresAt => exact kept_triple (.inl rfl) nofun
  | _ => exact raised _

theorem authorizedOperation_keeps {body : GrantLease → Call ρ α} (a : GrantAuthorization)
    (deadline : Option Time)
    (hbody : ∀ o lease, Walk ρ broker decryptItem t (Taken broker t o lease) (body lease)
      (Contract.Ends (fun _ => Settled broker t o lease) fun _ => Kept broker t)) :
    Walk ρ broker decryptItem t (Fresh t) (authorizedOperation a.usernameRef deadline body)
      (fun _ => Kept broker t) := by
  refine Contract.Triple.ofExcept_bind stable_fresh (fun grantId _ => ?_)
    fun _ _ _ h => kept_of_unminted h.1
  refine Contract.Triple.bind (fresh_triple rfl nofun) (fun _ => ?_) fun _ _ h => h
  refine Contract.Triple.bind (checkDeadline_fresh deadline) (fun _ => ?_) fun _ _ h => h
  refine Contract.Triple.bind (checkDeadline_fresh deadline) (fun _ => ?_) fun _ _ h => h
  refine Contract.Triple.tryCatch (Q:=fun _ => Kept broker t) ?_ (fun _ _ h => h)
    fun e => asCustody_keeps deadline e
  refine Contract.Triple.bind (checkDeadline_fresh deadline) (fun _ => ?_) fun _ _ h => h
  refine Contract.Triple.bind (checkDeadline_fresh deadline) (fun _ => ?_) fun _ _ h => h
  refine Contract.Triple.bind (checkDeadline_fresh deadline) (fun _ => ?_) fun _ _ h => h
  exact gated_keeps a hbody

theorem runAuthorized_keeps (hgcm : RoundTrips broker.gcm) (a : GrantAuthorization)
    (deadline : Option Time) :
    Walk ρ broker decryptItem t (Fresh t) (runAuthorized decryptItem a deadline)
      (fun _ => Kept broker t) := by
  refine Contract.Triple.ofExcept_bind stable_fresh (fun expected _ => ?_)
    fun _ _ _ h => kept_of_unminted h.1
  exact authorizedOperation_keeps a deadline fun o lease => authorizedBody_settles hgcm

theorem resolve_fresh (scope : GrantScope) :
    Walk ρ broker decryptItem t (Fresh t) (perform (.selectAuthorization scope))
      (Contract.Ends (fun _ => Fresh t) fun _ => Kept broker t) := by
  refine own_triple stable_fresh (fun s x r s' _ hs hx _ => ?_)
    (Contract.stable_ends (fun _ => stable_fresh) fun _ => stable_kept)
  have hm : s'.record.minted t = none := (exec_minted hx nofun).1.trans hs.1
  cases r with
  | error e => exact kept_of_unminted hm
  | ok a =>
    refine ⟨hm,?_⟩
    simp only [exec] at hx
    split at hx
    · cases hx
    · rename_i s₁ hs₁
      cases hx
      have hw : s₁.writer = s.writer := (select_spec hs₁).1.writer
      intro work
      rw [hw]
      exact hs.2 work

theorem fetch_keeps (hgcm : RoundTrips broker.gcm) (ref : String) (deadline : Option Time) :
    Walk ρ broker decryptItem t (Fresh t) (fetch decryptItem ref deadline)
      (fun _ => Kept broker t) := by
  refine Contract.Triple.bind (checkout_takes (o:=none) stable_fresh
    (entered_same (o:=none)) fun _ h => h) (fun lease => ?_) fun _ _ h => h
  refine Contract.Triple.bind (checkDeadline_steady deadline stage_taken) (fun _ => ?_) fun _ _ h => h
  refine (leaseMaterial_secures hgcm deadline).conseq (fun _ h => h) fun r s h => ?_
  cases r with
  | error e => exact h
  | ok material =>
    obtain ⟨rotated,howed,-,hstored⟩ := h
    exact howed.kept hstored

theorem task_keeps (hgcm : RoundTrips broker.gcm) (task : Task) :
    Walk ρ broker decryptItem t (Fresh t) (task.call decryptItem) (fun _ => Kept broker t) := by
  have returned {β : Type} {p : Call ρ β} {f : β → Returned ρ}
      (h : Walk ρ broker decryptItem t (Fresh t) p (fun _ => Kept broker t)) :
      Walk ρ broker decryptItem t (Fresh t) (do let x ← p; return f x) (fun _ => Kept broker t) :=
    Contract.Triple.bind h (fun x => Contract.Triple.ret (fun _ h => h) stable_kept) fun _ _ h => h
  cases task with
  | fetch ref deadline => exact returned (fetch_keeps hgcm ref deadline)
  | runAuthorized a deadline => exact returned (runAuthorized_keeps hgcm a deadline)
  | login scope deadline =>
    refine returned (Contract.Triple.bind (resolve_fresh scope) (fun a => ?_) fun _ _ h => h)
    exact runAuthorized_keeps hgcm a deadline

end Walk

section Runs

variable {ρ : Type} {broker : Broker}
  {decryptItem : List (String × Json) → String → Bytes → Except CustodyError CredentialMaterial}

/-- In a run that does not disturb the token of a call, a finished call has it in the tables. -/
theorem kept_throughout (hgcm : RoundTrips broker.gcm) (t : ℕ) (tasks : ℕ → Task)
    (es : List (Interleave.Event (Choice ρ) Move))
    (h : (machine broker).EachStep (fun c e => undisturbed broker decryptItem t c e = true)
      (World.boot decryptItem tasks) es) :
    (machine broker).Throughout (TokenKept broker t) (World.boot decryptItem tasks) es := by
  have hwf : (machine broker).Throughout (fun c => WellFormed c.shared)
      (World.boot decryptItem tasks) es := wellFormed_throughout decryptItem tasks es
  have hsteps := h.imp hwf fun c e hc hu => (⟨hc,hu⟩ :
    WellFormed c.shared ∧ undisturbed broker decryptItem t c e = true)
  have hboot : AllSafe (rotation ρ broker decryptItem t) (fun u (_ : Except CustodyError (Returned ρ)) s =>
      u = t → Kept broker t s) (World.boot decryptItem tasks) := by
    intro u
    by_cases hu : u = t
    · subst hu
      have hfresh : Fresh u (World.boot (ρ:=ρ) decryptItem tasks).shared := ⟨rfl,nofun⟩
      exact (task_keeps hgcm (tasks u) _ hfresh).mono fun _ _ hk _ => hk
    · exact (bystander_safe hu _ _).mono fun _ _ _ hut => absurd hut hu
  have hsafe := Machine.throughout_of_step
    (fun c d e hc hQ hn => allSafe_next rotation_compatible c d e hc hQ hn) hboot hsteps
  refine hsafe.mono fun c hc hf lease token hm => ?_
  cases hcall : c.calls t with
  | act a k =>
    rw [hcall] at hf
    cases hf
  | ret x => exact (hc.returned hcall rfl lease token hm).2
  | raise e => exact (hc.raised hcall rfl lease token hm).2

theorem roundTrips_plainGcm : RoundTrips plainGcm where
  tag _ _ _ _ _ := rfl
  opens _ _ _ _ _ := rfl

/-- A login, up to the end of its operation: the vault rotates its token, and it is stored. -/
def loginRun : List (Interleave.Event (Choice Unit) Move) :=
  .environment (.administer aliceProvision.1 5) :: List.replicate 5 (.call 0 {}) ++
    [.call 0 rotatedAnswer,.call 0 {},.call 0 {},.call 0 (answered 200 [])] ++
    List.replicate 5 (.call 0 {})

def loginWorld : World Unit := World.boot aliceLogin fun _ => .login aliceScope none

/-- The login has ended, and got the token `B`. -/
def endedWithB (c : World Unit) : Bool :=
  (c.calls 0).finished && (c.shared.record.minted 0).any fun m => m.2 = [66]

theorem kept_login : (machine plainBroker).Throughout (TokenKept plainBroker 0) loginWorld
      (loginRun ++ [.call 0 { outcome := .ok () },.call 0 {},.call 0 {}]) ∧
    ((machine plainBroker).run loginWorld
      (loginRun ++ [.call 0 { outcome := .ok () },.call 0 {},.call 0 {}])).any endedWithB = true := by
  have hsteps : (machine plainBroker).checkSteps (undisturbed plainBroker aliceLogin 0) loginWorld
      (loginRun ++ [.call 0 { outcome := .ok () },.call 0 {},.call 0 {}]) = true := by
    decide +kernel
  refine ⟨?_,by decide +kernel⟩
  exact kept_throughout roundTrips_plainGcm 0 _ _ (Machine.eachStep_of_check hsteps)

/-- The operation raises after the token was stored in the transaction, which is rolled back. -/
def failedLogin : List (Interleave.Event (Choice Unit) Move) :=
  loginRun ++ [.call 0 { outcome := .error .other },.call 0 {}]

/-- The login has ended, and the active grant of its lease still has the token `A`. -/
def losesB (c : World Unit) : Bool :=
  (c.calls 0).finished && !decide (Keeps plainBroker 0 c.shared)

theorem failed_login_loses : ¬∀ (broker : Broker) (decryptItem : List (String × Json) → String → Bytes →
      Except CustodyError CredentialMaterial) (t : ℕ) (tasks : ℕ → Task)
    (es : List (Interleave.Event (Choice Unit) Move)), RoundTrips broker.gcm →
      (machine broker).Throughout (TokenKept broker t) (World.boot decryptItem tasks) es := by
  intro h
  have hrun : ((machine plainBroker).run loginWorld failedLogin).any losesB = true := by
    decide +kernel
  obtain ⟨c,hc,hlost⟩ := (Option.any_eq_true _ _).mp hrun
  have hkept := Machine.throughout_last (h plainBroker aliceLogin 0 _ failedLogin roundTrips_plainGcm) hc
  simp only [losesB,Bool.and_eq_true,Bool.not_eq_true',decide_eq_false_iff_not] at hlost
  exact hlost.2 (hkept hlost.1)

end Runs
end CredentialFetcher
end CloudBrowser
