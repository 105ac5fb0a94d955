import CloudBrowser.FetcherContract

/-! A call's operation runs inside the transaction that rechecked its authorization, and an
authorization that has changed before the transaction began is refused. -/
namespace CloudBrowser
namespace CredentialFetcher

open Interleave GrantCustody VaultItems

section Walk

variable {ρ : Type} {broker : Broker} {t : ℕ} {P : State → Prop} {o : Transaction} {α : Type}

/-- The transaction has begun, and the call has written nothing. -/
abbrev Clean (t : ℕ) (o : Transaction) (s : State) : Prop := Untouched t o s ∧ Begun t o s

/-- The transaction has begun, and nobody else has written. -/
abbrev Locked (t : ℕ) (o : Transaction) (s : State) : Prop := Inside t o s ∧ Begun t o s

theorem framed_clean (o : Transaction) : Framed t (Clean t o) :=
  (framed_untouched o).and (framed_begun o)

theorem framed_locked (o : Transaction) : Framed t (Locked t o) :=
  (framed_inside o).and (framed_begun o)

/-- Whatever a call does inside its transaction, it is still noted when it began. -/
theorem begun_triple {a : Action} (hb : a ≠ .beginImmediate)
    (hs : ∀ scope, a ≠ .selectAuthorization scope) (hP : Framed t P)
    (hbegun : ∀ s, P s → Begun t o s) (hpre : ∀ s, P s → Performs broker t a s) :
    (contract ρ broker t).Triple P (perform a) (fun _ => Begun t o) := by
  refine perform_triple hP hpre (fun s x r s' _ hPs hx => ?_) fun _ => (framed_begun o).stable
  obtain ⟨hresolved,hbegan,-⟩ := exec_noted hx hb hs
  have hold := hbegun s hPs
  cases o with
  | none => exact hresolved.trans hold
  | some o => exact ⟨hbegan.trans hold.1,fun b h => hold.2 b (hresolved.symm.trans h)⟩

theorem fail_triple {Q : α → State → Prop} (e : CustodyError) (hbegun : ∀ s, P s → Begun t o s) :
    (contract ρ broker t).Triple P (throw e : Call ρ α) (Contract.Ends Q fun _ => Begun t o) :=
  raise_triple e hbegun (framed_begun o).stable

/-- Under the write lock the stored session leg is the refused one. -/
theorem reject_triple {Q : α → State → Prop} {lease : GrantLease}
    (hlease : ∀ a db, o = some (a,db) → Opens broker lease lease.refreshToken db) :
    (contract ρ broker t).Triple
      (fun s => Clean t o s ∧ (True → lease.refreshToken ∈ s.record.refused))
      (reject lease : Call ρ α) (Contract.Ends Q fun _ => Begun t o) := by
  have hframed := (framed_clean o).and (framed_refused lease.refreshToken (t:=t) True)
  refine Contract.Triple.bind (begun_triple nofun nofun hframed (fun s h => h.1.2) ?_) (fun _ => ?_)
    fun _ _ h => h
  · rintro s ⟨⟨huntouched,-⟩,hrefused⟩
    refine ⟨hrefused trivial,fun work hw => ?_⟩
    cases o with
    | none => exact absurd hw (huntouched work)
    | some o =>
      have hwork : work = o.2 := by simpa using (hw.symm.trans huntouched.2)
      rw [hwork]
      exact hlease o.1 o.2 rfl
  · refine Contract.Triple.bind (begun_triple nofun nofun (framed_begun o) (fun _ h => h)
      fun _ _ => trivial) (fun _ => ?_) fun _ _ h => h
    exact fail_triple _ fun _ h => h

/-- A request to the vault fails without touching the transaction, or brings what was sent for. -/
theorem callVault_triple {deadline : Option Time} {send : Call ρ Response}
    {Q : Response → State → Prop} (hP : Framed t P) (hQ : ∀ r, Framed t (Q r))
    (hbegun : ∀ s, P s → Begun t o s) (hQbegun : ∀ r s, Q r s → Begun t o s)
    (hsend : (contract ρ broker t).Triple P send (Contract.Ends Q fun _ => Begun t o)) :
    (contract ρ broker t).Triple P (callVault deadline send) (Contract.Ends Q fun _ => Begun t o) := by
  refine Contract.Triple.tryCatch (Q:=Contract.Ends Q fun _ => Begun t o) ?_ (fun _ _ h => h) fun e => ?_
  · refine Contract.Triple.bind (checkDeadline_triple deadline hP) (fun _ => ?_)
      fun _ s h => hbegun s h.1
    refine Contract.Triple.bind hsend (fun response => ?_) fun _ _ h => h
    refine Contract.Triple.bind (checkDeadline_triple deadline (hQ response)) (fun _ => ?_)
      fun _ s h => hQbegun response s h.1
    exact Contract.Triple.ret (fun _ h => h) (hQ response).stable
  · unfold asDependency
    split
    · exact fail_triple _ fun _ h => h
    · exact fail_triple _ fun _ h => h

/-- A refusal by the vault is noted. -/
theorem postToken_triple (lease : GrantLease) :
    (contract ρ broker t).Triple (Clean t o) (perform (.postToken lease))
      (Contract.Ends (fun response s => Clean t o s ∧
        (response.refuses = true → lease.refreshToken ∈ s.record.refused)) fun _ => Begun t o) := by
  refine perform_triple (framed_clean o) (fun _ _ => trivial) (fun s x r s' _ hs hx => ?_)
    (Contract.stable_ends (fun _ => ((framed_clean o).and (framed_refused _ _)).stable)
      fun _ => (framed_begun o).stable)
  · simp only [exec] at hx
    split at hx
    · cases hx
      exact hs.2
    · cases hx
      obtain ⟨hsame,hrefused⟩ := @answer_spec t s lease _
      exact ⟨(framed_clean o).same s _ hs hsame,hrefused⟩

theorem getSync_triple (lease : GrantLease) (access : String) :
    (contract ρ broker t).Triple (Clean t o) (perform (.getSync lease access))
      (Contract.Ends (fun response s => Clean t o s ∧
        (response.status = 401 → lease.refreshToken ∈ s.record.refused)) fun _ => Begun t o) := by
  refine perform_triple (framed_clean o) (fun _ _ => trivial) (fun s x r s' _ hs hx => ?_)
    (Contract.stable_ends (fun _ => ((framed_clean o).and (framed_refused _ _)).stable)
      fun _ => (framed_begun o).stable)
  · obtain ⟨hsame,hrefused⟩ := sync_spec hx
    cases r with
    | ok response => exact ⟨(framed_clean o).same s s' hs hsame,hrefused response rfl⟩
    | error e => exact (framed_begun o).same s s' hs.2 hsame

theorem refuses_of_status {response : Response} (h : response.status = 400 ∨ response.status = 401) :
    response.refuses = true := by
  rcases h with h | h <;> simp [Response.refuses,h]

/-- An answer without an access token refuses the leg. -/
theorem refuses_of_access {response : Response} {document : List (String × Json)}
    (hs : response.status = 200) (hb : response.body = some (.obj document))
    (ha : ∀ access, Json.get document "access_token" = .str access → access = "") :
    response.refuses = true := by
  simp only [Response.refuses,hs,hb]
  split
  · rename_i access haccess
    simpa using ha access haccess
  · rfl

theorem mintSession_triple {lease : GrantLease} {deadline : Option Time}
    (hlease : ∀ a db, o = some (a,db) → Opens broker lease lease.refreshToken db) :
    (contract ρ broker t).Triple (Clean t o) (mintSession lease deadline)
      (Contract.Ends (fun _ => Clean t o) fun _ => Begun t o) := by
  refine Contract.Triple.ofExcept_bind (framed_clean o).stable (fun _ _ => ?_) fun _ _ _ h => h.2
  refine Contract.Triple.bind (callVault_triple (framed_clean o)
    (fun r => (framed_clean o).and (framed_refused _ _)) (fun _ h => h.2) (fun _ _ h => h.1.2)
    (postToken_triple lease)) (fun response => ?_) fun _ _ h => h
  have hreject (h : response.refuses = true) := (reject_triple (ρ:=ρ) (t:=t) (α:=String × Option Bytes)
    (Q:=fun _ => Clean t o) hlease).conseq
      (fun s (hs : Clean t o s ∧ (response.refuses = true → lease.refreshToken ∈ s.record.refused)) =>
        ⟨hs.1,fun _ => hs.2 h⟩) fun _ _ h => h
  split
  · rename_i hstatus
    exact hreject (refuses_of_status hstatus)
  split
  · exact fail_triple _ fun _ h => h.1.2
  rename_i hstatus
  have hok : response.status = 200 := by simpa using hstatus
  split
  · rename_i document hbody
    split
    · rename_i access haccess
      split
      · rename_i hempty
        refine hreject (refuses_of_access hok hbody fun access' haccess' => ?_)
        rw [haccess] at haccess'
        cases haccess'
        exact hempty
      · refine Contract.Triple.ofExcept_bind ((framed_clean o).and (framed_refused _ _)).stable
          (fun rotated _ => ?_) fun _ _ _ h => h.1.2
        exact Contract.Triple.ret (fun _ h => h.1) (framed_clean o).stable
    · rename_i haccess
      exact hreject (refuses_of_access hok hbody fun access' haccess' => absurd haccess' (haccess access'))
  · exact fail_triple _ fun _ h => h.1.2

theorem sync_triple {lease : GrantLease} {access : String} {deadline : Option Time}
    (hlease : ∀ a db, o = some (a,db) → Opens broker lease lease.refreshToken db) :
    (contract ρ broker t).Triple (Clean t o) (sync access lease deadline)
      (Contract.Ends (fun _ => Clean t o) fun _ => Begun t o) := by
  refine Contract.Triple.bind (recheck_triple lease (framed_clean o)) (fun _ => ?_) fun _ _ h => h.2
  refine Contract.Triple.bind (callVault_triple (framed_clean o)
    (fun r => (framed_clean o).and (framed_refused _ _)) (fun _ h => h.2) (fun _ _ h => h.1.2)
    (getSync_triple lease access)) (fun response => ?_) fun _ _ h => h
  split
  · rename_i hstatus
    exact (reject_triple hlease).conseq (fun s hs => ⟨hs.1,fun _ => hs.2 hstatus⟩) fun _ _ h => h
  split
  · exact fail_triple _ fun _ h => h.1.2
  split
  · exact Contract.Triple.ret (fun _ h => h.1) (framed_clean o).stable
  · exact fail_triple _ fun _ h => h.1.2

theorem change_inside {s s' : State} {x : Choice ρ} {request : Request} {r : Except CustodyError Unit}
    (h : Inside t o s) (hx : s.change broker t x request = some (r,s')) : Inside t o s' := by
  rcases State.change_cases hx with ⟨hw,-,rfl⟩ | ⟨work,hw,-,rfl⟩ | ⟨-,-,rfl⟩
  · cases o with
    | none => exact h
    | some o =>
      obtain ⟨-,work,hwork⟩ := h
      rw [hw] at hwork
      cases hwork
  · cases o with
    | none => exact absurd hw (h work)
    | some o => exact ⟨h.1,_,rfl⟩
  · exact (framed_inside o).same s _ h (.hinder t s)

theorem storeRotated_triple {lease : GrantLease} (rotated : Option Bytes) :
    (contract ρ broker t).Triple (Clean t o) (storeRotated lease rotated) (fun _ => Locked t o) := by
  have keep : (contract ρ broker t).Triple (Clean t o) (pure () : Call ρ Unit) (fun _ => Locked t o) :=
    Contract.Triple.ret (fun _ h => ⟨h.1.inside,h.2⟩) (framed_locked o).stable
  cases rotated with
  | none => exact keep
  | some token =>
    by_cases hne : token ≠ lease.refreshToken
    · rw [storeRotated,if_pos hne]
      refine perform_triple (framed_clean o) (fun _ _ => trivial) (fun s x r s' _ hs hx => ?_)
        fun _ => (framed_locked o).stable
      obtain ⟨hresolved,hbegan,-⟩ := exec_noted hx nofun nofun
      refine ⟨change_inside hs.1.inside hx,?_⟩
      cases o with
      | none => exact hresolved.trans hs.2
      | some o => exact ⟨hbegan.trans hs.2.1,fun b h => hs.2.2 b (hresolved.symm.trans h)⟩
    · rw [storeRotated,if_neg hne]
      exact keep

variable {decryptItem : List (String × Json) → String → Bytes → Except CustodyError CredentialMaterial}

theorem leaseMaterial_triple {lease : GrantLease} {deadline : Option Time}
    (hlease : ∀ a db, o = some (a,db) → Opens broker lease lease.refreshToken db) :
    (contract ρ broker t).Triple (Clean t o) (leaseMaterial decryptItem lease deadline)
      (Contract.Ends (fun _ => Locked t o) fun _ => Begun t o) := by
  have hclean := @recheck_triple ρ broker t _ lease (framed_clean o)
  have hlocked := @recheck_triple ρ broker t _ lease (framed_locked o)
  refine Contract.Triple.bind hclean (fun _ => ?_) fun _ _ h => h.2
  refine Contract.Triple.bind (mintSession_triple hlease) (fun session => ?_) fun _ _ h => h
  refine Contract.Triple.bind hclean (fun _ => ?_) fun _ _ h => h.2
  refine Contract.Triple.bind (sync_triple hlease) (fun document => ?_) fun _ _ h => h
  refine Contract.Triple.bind hclean (fun _ => ?_) fun _ _ h => h.2
  refine Contract.Triple.bind (storeRotated_triple session.2) (fun _ => ?_) fun _ _ h => h.2
  refine Contract.Triple.bind hlocked (fun _ => ?_) fun _ _ h => h.2
  refine Contract.Triple.ofExcept_bind (framed_locked o).stable (fun material _ => ?_) fun _ _ _ h => h.2
  refine Contract.Triple.bind hlocked (fun _ => ?_) fun _ _ h => h.2
  exact Contract.Triple.ret (fun _ h => h) (framed_locked o).stable

end Walk

section Verdicts

variable {ρ : Type} {broker : Broker} {t : ℕ} {P : State → Prop} {α : Type}

/-- The transaction of the call began on tables that grant what the call had captured. -/
def Granted (t : ℕ) (s : State) (a : GrantAuthorization) : Prop :=
  ∃ db, s.record.began t = some db ∧ Authorised a db

/-- A call that captured an authorization fails because it has changed, or has been hindered,
unless its transaction began on tables that still granted it. -/
def Refused (t : ℕ) (e : CustodyError) (s : State) : Prop :=
  ∀ a, s.record.resolved t = some a → Granted t s a ∨ e = .grantRevoked ∨
    e = .authorizationChanged ∨ s.record.hindered t = true

def Verdict (t : ℕ) : Except CustodyError α → State → Prop
  | .ok _, s => ∀ a, s.record.resolved t = some a → Granted t s a
  | .error e, s => Refused t e s

theorem granted_congr {s s' : State} {a : GrantAuthorization}
    (h : s'.record.began t = s.record.began t) (hg : Granted t s a) : Granted t s' a := by
  obtain ⟨db,hdb,ha⟩ := hg
  exact ⟨db,h.trans hdb,ha⟩

theorem Refused.noted {s s' : State} {e : CustodyError} (h : Refused t e s)
    (hr : s'.record.resolved t = s.record.resolved t) (hb : s'.record.began t = s.record.began t)
    (hh : s.record.hindered t = true → s'.record.hindered t = true) : Refused t e s' := by
  intro a ha
  rcases h a (hr.symm.trans ha) with hg | he | he | he
  · exact .inl (granted_congr hb hg)
  · exact .inr (.inl he)
  · exact .inr (.inr (.inl he))
  · exact .inr (.inr (.inr (hh he)))

theorem framed_refusal (e : CustodyError) : Framed t (Refused t e) :=
  ⟨fun _ _ h hr => h.noted hr.resolved hr.began fun hh => hr.hindered.trans hh,
    fun _ _ h hr => h.noted hr.resolved hr.began hr.hindered⟩

theorem framed_verdict (r : Except CustodyError α) : Framed t (Verdict t r) := by
  cases r with
  | ok x => exact ⟨fun _ _ h hr a ha => granted_congr hr.began (h a (hr.resolved.symm.trans ha)),
      fun _ _ h hr a ha => granted_congr hr.began (h a (hr.resolved.symm.trans ha))⟩
  | error e => exact framed_refusal e

theorem refused_of_hindered {s : State} (h : s.record.hindered t = true) (e : CustodyError) :
    Refused t e s := fun _ _ => .inr (.inr (.inr h))

/-- Inside the transaction, tables that grant the authorization excuse every failure. -/
theorem Begun.granted {a : GrantAuthorization} {db : Database} {s : State}
    (h : Begun t (some (a,db)) s) (ha : Authorised a db) :
    ∀ b, s.record.resolved t = some b → Granted t s b := by
  intro b hb
  obtain ⟨rfl,-⟩ := h.2 b hb
  exact ⟨db,h.1,ha⟩

theorem Begun.refused {a : GrantAuthorization} {db : Database} {s : State}
    (h : Begun t (some (a,db)) s) (ha : Authorised a db) (e : CustodyError) : Refused t e s :=
  fun b hb => .inl (h.granted ha b hb)

/-- What the body of a gated call ends in. -/
def BodyEnds (t : ℕ) (a : GrantAuthorization) (db : Database) : Except CustodyError α → State → Prop
  | .ok _, s => Locked t (some (a,db)) s ∧ Authorised a db
  | .error e, s => Refused t e s

theorem stable_bodyEnds (a : GrantAuthorization) (db : Database) (r : Except CustodyError α) :
    (contract ρ broker t).Stable (BodyEnds t a db r) := by
  cases r with
  | ok x => exact ((framed_locked _).and (framed_const _)).stable
  | error e => exact (framed_refusal e).stable

variable {decryptItem : List (String × Json) → String → Bytes → Except CustodyError CredentialMaterial}
  {a : GrantAuthorization} {db : Database}

/-- The operation runs inside the transaction, for an authorization that the tables grant. -/
theorem performs_operation {s : State} (h : Locked t (some (a,db)) s) (ha : Authorised a db) :
    Authorised a s.committed ∧ Holds t s ∧ s.record.began t = some s.committed ∧
      ∀ b, s.record.resolved t = some b → b = a := by
  obtain ⟨⟨hc,hw⟩,hb,hr⟩ := h
  rw [hc]
  exact ⟨ha,hw,hb,fun b h => (hr b h).1⟩

theorem authorizedBody_triple {lease : GrantLease} {expected : GrantId} {deadline : Option Time}
    (hco : db.checkout broker a.usernameRef = .ok lease) :
    (contract ρ broker t).Triple (Clean t (some (a,db)))
      (authorizedBody decryptItem a expected deadline lease) (BodyEnds t a db) := by
  refine Contract.Triple.bind (checkDeadline_triple deadline (framed_clean _)) (fun _ => ?_)
    fun e _ h => refused_of_hindered h.2 e
  split
  · exact raise_triple _ (fun _ _ _ _ => .inr (.inl rfl)) (framed_refusal _).stable
  split
  · exact raise_triple _ (fun _ _ _ _ => .inr (.inr (.inl rfl))) (framed_refusal _).stable
  rename_i hsame
  have ha : Authorised a db := by
    simp only [not_or,not_not] at hsame
    exact authorised_of_checkout hco hsame.1 hsame.2
  have hlocked := framed_locked (t:=t) (some (a,db))
  refine Contract.Triple.bind (leaseMaterial_triple fun a' db' ho => ?_) (fun material => ?_)
    fun e _ h => h.refused ha e
  · cases ho
    exact opens_of_checkout hco
  refine Contract.Triple.bind (read_triple rfl hlocked fun s hs => performs_operation hs ha)
    (fun _ => ?_) fun e _ h => h.2.refused ha e
  refine Contract.Triple.bind (read_triple rfl hlocked fun s hs => performs_operation hs ha)
    (fun result => ?_) fun e _ h => h.2.refused ha e
  refine Contract.Triple.bind (recheck_triple lease hlocked) (fun _ => ?_)
    fun e _ h => h.2.refused ha e
  exact Contract.Triple.ret (fun _ h => ⟨h,ha⟩) (stable_bodyEnds a db (.ok result))

/-- The call has not begun a transaction; an authorization that it captured is the one it uses,
and pins the rows of its grant. -/
def Ready (t : ℕ) (a : GrantAuthorization) (s : State) : Prop :=
  s.record.began t = none ∧ ∀ b, s.record.resolved t = some b → b = a ∧
    ∃ d ∈ s.drawn, parseGrantRef a.usernameRef = .ok d.toGrantId ∧ Pinned a d.toGrantId s.committed

theorem framed_ready (a : GrantAuthorization) : Framed t (Ready t a) := by
  constructor
  · rintro s s' ⟨hb,hr⟩ h
    refine ⟨h.began.trans hb,fun b hb' => ?_⟩
    obtain ⟨rfl,d,hd,hid,hp⟩ := hr b (h.resolved.symm.trans hb')
    exact ⟨rfl,d,h.drawn hd,hid,hp.evolves hd h.evolves⟩
  · rintro s s' ⟨hb,hr⟩ h
    refine ⟨h.began.trans hb,fun b hb' => ?_⟩
    rw [h.drawn,h.committed]
    exact hr b (h.resolved.symm.trans hb')

/-- Until the transaction begins, only a hindrance or a missing grant ends the call. -/
theorem beginImmediate_triple (a : GrantAuthorization) :
    (contract ρ broker t).Triple (Ready t a) (perform .beginImmediate)
      (Contract.Ends (fun _ s => ∃ db, Clean t (some (a,db)) s)
        fun _ s => s.record.hindered t = true) := by
  refine perform_triple (framed_ready a) (fun _ _ => trivial) (fun s x r s' _ hs hx => ?_)
    (Contract.stable_ends (fun _ => ?_) fun _ => framed_hindered.stable)
  · simp only [exec] at hx
    split at hx
    · split at hx
      · cases hx
        refine ⟨s.committed,⟨rfl,rfl⟩,by simp,fun b hb => ?_⟩
        obtain ⟨hba,d,-,hid,hp⟩ := hs.2 b hb
        exact ⟨hba,d.toGrantId,hid,hp⟩
      · cases hx
    · cases hx
      exact hinder_hindered t s
  · rintro s s' ⟨db,h⟩ hr
    exact ⟨db,(framed_clean _).rely s s' h hr⟩

/-- A checkout inside the transaction answers from the tables that the transaction began on. -/
theorem checkout_triple (a : GrantAuthorization) (db : Database) :
    (contract ρ broker t).Triple (Clean t (some (a,db))) (perform (.checkout a.usernameRef))
      (Contract.Ends (fun lease s => Clean t (some (a,db)) s ∧
        db.checkout broker a.usernameRef = .ok lease) (Refused t)) := by
  refine perform_triple (framed_clean _) (fun _ _ => trivial) (fun s x r s' _ hs hx => ?_)
    (Contract.stable_ends (fun _ => ((framed_clean _).and (framed_const _)).stable)
      fun e => (framed_refusal e).stable)
  · obtain ⟨hsame,hr⟩ := select_spec (Option.some.inj hx)
    have hclean := (framed_clean _).same s s' hs hsame
    rw [show s.committed = db from hs.1.1] at hr
    cases r with
    | ok lease =>
      rcases hr with hr | ⟨e,he,-⟩
      · exact ⟨hclean,hr.symm⟩
      · cases he
    | error e =>
      rcases hr with hr | ⟨e',-,hh⟩
      · intro b hb
        obtain ⟨rfl,id,hid,hp⟩ := hclean.2.2 b hb
        by_cases ha : Authorised b db
        · exact .inl (hclean.2.granted ha b hb)
        · rw [checkout_pinned hid hp ha] at hr
          cases hr
          exact .inr (.inl rfl)
      · exact refused_of_hindered hh e

theorem rollback_triple (e : CustodyError) :
    (contract ρ broker t).Triple (Refused t e) (perform .rollback)
      (Contract.Ends (fun _ => Refused t e) fun _ _ => False) := by
  refine perform_triple (framed_refusal e) (fun _ _ => trivial) (fun s x r s' _ hs hx => ?_)
    (Contract.stable_ends (fun _ => (framed_refusal e).stable) fun _ => (framed_const False).stable)
  obtain ⟨hresolved,hbegan,hhindered⟩ := exec_noted hx nofun nofun
  have hrefused := hs.noted hresolved hbegan hhindered
  simp only [exec] at hx
  repeat' split at hx
  all_goals cases hx
  all_goals exact hrefused

theorem gated_triple {body : GrantLease → Call ρ α} (a : GrantAuthorization)
    (hbody : ∀ db lease, db.checkout broker a.usernameRef = .ok lease →
      (contract ρ broker t).Triple (Clean t (some (a,db))) (body lease) (BodyEnds t a db)) :
    (contract ρ broker t).Triple (Ready t a) (gated a.usernameRef body) (Verdict t) := by
  refine Contract.Triple.tryCatch (Q:=Verdict t) ?_ (fun _ _ h => h) fun e => ?_
  · refine Contract.Triple.bind (beginImmediate_triple a) (fun _ => ?_)
      fun e _ h => refused_of_hindered h e
    rintro s ⟨db,hclean⟩
    refine (Contract.Triple.bind (checkout_triple a db) (fun lease => ?_) (fun _ _ h => h) :
      (contract ρ broker t).Triple _ _ (Verdict t)) s hclean
    rintro s ⟨hclean,hco⟩
    refine (Contract.Triple.bind (hbody db lease hco) (fun result => ?_) (fun _ _ h => h) :
      (contract ρ broker t).Triple _ _ (Verdict t)) s hclean
    rintro s ⟨hlocked,ha⟩
    refine (Contract.Triple.bind (begun_triple (a:=.commit) nofun nofun (framed_locked _)
      (fun _ h => h.2) fun _ _ => trivial) (fun _ => ?_) (fun e _ h => h.refused ha e) :
      (contract ρ broker t).Triple _ _ (Verdict t)) s hlocked
    exact Contract.Triple.ret (fun _ h => h.granted ha) (framed_verdict _).stable
  · refine Contract.Triple.bind (rollback_triple e) (fun _ => ?_) fun _ _ h => h.elim
    exact raise_triple e (fun _ h => h) (framed_refusal e).stable

/-- Every malformed reference is answered like a revoked grant. -/
theorem refused_of_parse {ref : String} {e : CustodyError} {s : State}
    (h : parseGrantRef ref = .error e) : Refused t e s := by
  have he : e = .grantRevoked := by
    unfold parseGrantRef at h
    dsimp only at h
    repeat' split at h
    all_goals cases h
    all_goals rfl
  exact fun _ _ => .inr (.inl he)

/-- An unreachable database was noted, so its report may replace the exception. -/
theorem asCustody_triple (deadline : Option Time) (e : CustodyError) :
    (contract ρ broker t).Triple (Refused t e) (asCustody deadline e : Call ρ α) (Verdict t) := by
  have raised (e : CustodyError) (hasOther : asCustody deadline e = (throw e : Call ρ α)) :
      (contract ρ broker t).Triple (Refused t e) (asCustody deadline e : Call ρ α) (Verdict t) := by
    rw [hasOther]
    exact raise_triple e (fun _ h => h) (framed_refusal e).stable
  cases e with
  | sqliteOperational =>
    -- neither of the two changes is what happened
    have excused (s : State) (h : Refused t .sqliteOperational s) (e : CustodyError) : Refused t e s := by
      intro a ha
      rcases h a ha with hg | he | he | he
      · exact .inl hg
      · cases he
      · cases he
      · exact .inr (.inr (.inr he))
    refine Contract.Triple.bind (checkDeadline_triple deadline (framed_refusal _)) (fun _ => ?_)
      fun e s h => excused s h.1 e
    exact raise_triple _ (fun s h => excused s h _) (framed_refusal _).stable
  | _ => exact raised _ rfl

/-- The capture of an authorization pins the rows of its grant: ids are never drawn twice. -/
theorem resolve_pinned {s : State} (hwf : WellFormed s) {scope : GrantScope}
    (h : resolve s.committed scope = .ok a) :
    ∃ d ∈ s.drawn, parseGrantRef a.usernameRef = .ok d.toGrantId ∧
      Pinned a d.toGrantId s.committed := by
  unfold resolve at h
  split at h
  · cases h
  rename_i row hrow
  obtain ⟨hmem,hscope⟩ := Database.ofScope_eq_some.mp hrow
  split at h
  · cases h
  split at h
  · cases h
  obtain ⟨d,hd,hid⟩ := hwf.drawn row hmem
  have ha : a.usernameRef = grantRef row.grantId ∧ a.scope = scope ∧ a.epoch = row.epoch := by
    unfold GrantAuthorization.build at h
    repeat' split at h
    all_goals cases h
    exact ⟨rfl,rfl,rfl⟩
  refine ⟨d,hd,?_,fun row' hrow' hid' => ?_⟩
  · rw [ha.1,hid]
    exact parseGrantRef_grantRef d.toGrantId (by rw [d.length_eq]; decide)
  · have hsame : row' = row := hwf.sound.ids row' hrow' row hmem (hid'.trans hid.symm)
    rw [hsame,ha.2.1,ha.2.2]
    exact ⟨hscope,fun _ => rfl⟩

/-- What is noted of a call before it has done anything. -/
def Unused (t : ℕ) (s : State) : Prop :=
  s.record.began t = none ∧ s.record.resolved t = none ∧ ∀ work, s.writer ≠ some (t,work)

theorem framed_unused : Framed t (Unused t) :=
  ⟨fun _ _ h hr => ⟨hr.began.trans h.1,hr.resolved.trans h.2.1,hr.free h.2.2⟩,
    fun _ _ h hr => ⟨hr.began.trans h.1,hr.resolved.trans h.2.1,
      fun work => by rw [hr.writer]; exact h.2.2 work⟩⟩

/-- A capture that fails is not noted. -/
theorem resolve_triple (scope : GrantScope) :
    (contract ρ broker t).Triple (Unused t) (perform (.selectAuthorization scope))
      (Contract.Ends (Ready t) fun _ s => s.record.resolved t = none) := by
  refine perform_triple framed_unused (fun _ _ => trivial) (fun s x r s' hwf hs hx => ?_)
    (Contract.stable_ends (fun a => (framed_ready a).stable) fun _ s s' h hr => hr.resolved.trans h)
  obtain ⟨hb,hr,-⟩ := hs
  simp only [exec,State.select] at hx
  split at hx
  · rename_i e s₁ hs₁
    cases hx
    split at hs₁
    · obtain ⟨-,rfl⟩ := Prod.mk.inj hs₁
      exact hr
    · obtain ⟨-,rfl⟩ := Prod.mk.inj hs₁
      exact hr
  · rename_i a s₁ hs₁
    cases hx
    split at hs₁
    · obtain ⟨ha,rfl⟩ := Prod.mk.inj hs₁
      refine ⟨hb,fun b hbb => ?_⟩
      have hba : b = a := by simpa using hbb.symm
      have hpinned := resolve_pinned hwf ha
      exact ⟨hba,hpinned⟩
    · cases hs₁

theorem selectScope_triple (a : GrantAuthorization) (grantId : GrantId) :
    (contract ρ broker t).Triple (Ready t a) (perform (.selectScope grantId))
      (Contract.Ends (fun _ => Ready t a) (Refused t)) := by
  refine perform_triple (framed_ready a) (fun _ _ => trivial) (fun s x r s' _ hs hx => ?_)
    (Contract.stable_ends (fun _ => (framed_ready a).stable) fun e => (framed_refusal e).stable)
  · obtain ⟨hsame,hr⟩ := select_spec (Option.some.inj hx)
    cases r with
    | ok _ => exact (framed_ready a).same s s' hs hsame
    | error e =>
      rcases hr with hr | ⟨e',-,hh⟩
      · split at hr
        · cases hr
        · cases hr
          exact fun _ _ => .inr (.inl rfl)
      · exact refused_of_hindered hh e

theorem authorizedOperation_triple {body : GrantLease → Call ρ α} (a : GrantAuthorization)
    (deadline : Option Time)
    (hbody : ∀ db lease, db.checkout broker a.usernameRef = .ok lease →
      (contract ρ broker t).Triple (Clean t (some (a,db))) (body lease) (BodyEnds t a db)) :
    (contract ρ broker t).Triple (Ready t a) (authorizedOperation a.usernameRef deadline body)
      (Verdict t) := by
  have hready := framed_ready (t:=t) a
  have hdeadline := @checkDeadline_triple ρ broker t _ deadline hready
  have late (e : CustodyError) (s : State) (h : Ready t a s ∧ s.record.hindered t = true) :
      Verdict t (.error e : Except CustodyError α) s := refused_of_hindered h.2 e
  refine Contract.Triple.ofExcept_bind hready.stable (fun grantId _ => ?_)
    fun e s hparse _ => refused_of_parse hparse
  refine Contract.Triple.bind (selectScope_triple a grantId) (fun _ => ?_) fun _ _ h => h
  refine Contract.Triple.bind hdeadline (fun _ => ?_) late
  refine Contract.Triple.bind hdeadline (fun _ => ?_) late
  refine Contract.Triple.tryCatch (Q:=Verdict t) ?_ (fun _ _ h => h)
    fun e => asCustody_triple deadline e
  refine Contract.Triple.bind hdeadline (fun _ => ?_) late
  refine Contract.Triple.bind hdeadline (fun _ => ?_) late
  refine Contract.Triple.bind hdeadline (fun _ => ?_) late
  exact gated_triple a hbody

theorem runAuthorized_triple (a : GrantAuthorization) (deadline : Option Time) :
    (contract ρ broker t).Triple (Ready t a) (runAuthorized decryptItem a deadline) (Verdict t) := by
  refine Contract.Triple.ofExcept_bind (framed_ready a).stable (fun expected _ => ?_)
    fun e s hparse _ => refused_of_parse hparse
  exact authorizedOperation_triple a deadline fun db lease hco => authorizedBody_triple hco

theorem login_triple (scope : GrantScope) (deadline : Option Time) :
    (contract ρ broker t).Triple (Unused t) (login decryptItem scope deadline) (Verdict t) := by
  refine Contract.Triple.bind (resolve_triple scope) (fun a => runAuthorized_triple a deadline)
    fun e s h a ha => ?_
  rw [h] at ha
  cases ha

theorem fetch_triple (ref : String) (deadline : Option Time) :
    (contract ρ broker t).Triple (Unused t) (fetch decryptItem ref deadline) (Verdict t) := by
  have hclean := framed_clean (t:=t) none
  have uncaptured (r : Except CustodyError CredentialMaterial) (s : State) (h : Begun t none s) :
      Verdict t r s := by
    have hnone (a : GrantAuthorization) : ¬s.record.resolved t = some a := by
      rw [show s.record.resolved t = none from h]
      simp
    cases r with
    | ok m => exact fun a ha => absurd ha (hnone a)
    | error e => exact fun a ha => absurd ha (hnone a)
  have hfetch : (contract ρ broker t).Triple (Clean t none) (fetch decryptItem ref deadline)
      (Verdict t) := by
    refine Contract.Triple.bind (read_triple rfl hclean fun _ _ => trivial) (fun lease => ?_)
      fun e s h => uncaptured _ s h.2
    refine Contract.Triple.bind (checkDeadline_triple deadline hclean) (fun _ => ?_)
      fun e s h => uncaptured _ s h.1.2
    refine (leaseMaterial_triple (o:=none) ?_).conseq (fun _ h => h) fun r s h => ?_
    · rintro a db ⟨⟩
    cases r with
    | ok m => exact uncaptured _ s h.2
    | error e => exact uncaptured _ s h
  exact hfetch.conseq (fun s h => ⟨h.2.2,h.2.1⟩) fun _ _ h => h

theorem task_triple (task : Task) :
    (contract ρ broker t).Triple (Unused t) (task.call decryptItem) (Verdict t) := by
  have returned {β : Type} {p : Call ρ β} {f : β → Returned ρ} {P : State → Prop}
      (h : (contract ρ broker t).Triple P p (Verdict t)) :
      (contract ρ broker t).Triple P (do let x ← p; return f x) (Verdict t) :=
    Contract.Triple.bind h (fun x => Contract.Triple.ret (fun _ h => h) (framed_verdict _).stable)
      fun _ _ h => h
  cases task with
  | fetch ref deadline => exact returned (fetch_triple ref deadline)
  | runAuthorized a deadline =>
    refine returned ((runAuthorized_triple a deadline).conseq (fun s h => ⟨h.1,?_⟩) fun _ _ h => h)
    intro b hb
    rw [h.2.1] at hb
    cases hb
  | login scope deadline => exact returned (login_triple scope deadline)

end Verdicts

section Runs

variable {ρ : Type} (broker : Broker)
  {decryptItem : List (String × Json) → String → Bytes → Except CustodyError CredentialMaterial}

theorem compatible : Compatible (α:=Returned ρ) (machine broker) (contract ρ broker)
    fun c _ => WellFormed c.shared where
  own _ _ x _ _ _ _ _ he hQ := ⟨hQ,x,he⟩
  others _ _ _ _ hne hg := rely_change hne hg.1 hg.2
  environment _ _ _ hs hQ _ := (environment_spec hQ hs).2

/-- Every call keeps its contract. -/
abbrev Contracted (c : World ρ) : Prop := AllSafe (contract ρ broker) Verdict c

theorem contracted_boot (tasks : ℕ → Task) :
    Contracted broker (World.boot (ρ:=ρ) decryptItem tasks) :=
  fun t => task_triple (tasks t) _ ⟨rfl,rfl,nofun⟩

/-- Every call keeps its contract, and the tables stay well formed, in every state of a run. -/
theorem contracted_throughout (tasks : ℕ → Task) (es : List (Interleave.Event (Choice ρ) Move)) :
    (machine broker).Throughout (fun c => Contracted broker c ∧ WellFormed c.shared)
      (World.boot decryptItem tasks) es := by
  refine Machine.throughout_of_step (Q:=fun _ _ => True) (fun c d e h _ hn => ?_)
    ⟨contracted_boot broker tasks,wellFormed_boot decryptItem tasks⟩ Machine.eachStep_true
  exact ⟨allSafe_next (compatible broker) c d e h.1 h.2 hn,wellFormed_next c d e h.2 hn⟩

/-- The call is about to start its operation for the authorization, or in the middle of it. -/
def Operates (c : World ρ) (t : ℕ) (a : GrantAuthorization) : Prop :=
  (∃ material k, c.calls t = .act (.startOperation a material) k) ∨
    ∃ k, c.calls t = .act (.endOperation a) k

/-- The gate that an operation runs behind: it is authorised by the committed tables, nothing
is committed until it is over, and where its authorization had changed before the transaction
began, or a transaction never began, there is no operation and the call fails. -/
structure Gated (c : World ρ) : Prop where
  authorised : ∀ t a, Operates c t a → Authorised a c.shared.committed
  undisturbed : ∀ t a e d, Operates c t a → (machine broker).next c e = some d →
    d.shared.committed = c.shared.committed
  changed : ∀ t a, c.shared.record.resolved t = some a →
    (∀ db, c.shared.record.began t = some db → ¬Authorised a db) →
    (∀ b, ¬Operates c t b) ∧ ((c.calls t).finished = true → ∃ e, c.calls t = .raise e ∧
      (e = .grantRevoked ∨ e = .authorizationChanged ∨ c.shared.record.hindered t = true))

variable {broker} {c : World ρ} {t : ℕ} {a : GrantAuthorization}

theorem operates_spec (h : Contracted broker c) (ho : Operates c t a) :
    Authorised a c.shared.committed ∧ Holds t c.shared ∧
      c.shared.record.began t = some c.shared.committed ∧
      ∀ b, c.shared.record.resolved t = some b → b = a := by
  rcases ho with ⟨material,k,hk⟩ | ⟨k,hk⟩
  · exact h.performs hk
  · exact h.performs hk

theorem operates_next {d : World ρ} {e : Interleave.Event (Choice ρ) Move}
    (h : Contracted broker c) (hwf : WellFormed c.shared) (ho : Operates c t a)
    (hn : (machine broker).next c e = some d) : d.shared.committed = c.shared.committed := by
  obtain ⟨-,⟨work,hw⟩,-,-⟩ := operates_spec h ho
  cases e with
  | call u x =>
    obtain ⟨b,k,r,s,hk,he,rfl⟩ := Machine.next_call hn
    by_cases hu : u = t
    · subst hu
      have hreads : b.reads = true := by
        rcases ho with ⟨material,k',hk'⟩ | ⟨k',hk'⟩
        · rw [hk'] at hk
          cases hk
          rfl
        · rw [hk'] at hk
          cases hk
          rfl
      exact (exec_reads hreads he).committed
    · exact ((rely_change hu hwf (exec_change he)).held work hw).2
  | environment v =>
    obtain ⟨s,hs,rfl⟩ := Machine.next_environment hn
    exact ((environment_spec hwf hs).2.held work hw).2

theorem Contracted.gated (h : Contracted broker c) (hwf : WellFormed c.shared) : Gated broker c where
  authorised t a ho := (operates_spec h ho).1
  undisturbed t a e d ho hn := operates_next h hwf ho hn
  changed t a ha hdb := by
    have hnot : ¬Granted t c.shared a := fun ⟨db,hb,hauth⟩ => hdb db hb hauth
    constructor
    · intro b ho
      obtain ⟨hauth,-,hbegan,hsame⟩ := operates_spec h ho
      rw [← hsame a ha] at hauth
      exact hdb _ hbegan hauth
    · intro hf
      cases hc : c.calls t with
      | act b k =>
        rw [hc] at hf
        cases hf
      | ret x =>
        have hv : Verdict t (.ok x) c.shared := h.returned hc
        exact absurd (hv a ha) hnot
      | raise e =>
        have hv : Refused t e c.shared := h.raised hc
        exact ⟨e,rfl,(hv a ha).resolve_left hnot⟩

/-- However calls, administrators and the vault interleave, every operation runs behind the
gate of its authorization. -/
theorem gated_throughout (broker : Broker) (tasks : ℕ → Task)
    (es : List (Interleave.Event (Choice ρ) Move)) :
    (machine broker).Throughout (Gated broker) (World.boot decryptItem tasks) es :=
  (contracted_throughout broker tasks es).mono fun _ h => Contracted.gated h.1 h.2

end Runs
end CredentialFetcher
end CloudBrowser
