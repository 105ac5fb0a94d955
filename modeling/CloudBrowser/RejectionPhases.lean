import CloudBrowser.AuthorizationGate

/-! The phases of a call of the fetcher around the vault's rejection: up to it the call has
written nothing, and after it there is one way on, whichever handlers the exception crosses. -/
namespace CloudBrowser
namespace CredentialFetcher

open Interleave GrantCustody VaultItems

section Phases

/-- What a call has done so far: nothing, a checkout, a write of its own; or, once the vault
has rejected its lease, a last look at the deadline, the invalidation, its commit, and the
rollback of the enclosing handler. -/
inductive Phase
  | idle
  | leased (lease : GrantLease)
  | spent
  | rejected (lease : GrantLease)
  | due (lease : GrantLease)
  | staged (lease : GrantLease)
  | stored
  | undone
  deriving DecidableEq

/-- Only a call that holds a lease asks the vault, with that lease; and a rejected one has
nothing left to do but to invalidate it. -/
def Phase.allows : Phase → Action → Prop
  | .leased lease, .postToken other => other = lease
  | .leased lease, .getSync other _ => other = lease
  | _, .postToken _ => False
  | _, .getSync _ _ => False
  | .rejected _, .deadline _ => True
  | .rejected lease, .invalidate other => other = lease
  | .due lease, .invalidate other => other = lease
  | .staged _, .commit => True
  | .stored, .rollback => True
  | .idle, .rotate _ _ => False
  | .idle, .invalidate _ => False
  | .leased _, .invalidate _ => False
  | .idle, _ => True
  | .leased _, _ => True
  | .spent, _ => True
  | _, _ => False

variable {ρ : Type}

def Phase.next : Phase → (a : Action) → Except CustodyError (Answer ρ a) → Phase
  | .idle, .checkout _, .ok lease => .leased lease
  | .leased lease, .postToken _, .ok response => if response.refuses then .rejected lease else .leased lease
  | .leased lease, .getSync _ _, .ok response => if response.status = 401 then .rejected lease else .leased lease
  | .leased _, .rotate _ _, _ => .spent
  | .rejected lease, .deadline _, .ok _ => .due lease
  | .rejected lease, .invalidate _, .ok _ => .staged lease
  | .due lease, .invalidate _, .ok _ => .staged lease
  | .staged _, .commit, .ok _ => .stored
  | .stored, .rollback, .ok _ => .undone
  | .rejected _, _, _ => .spent
  | .due _, _, _ => .spent
  | .staged _, _, _ => .spent
  | .stored, _, _ => .spent
  | p, _, _ => p

/-- The vault has not rejected the call, or the call has failed to act on it. -/
def Phase.unrejected : Phase → Bool
  | .idle => true
  | .leased _ => true
  | .spent => true
  | _ => false

/-- The own steps that a rejected call has left at most. -/
def Phase.left : Phase → ℕ
  | .rejected _ => 4
  | .due _ => 3
  | .staged _ => 2
  | .stored => 1
  | _ => 0

/-- What a call may raise in a phase: a rejected one nothing but `GrantRevoked`, and not before
the invalidation is stored. -/
def Phase.raises (e : CustodyError) : Phase → Prop
  | .idle => True
  | .leased _ => True
  | .spent => True
  | .stored => e = .grantRevoked
  | _ => False

/-- The same after the handler of the transaction. -/
def Phase.ends (e : CustodyError) : Phase → Prop
  | .undone => e = .grantRevoked
  | p => p.raises e

theorem Phase.raises_of_unrejected {p : Phase} (h : p.unrejected = true) (e : CustodyError) :
    p.raises e := by
  cases p with
  | idle => trivial
  | leased lease => trivial
  | spent => trivial
  | _ => cases h

theorem Phase.ends_of_raises {p : Phase} {e : CustodyError} (h : p.raises e) : p.ends e := by
  cases p with
  | undone => cases h
  | _ => exact h

/-- What is raised for another reason is raised by a call that the vault has not rejected. -/
theorem Phase.unrejected_of_ends {p : Phase} {e : CustodyError} (h : p.ends e) (he : e ≠ .grantRevoked) :
    p.unrejected = true := by
  cases p with
  | idle => rfl
  | leased lease => rfl
  | spent => rfl
  | stored => exact absurd h he
  | undone => exact absurd h he
  | _ => cases h

end Phases

section Walk

variable {ρ α β : Type} {lease : GrantLease} {P : Phase → Prop}

/-- The phases as a contract that a call keeps by itself: the others do not touch them. -/
def phases (ρ : Type) : Contract Action (Answer ρ) CustodyError Phase where
  step a r p p' := p' = p.next a r
  pre a p := p.allows a
  rely p p' := p = p'
  guar _ _ := True
  rely_refl _ := rfl
  rely_trans _ _ _ := Eq.trans

/-- Only a call that the vault has not rejected returns. -/
abbrev Course (P : Phase → Prop) (p : Call ρ α) (Q : α → Phase → Prop) : Prop :=
  (phases ρ).Triple P p (Contract.Ends Q fun e p => p.raises e)

/-- Nor does a call raise with the vault's rejection pending. -/
abbrev Calm (P : Phase → Prop) (p : Call ρ α) (Q : α → Phase → Prop) : Prop :=
  (phases ρ).Triple P p (Contract.Ends Q fun _ p => p.unrejected = true)

theorem stable_phase (P : Phase → Prop) : (phases ρ).Stable P := by
  intro p p' h hr
  cases hr
  exact h

theorem Calm.course {p : Call ρ α} {Q : α → Phase → Prop} (h : Calm P p Q) : Course P p Q := by
  refine h.conseq (fun _ hp => hp) fun r p hr => ?_
  cases r with
  | ok x => exact hr
  | error e => exact Phase.raises_of_unrejected hr e

theorem calm_ret {x : α} {Q : α → Phase → Prop} (h : ∀ p, P p → Q x p) :
    Calm P (pure x : Call ρ α) Q :=
  Contract.Triple.ret h (stable_phase _)

theorem calm_throw {e : CustodyError} {Q : α → Phase → Prop} (h : ∀ p, P p → p.unrejected = true) :
    Calm P (throw e : Call ρ α) Q :=
  Contract.Triple.raise h (stable_phase _)

theorem calm_bind {p : Call ρ α} {f : α → Call ρ β} {Q : α → Phase → Prop} {R : β → Phase → Prop}
    (hp : Calm P p Q) (hf : ∀ x, Calm (Q x) (f x) R) : Calm P (p >>= f) R :=
  Contract.Triple.bind hp hf fun _ _ h => h

theorem course_bind {p : Call ρ α} {f : α → Call ρ β} {Q : α → Phase → Prop} {R : β → Phase → Prop}
    (hp : Course P p Q) (hf : ∀ x, Course (Q x) (f x) R) : Course P (p >>= f) R :=
  Contract.Triple.bind hp hf fun _ _ h => h

theorem course_check {r : Except CustodyError α} {f : α → Call ρ β} {Q : β → Phase → Prop}
    (h : ∀ p, P p → p.unrejected = true) (hf : ∀ x, Course P (f x) Q) :
    Course P (Program.ofExcept r >>= f) Q :=
  Contract.Triple.ofExcept_bind (stable_phase _) (fun x _ => hf x)
    fun e p _ hp => Phase.raises_of_unrejected (h p hp) e

/-- An action is allowed where the call performs it, and leads on in each of its outcomes. -/
theorem calm_act {a : Action} {Q : Answer ρ a → Phase → Prop} (ha : ∀ p, P p → p.allows a)
    (hok : ∀ p x, P p → Q x (p.next a (.ok x : Except CustodyError (Answer ρ a))))
    (he : ∀ p e, P p → (p.next a (.error e : Except CustodyError (Answer ρ a))).unrejected = true) :
    Calm P (perform a : Call ρ (Answer ρ a)) Q := by
  refine Contract.Triple.perform (stable_phase _) ha (fun p r p' hp hstep => ⟨trivial,?_⟩)
    fun _ => stable_phase _
  change p' = p.next a r at hstep
  rw [hstep]
  cases r with
  | ok x => exact hok p x hp
  | error e => exact he p e hp

/-- The actions that leave the phase of an unrejected call as it is. -/
def Action.passes : Action → Bool
  | .checkout _ => false
  | .postToken _ => false
  | .getSync _ _ => false
  | .rotate _ _ => false
  | .invalidate _ => false
  | _ => true

theorem passes_spec {a : Action} {p : Phase} (ha : a.passes = true) (hp : p.unrejected = true)
    (r : Except CustodyError (Answer ρ a)) : p.allows a ∧ p.next a r = p := by
  cases p with
  | idle => cases a <;> first | exact ⟨trivial,rfl⟩ | cases ha
  | leased lease => cases a <;> first | exact ⟨trivial,rfl⟩ | cases ha
  | spent => cases a <;> first | exact ⟨trivial,rfl⟩ | cases ha
  | _ => cases hp

theorem calm_pass {a : Action} (ha : a.passes = true) (h : ∀ p, P p → p.unrejected = true) :
    Calm P (perform a : Call ρ (Answer ρ a)) fun _ => P := by
  refine calm_act (fun p hp => ?_) (fun p x hp => ?_) fun p e hp => ?_
  · exact (@passes_spec ρ a p ha (h p hp) (.error .other)).1
  · rw [(passes_spec ha (h p hp) (.ok x)).2]
    exact hp
  · rw [(passes_spec ha (h p hp) (.error e)).2]
    exact h p hp

theorem checkDeadline_calm (deadline : Option Time) (h : ∀ p, P p → p.unrejected = true) :
    Calm P (checkDeadline deadline : Call ρ Unit) fun _ => P := by
  cases deadline with
  | none => exact calm_ret fun _ hp => hp
  | some expiresAt => exact calm_pass rfl h

/-- The vault has rejected the lease, and the deadline may have been looked at again. -/
def Rejected (lease : GrantLease) (p : Phase) : Prop := p = .rejected lease ∨ p = .due lease

/-- The call holds the lease. -/
def Holding (lease : GrantLease) (p : Phase) : Prop := p = .leased lease

/-- The call has asked the vault with the lease: it is rejected, or holds it still. -/
def Heard (lease : GrantLease) (no : Bool) (p : Phase) : Prop :=
  if no then Rejected lease p else Holding lease p

theorem holding_unrejected : ∀ p, Holding lease p → p.unrejected = true := by
  rintro p rfl
  rfl

theorem reject_course {Q : α → Phase → Prop} : Course (Rejected lease) (reject lease : Call ρ α) Q := by
  have hinvalidate : Calm (Rejected lease) (perform (.invalidate lease) : Call ρ Unit)
      fun _ p => p = .staged lease := by
    refine calm_act ?_ ?_ ?_
    · rintro p (rfl | rfl) <;> rfl
    · rintro p x (rfl | rfl) <;> rfl
    · rintro p e (rfl | rfl) <;> rfl
  have hcommit : Calm (fun p => p = .staged lease) (perform .commit : Call ρ Unit)
      fun _ p => p = .stored := by
    refine calm_act ?_ ?_ ?_
    · rintro p rfl
      trivial
    · rintro p x rfl
      rfl
    · rintro p e rfl
      rfl
  refine course_bind hinvalidate.course fun _ => course_bind hcommit.course fun _ => ?_
  refine Contract.Triple.raise ?_ (stable_phase _)
  rintro p rfl
  rfl

/-- After an answer the deadline is looked at once more. -/
theorem checkDeadline_heard (deadline : Option Time) (no : Bool) :
    Calm (fun p => p = if no then .rejected lease else .leased lease)
      (checkDeadline deadline : Call ρ Unit) fun _ => Heard lease no := by
  cases no with
  | false => exact checkDeadline_calm deadline holding_unrejected
  | true =>
    cases deadline with
    | none => exact calm_ret fun p hp => .inl hp
    | some expiresAt =>
      refine calm_act ?_ ?_ ?_
      · rintro p rfl
        trivial
      · rintro p x rfl
        exact .inr rfl
      · rintro p e rfl
        rfl

theorem callVault_calm {deadline : Option Time} {send : Call ρ Response} {no : Response → Bool}
    (hsend : Calm (Holding lease) send
      fun response p => p = if no response then .rejected lease else .leased lease) :
    Calm (Holding lease) (callVault deadline send) fun response => Heard lease (no response) := by
  refine Contract.Triple.tryCatch (Q:=Contract.Ends (fun response => Heard lease (no response))
    fun _ p => p.unrejected = true) ?_ (fun _ _ h => h) fun e => ?_
  · refine calm_bind (checkDeadline_calm deadline holding_unrejected) fun _ => ?_
    refine calm_bind hsend fun response => ?_
    refine calm_bind (checkDeadline_heard deadline (no response)) fun _ => ?_
    exact calm_ret fun _ h => h
  · unfold asDependency
    split
    · exact calm_throw fun _ h => h
    · exact calm_throw fun _ h => h

theorem postToken_calm (lease : GrantLease) : Calm (Holding lease)
    (perform (.postToken lease) : Call ρ Response)
      fun response p => p = if response.refuses then .rejected lease else .leased lease := by
  refine calm_act ?_ ?_ ?_
  · rintro p rfl
    rfl
  · rintro p response rfl
    rfl
  · rintro p e rfl
    rfl

theorem getSync_calm (lease : GrantLease) (access : String) : Calm (Holding lease)
    (perform (.getSync lease access) : Call ρ Response)
      fun response p => p = if decide (response.status = 401) then .rejected lease else .leased lease := by
  refine calm_act ?_ ?_ ?_
  · rintro p rfl
    rfl
  · rintro p response rfl
    by_cases hs : response.status = 401 <;> simp [Phase.next,hs]
  · rintro p e rfl
    rfl

/-- Where the answer rejects the lease, the call rejects the grant. -/
theorem heard_reject {no : Bool} {Q : α → Phase → Prop} (h : no = true) :
    Course (Heard lease no) (reject lease : Call ρ α) Q := by
  subst h
  exact reject_course

/-- Where it does not, the call holds the lease still. -/
theorem heard_course {no : Bool} {p : Call ρ α} {Q : α → Phase → Prop} (h : no = false)
    (hp : Course (Holding lease) p Q) : Course (Heard lease no) p Q := by
  subst h
  exact hp

theorem holding_throw {e : CustodyError} {Q : α → Phase → Prop} :
    Course (Holding lease) (throw e : Call ρ α) Q :=
  (calm_throw holding_unrejected).course

/-- What an answer needs to refuse the lease, beside its status: a body without an access
token. -/
theorem refuses_document {response : Response} (h : response.refuses = true)
    (hs : ¬(response.status = 400 ∨ response.status = 401)) :
    response.status = 200 ∧ ∃ document, response.body = some (.obj document) ∧
      ∀ access, Json.get document "access_token" = .str access → access = "" := by
  unfold Response.refuses at h
  split at h
  · rename_i hstatus
    exact absurd (.inl hstatus) hs
  · rename_i hstatus
    exact absurd (.inr hstatus) hs
  · rename_i document hstatus hbody
    refine ⟨hstatus,document,hbody,fun access haccess => ?_⟩
    rw [haccess] at h
    simpa using h
  · cases h

theorem mintSession_course (lease : GrantLease) (deadline : Option Time) :
    Course (Holding lease) (mintSession lease deadline : Call ρ _) fun _ => Holding lease := by
  refine course_check holding_unrejected fun _ => ?_
  refine course_bind (callVault_calm (postToken_calm lease)).course fun response => ?_
  split
  · rename_i hstatus
    exact heard_reject (refuses_of_status hstatus)
  rename_i hgood
  -- the lease is held still, unless an object without an access token came
  have hheld (h : ¬(response.status = 200 ∧ ∃ document, response.body = some (.obj document) ∧
      ∀ access, Json.get document "access_token" = .str access → access = "")) :
      response.refuses = false := by
    by_contra hno
    exact h (refuses_document (by simpa using hno) hgood)
  split
  · rename_i hstatus
    exact heard_course (hheld fun h => hstatus h.1) holding_throw
  rename_i hstatus
  have hok : response.status = 200 := by simpa using hstatus
  split
  · rename_i document hbody
    split
    · rename_i access haccess
      split
      · rename_i hempty
        refine heard_reject (refuses_of_access hok hbody fun other hother => ?_)
        rw [haccess] at hother
        cases hother
        exact hempty
      · rename_i hempty
        refine heard_course (hheld ?_) (course_check holding_unrejected fun rotated => ?_)
        · rintro ⟨-,document',hbody',hnone⟩
          cases hbody.symm.trans hbody'
          exact hempty (hnone access haccess)
        · exact (calm_ret fun _ h => h).course
    · rename_i haccess
      exact heard_reject (refuses_of_access hok hbody fun other hother => absurd hother (haccess other))
  · rename_i hbody
    refine heard_course (hheld ?_) holding_throw
    rintro ⟨-,document,hbody',-⟩
    exact hbody document hbody'

theorem sync_course (access : String) (lease : GrantLease) (deadline : Option Time) :
    Course (Holding lease) (sync access lease deadline : Call ρ _) fun _ => Holding lease := by
  refine course_bind (calm_pass rfl holding_unrejected).course fun _ => ?_
  refine course_bind (callVault_calm (getSync_calm lease access)).course fun response => ?_
  by_cases hstatus : response.status = 401
  · rw [if_pos hstatus]
    exact heard_reject (by simpa using hstatus)
  · rw [if_neg hstatus]
    refine heard_course (by simpa using hstatus) ?_
    split
    · exact holding_throw
    split
    · exact (calm_ret fun _ h => h).course
    · exact holding_throw

theorem storeRotated_calm (lease : GrantLease) (rotated : Option Bytes) :
    Calm (Holding lease) (storeRotated lease rotated : Call ρ Unit) fun _ p => p.unrejected = true := by
  have keep : Calm (Holding lease) (pure () : Call ρ Unit) fun _ p => p.unrejected = true :=
    calm_ret holding_unrejected
  cases rotated with
  | none => exact keep
  | some token =>
    by_cases hne : token ≠ lease.refreshToken
    · rw [storeRotated,if_pos hne]
      refine calm_act ?_ ?_ ?_
      · rintro p rfl
        trivial
      · rintro p x rfl
        rfl
      · rintro p e rfl
        rfl
    · rw [storeRotated,if_neg hne]
      exact keep

variable {decryptItem : List (String × Json) → String → Bytes → Except CustodyError CredentialMaterial}

/-- The part of a call that asks the vault, from the checkout to the decrypted item. -/
theorem leaseMaterial_course (lease : GrantLease) (deadline : Option Time) :
    Course (Holding lease) (leaseMaterial decryptItem lease deadline : Call ρ _)
      fun _ p => p.unrejected = true := by
  have hheld := (@calm_pass ρ _ (.recheck lease) rfl (@holding_unrejected lease)).course
  have hpast := (@calm_pass ρ (fun p => p.unrejected = true) (.recheck lease) rfl fun _ h => h).course
  refine course_bind hheld fun _ => ?_
  refine course_bind (mintSession_course lease deadline) fun session => ?_
  refine course_bind hheld fun _ => ?_
  refine course_bind (sync_course session.1 lease deadline) fun document => ?_
  refine course_bind hheld fun _ => ?_
  refine course_bind (storeRotated_calm lease session.2).course fun _ => ?_
  refine course_bind hpast fun _ => ?_
  refine course_check (fun _ h => h) fun material => ?_
  refine course_bind hpast fun _ => ?_
  exact Contract.Triple.ret (fun _ h => h) (stable_phase _)

theorem checkout_calm (ref : String) :
    Calm (fun p => p = .idle) (perform (.checkout ref) : Call ρ GrantLease) fun lease => Holding lease := by
  refine calm_act ?_ ?_ ?_
  · rintro p rfl
    trivial
  · rintro p lease rfl
    rfl
  · rintro p e rfl
    rfl

theorem idle_unrejected : ∀ p, p = Phase.idle → p.unrejected = true := by
  rintro p rfl
  rfl

/-- A whole call returns unrejected, or raises what its phase leaves it to raise. -/
abbrev Finish (P : Phase → Prop) (p : Call ρ α) : Prop :=
  (phases ρ).Triple P p (Contract.Ends (fun _ p => p.unrejected = true) fun e p => p.ends e)

theorem Course.finish {p : Call ρ α} (h : Course P p fun _ p => p.unrejected = true) : Finish P p := by
  refine Contract.Triple.conseq h (fun _ hp => hp) fun r p hr => ?_
  cases r with
  | ok x => exact hr
  | error e => exact Phase.ends_of_raises hr

theorem finish_bind {p : Call ρ α} {f : α → Call ρ β} {Q : α → Phase → Prop}
    (hp : Course P p Q) (hf : ∀ x, Finish (Q x) (f x)) : Finish P (p >>= f) :=
  Contract.Triple.bind hp hf fun _ _ h => Phase.ends_of_raises h

theorem finish_throw {e : CustodyError} (h : ∀ p, P p → p.ends e) : Finish P (throw e : Call ρ α) :=
  Contract.Triple.raise h (stable_phase _)

theorem finish_check {r : Except CustodyError α} {f : α → Call ρ β}
    (h : ∀ p, P p → p.unrejected = true) (hf : ∀ x, Finish P (f x)) :
    Finish P (Program.ofExcept r >>= f) :=
  Contract.Triple.ofExcept_bind (stable_phase _) (fun x _ => hf x)
    fun e p _ hp => Phase.ends_of_raises (Phase.raises_of_unrejected (h p hp) e)

theorem fetch_finish (ref : String) (deadline : Option Time) :
    Finish (fun p => p = .idle) (fetch decryptItem ref deadline : Call ρ _) := by
  refine finish_bind (checkout_calm ref).course fun lease => ?_
  refine finish_bind (checkDeadline_calm deadline holding_unrejected).course fun _ => ?_
  exact (leaseMaterial_course lease deadline).finish

/-- The handler of the transaction: after the commit of an invalidation its rollback undoes
nothing, and `GrantRevoked` is raised on. -/
theorem rollback_finish (e : CustodyError) :
    Finish (fun p => p.raises e) (do perform .rollback; throw e : Call ρ α) := by
  have hrollback : Calm (fun p => p.raises e) (perform .rollback : Call ρ Unit) fun _ p => p.ends e := by
    refine calm_act (fun p h => ?_) (fun p x h => ?_) fun p e' h => ?_
    all_goals cases p <;> trivial
  exact finish_bind hrollback.course fun _ => finish_throw fun _ h => h

theorem gated_finish {ref : String} {body : GrantLease → Call ρ α}
    (hbody : ∀ lease, Course (Holding lease) (body lease) fun _ p => p.unrejected = true) :
    Finish (fun p => p = .idle) (gated ref body) := by
  refine Contract.Triple.tryCatch (Q:=Contract.Ends (fun _ p => p.unrejected = true)
    fun e p => p.raises e) ?_ (fun _ _ h => h) rollback_finish
  refine course_bind (calm_pass rfl idle_unrejected).course fun _ => ?_
  refine course_bind (checkout_calm ref).course fun lease => ?_
  refine course_bind (hbody lease) fun result => ?_
  refine course_bind (calm_pass (P:=fun p => p.unrejected = true) rfl fun _ h => h).course fun _ => ?_
  exact Contract.Triple.ret (fun _ h => h) (stable_phase _)

/-- `GrantRevoked` passes the handler of sqlite errors. -/
theorem asCustody_finish (deadline : Option Time) (e : CustodyError) :
    Finish (fun p => p.ends e) (asCustody deadline e : Call ρ α) := by
  unfold asCustody
  split
  · have hun : ∀ p : Phase, p.ends .sqliteOperational → p.unrejected = true :=
      fun p h => Phase.unrejected_of_ends h nofun
    refine finish_bind (checkDeadline_calm deadline hun).course fun _ => ?_
    exact finish_throw fun p h =>
      Phase.ends_of_raises (Phase.raises_of_unrejected (hun p h) _)
  · exact finish_throw fun _ h => h

theorem authorizedOperation_finish {ref : String} {deadline : Option Time} {body : GrantLease → Call ρ α}
    (hbody : ∀ lease, Course (Holding lease) (body lease) fun _ p => p.unrejected = true) :
    Finish (fun p => p = .idle) (authorizedOperation ref deadline body) := by
  have hcheck := (@checkDeadline_calm ρ _ deadline idle_unrejected).course
  refine finish_check idle_unrejected fun grantId => ?_
  refine finish_bind (calm_pass rfl idle_unrejected).course fun _ => ?_
  refine finish_bind hcheck fun _ => finish_bind hcheck fun _ => ?_
  refine Contract.Triple.tryCatch (Q:=Contract.Ends (fun _ p => p.unrejected = true)
    fun e p => p.ends e) ?_ (fun _ _ h => h) (asCustody_finish deadline)
  refine finish_bind hcheck fun _ => finish_bind hcheck fun _ => finish_bind hcheck fun _ => ?_
  exact gated_finish hbody

theorem authorizedBody_course (a : GrantAuthorization) (expected : GrantId) (deadline : Option Time)
    (lease : GrantLease) : Course (Holding lease)
      (authorizedBody decryptItem a expected deadline lease : Call ρ _)
        fun _ p => p.unrejected = true := by
  have hpass {b : Action} (hb : b.passes = true) :=
    (@calm_pass ρ (fun p => p.unrejected = true) b hb fun _ h => h).course
  refine course_bind (checkDeadline_calm deadline holding_unrejected).course fun _ => ?_
  split
  · exact holding_throw
  split
  · exact holding_throw
  refine course_bind (leaseMaterial_course lease deadline) fun material => ?_
  refine course_bind (hpass rfl) fun _ => ?_
  refine course_bind (hpass rfl) fun result => ?_
  refine course_bind (hpass rfl) fun _ => ?_
  exact Contract.Triple.ret (fun _ h => h) (stable_phase _)

theorem runAuthorized_finish (a : GrantAuthorization) (deadline : Option Time) :
    Finish (fun p => p = .idle) (runAuthorized decryptItem a deadline : Call ρ _) := by
  refine finish_check idle_unrejected fun expected => ?_
  exact authorizedOperation_finish (authorizedBody_course a expected deadline)

/-- Every call keeps its phases, from its start on. -/
theorem task_finish (task : Task) :
    Finish (fun p => p = .idle) (task.call decryptItem : Call ρ (Returned ρ)) := by
  have hreturn {γ : Type} {p : Call ρ γ} (g : γ → Returned ρ) (hp : Finish (fun p => p = .idle) p) :
      Finish (fun p => p = .idle) (p >>= fun x => pure (g x)) :=
    Contract.Triple.bind hp (fun x => Contract.Triple.ret (fun _ h => h) (stable_phase _)) fun _ _ h => h
  cases task with
  | fetch ref deadline => exact hreturn _ (fetch_finish ref deadline)
  | runAuthorized a deadline => exact hreturn _ (runAuthorized_finish a deadline)
  | login scope deadline =>
    refine hreturn _ (finish_bind (calm_pass rfl idle_unrejected).course fun a => ?_)
    exact runAuthorized_finish a deadline

end Walk
end CredentialFetcher
end CloudBrowser
