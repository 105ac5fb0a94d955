import CloudBrowser.RejectionPhases
import CloudBrowser.RotationKept

/-! A definitive rejection by the vault is durable: the call that it answers raises
`GrantRevoked`, and has stored the invalidation of its grant when it does. -/
namespace CloudBrowser
namespace CredentialFetcher

open Interleave GrantCustody VaultItems

section Leases

variable {broker : Broker} {db db' : Database} {lease : GrantLease}

/-- The grant of the lease is active in the lease's epoch, or its scope has moved on. -/
def Checked (lease : GrantLease) (db : Database) : Prop :=
  ∃ row, db.ofScope lease.scope = some row ∧ (lease.epoch < row.epoch ∨
    (row.grantId = lease.grantId ∧ row.epoch = lease.epoch ∧ row.active = true))

theorem checked_of_checkout {ref : String} (h : db.checkout broker ref = .ok lease) : Checked lease db := by
  obtain ⟨row,hmem,-,hactive,hid,hepoch,hscope,-,-⟩ := checkout_ok h
  exact ⟨row,Database.ofScope_eq_some.mpr ⟨hmem,hscope.symm⟩,.inr ⟨hid.symm,hepoch.symm,hactive⟩⟩

theorem checked_step (e : GrantCustody.Event) (h : Checked lease db) : Checked lease (db.step broker e) := by
  obtain ⟨row,hrow,hlease⟩ := h
  obtain ⟨row',hrow',hnext⟩ := succeeds_effect (step_effect db e) hrow
  refine ⟨row',hrow',?_⟩
  rcases hlease with hlt | ⟨hid,hepoch,hactive⟩
  · rcases hnext with hlt' | ⟨-,hepoch',-⟩
    · exact .inl (hlt.trans hlt')
    · exact .inl (hepoch' ▸ hlt)
  · rcases hnext with hlt' | ⟨hid',hepoch',hactive'⟩
    · exact .inl (hepoch ▸ hlt')
    · exact .inr ⟨hid'.trans hid,hepoch'.trans hepoch,hactive'.trans hactive⟩

theorem Checked.live (h : Checked lease db) (he : epochOf db lease.scope = lease.epoch) : Live lease db := by
  obtain ⟨row,hrow,hlease⟩ := h
  obtain ⟨hmem,hscope⟩ := Database.ofScope_eq_some.mp hrow
  rw [epochOf_of_some hrow] at he
  rcases hlease with hlt | ⟨hid,hepoch,hactive⟩
  · omega
  · exact ⟨row,hmem,leased_iff.mpr ⟨hid,hscope,hepoch,hactive⟩⟩

/-- The row of the lease's grant is erased for good, with one audit row about it. -/
structure Erased (lease : GrantLease) (now : ℕ) (db db' : Database) : Prop where
  row : ∃ row, db'.ofScope lease.scope = some row ∧ row.grantId = lease.grantId ∧
    row.epoch = lease.epoch + 1 ∧ row.active = false ∧ row.legs = .erased
  others : ∀ scope ≠ lease.scope, db'.ofScope scope = db.ofScope scope
  audit : db'.audit = db.audit ++
    [⟨"grant_invalidated","broker",lease.grantId.value,lease.epoch+1,"refresh_rejected",now⟩]

theorem erased_invalidate (h : Live lease db) (now : ℕ) :
    Erased lease now db (db.invalidate lease.grantId lease.scope lease.epoch now) := by
  obtain ⟨row,hrow,hleased,hdb⟩ := @Live.invalidate now _ _ h
  rw [hdb]
  refine ⟨⟨row.erase (lease.epoch+1) now,?_,(leased_iff.mp hleased).1,rfl,rfl,rfl⟩,?_,rfl⟩
  · simp [hrow,RowUpdate.applyWhere,hleased,RowUpdate.erase]
  · exact update_other _ fun r _ hr => (leased_iff.mp hr).2.1

theorem invalidate_dead (h : ¬Live lease db) (now : ℕ) :
    db.invalidate lease.grantId lease.scope lease.epoch now = db := by
  have hnone : ∀ r ∈ db.grants, ¬GrantRow.leased lease.grantId lease.scope lease.epoch r = true :=
    fun r hr hleased => h ⟨r,hr,hleased⟩
  have hcount : db.rowcount (GrantRow.leased lease.grantId lease.scope lease.epoch) ≠ 1 := by
    rw [Database.rowcount,List.countP_eq_zero.mpr hnone]
    omega
  have hgrants := update_none (.erase (lease.epoch+1) now) hnone
  rw [Database.invalidate,if_neg hcount]
  calc db.update _ _ = ⟨(db.update (GrantRow.leased lease.grantId lease.scope lease.epoch)
        (.erase (lease.epoch+1) now)).grants,db.audit⟩ := rfl
    _ = db := by rw [hgrants]

/-- Where the epoch is still that of the lease the grant is erased, and nothing changes where
somebody else has moved it. -/
structure Settles (lease : GrantLease) (db db' : Database) : Prop where
  erased : epochOf db lease.scope = lease.epoch → ∃ now, Erased lease now db db'
  moved : epochOf db lease.scope ≠ lease.epoch → db' = db

theorem settles_invalidate (h : Checked lease db) (now : ℕ) :
    Settles lease db (db.invalidate lease.grantId lease.scope lease.epoch now) where
  erased he := ⟨now,erased_invalidate (h.live he) now⟩
  moved he := by
    refine invalidate_dead (fun hlive => he ?_) now
    obtain ⟨row,hrow,hleased,-⟩ := @Live.invalidate now _ _ hlive
    rw [epochOf_of_some hrow]
    exact (leased_iff.mp hleased).2.2.1

end Leases

section Meeting

variable {ρ : Type} {broker : Broker} {t : ℕ} {s s' : State} {x : Choice ρ} {lease : GrantLease}

/-- A working copy has not lost sight of what the committed tables were checked for. -/
def Follows (s : State) : Prop :=
  ∀ u work, s.writer = some (u,work) → ∀ lease, Checked lease s.committed → Checked lease work

theorem follows_free (free : s.writer = none) : Follows s := by
  intro u work hw
  cases free.symm.trans hw

/-- Leases stay checked. -/
def Retains (s s' : State) : Prop := ∀ lease, Checked lease s.committed → Checked lease s'.committed

theorem follows_change (h : Follows s) (hc : Change broker t s s') : Follows s' ∧ Retains s s' := by
  cases hc with
  | noted record accepted _ => exact ⟨h,fun _ h => h⟩
  | began record _ free =>
    refine ⟨fun u work hw lease hl => ?_,fun _ h => h⟩
    cases hw
    exact hl
  | stored r now hr free =>
    exact ⟨follows_free free,fun lease hl => checked_step (r,now) hl⟩
  | worked work r now hr held =>
    refine ⟨fun u work' hw lease hl => ?_,fun _ h => h⟩
    cases hw
    exact checked_step (r,now) (h t work held lease hl)
  | committed work held => exact ⟨nofun,h t work held⟩
  | rolledBack work held => exact ⟨nofun,fun _ h => h⟩

theorem follows_environment {v : Move} (h : Follows s) (hv : environment broker v s = some s') :
    Follows s' ∧ Retains s s' := by
  cases v with
  | administer r now =>
    simp only [environment] at hv
    split at hv
    · cases hv
    · rename_i free _
      cases hv
      exact ⟨follows_free free,fun lease hl => checked_step (r,now) hl⟩
    · rename_i free _
      split at hv
      · cases hv
      · cases hv
        exact ⟨follows_free free,fun lease hl => checked_step (r,now) hl⟩
  | openSession token =>
    simp only [environment] at hv
    split at hv <;> cases hv
    exact ⟨h,fun _ h => h⟩
  | loseAnswer old new =>
    simp only [environment] at hv
    split at hv <;> cases hv
    exact ⟨h,fun _ h => h⟩
  | tick duration =>
    simp only [environment] at hv
    split at hv <;> cases hv
    exact ⟨h,fun _ h => h⟩

/-- The call has written nothing into its working copy. -/
def Unwritten (t : ℕ) (s : State) : Prop := ∀ work, s.writer = some (t,work) → work = s.committed

/-- The call does not have the write lock. -/
def Free (t : ℕ) (s : State) : Prop := ∀ work, s.writer ≠ some (t,work)

/-- The working copy of the call is the committed tables with the lease invalidated. -/
def Staged (t : ℕ) (lease : GrantLease) (s : State) : Prop :=
  Checked lease s.committed ∧ ∃ now, s.writer =
    some (t,s.committed.invalidate lease.grantId lease.scope lease.epoch now)

/-- What the phase of a call says of the tables. -/
def Meets (t : ℕ) (s : State) : Phase → Prop
  | .idle => Unwritten t s
  | .leased lease => Unwritten t s ∧ Checked lease s.committed
  | .rejected lease => Unwritten t s ∧ Checked lease s.committed
  | .due lease => Unwritten t s ∧ Checked lease s.committed
  | .staged lease => Staged t lease s ∨ Free t s
  | .stored => Free t s
  | .undone => Free t s
  | .spent => True

theorem Unwritten.others (h : Unwritten t s) (hr : Rely t s s') : Unwritten t s' := by
  intro work hw
  by_cases hfree : Free t s
  · exact absurd hw (hr.free hfree work)
  · obtain ⟨work',hw'⟩ := not_forall_not.mp hfree
    obtain ⟨hheld,hc⟩ := hr.held work' hw'
    cases hw.symm.trans hheld
    rw [hc]
    exact h work hw'

theorem Staged.others (h : Staged t lease s) (hr : Rely t s s') : Staged t lease s' := by
  obtain ⟨hl,now,hw⟩ := h
  obtain ⟨hheld,hc⟩ := hr.held _ hw
  exact ⟨hc ▸ hl,now,by rw [hheld,hc]⟩

/-- The others do not disturb it. -/
theorem meets_others {p : Phase} (h : Meets t s p) (hr : Rely t s s') (hk : Retains s s') :
    Meets t s' p := by
  cases p with
  | idle => exact Unwritten.others h hr
  | leased lease => exact ⟨h.1.others hr,hk lease h.2⟩
  | rejected lease => exact ⟨h.1.others hr,hk lease h.2⟩
  | due lease => exact ⟨h.1.others hr,hk lease h.2⟩
  | spent => trivial
  | staged lease => exact h.imp (fun h => h.others hr) hr.free
  | stored => exact hr.free h
  | undone => exact hr.free h

/-- The actions that write rows. -/
def Action.writes : Action → Bool
  | .rotate _ _ => true
  | .invalidate _ => true
  | _ => false

/-- Whatever else a call does before its first write, the tables stay as they are. -/
theorem unwritten_own {a : Action} {r : Except CustodyError (Answer ρ a)} (h : Unwritten t s)
    (ha : a.writes = false) (hx : exec broker t a x s = some (r,s')) :
    Unwritten t s' ∧ s'.committed = s.committed := by
  have hsame (hc : s'.committed = s.committed) (hw : s'.writer = s.writer) :
      Unwritten t s' ∧ s'.committed = s.committed :=
    ⟨fun work hwork => (h work (hw ▸ hwork)).trans hc.symm,hc⟩
  cases a with
  | selectAuthorization scope =>
    simp only [exec,State.select] at hx
    by_cases ha : x.available = true
    · rw [if_pos ha] at hx
      cases hr : resolve s.committed scope with
      | ok a =>
        rw [hr] at hx
        cases hx
        exact hsame rfl rfl
      | error e =>
        rw [hr] at hx
        cases hx
        exact hsame rfl rfl
    · rw [if_neg ha] at hx
      cases hx
      exact hsame rfl rfl
  | beginImmediate =>
    simp only [exec] at hx
    split at hx
    · split at hx
      · cases hx
        exact ⟨fun work hw => (Prod.mk.inj (Option.some.inj hw)).2.symm,rfl⟩
      · cases hx
    · cases hx
      exact hsame rfl rfl
  | commit =>
    simp only [exec] at hx
    split at hx
    · cases hx
      exact hsame rfl rfl
    · rename_i u work hw
      split at hx
      · rename_i hu
        subst hu
        split at hx
        · cases hx
          exact ⟨fun _ hw' => (by cases hw'),h work hw⟩
        · cases hx
          exact hsame rfl rfl
      · cases hx
        exact hsame rfl rfl
  | rollback =>
    simp only [exec] at hx
    split at hx
    · cases hx
      exact hsame rfl rfl
    · split at hx
      · cases hx
        exact ⟨fun _ hw' => (by cases hw'),rfl⟩
      · cases hx
        exact hsame rfl rfl
  | rotate lease token => cases ha
  | invalidate lease => cases ha
  | _ =>
    have hreads := exec_reads rfl hx
    exact hsame hreads.committed hreads.writer

/-- Without the write lock a commit or a rollback does nothing. -/
theorem free_own {a : Action} {r : Except CustodyError (Answer ρ a)} (h : Free t s)
    (ha : a = .commit ∨ a = .rollback) (hx : exec broker t a x s = some (r,s')) : (∃ y, r = .ok y) ∧ s' = s := by
  rcases ha with rfl | rfl
  · simp only [exec] at hx
    split at hx
    · cases hx
      exact ⟨⟨_,rfl⟩,rfl⟩
    · rename_i u work hw
      split at hx
      · rename_i hu
        subst hu
        exact absurd hw (h work)
      · cases hx
        exact ⟨⟨_,rfl⟩,rfl⟩
  · simp only [exec] at hx
    split at hx
    · cases hx
      exact ⟨⟨_,rfl⟩,rfl⟩
    · rename_i u work hw
      split at hx
      · rename_i hu
        subst hu
        exact absurd hw (h work)
      · cases hx
        exact ⟨⟨_,rfl⟩,rfl⟩

theorem checked_own {ref : String} (hx : exec broker t (.checkout ref) x s = some (.ok lease,s')) :
    Checked lease s.committed := by
  obtain ⟨-,hr⟩ := select_spec (Option.some.inj hx)
  rcases hr with hr | ⟨e,he,-⟩
  · exact checked_of_checkout hr.symm
  · cases he

/-- An invalidation by a call that has written nothing is made in its working copy, or is
committed at once. -/
theorem invalidate_own {r : Except CustodyError Unit} (h : Unwritten t s) (hl : Checked lease s.committed)
    (hx : exec broker t (.invalidate lease) x s = some (r,s')) :
    (x.available = false ∧ r = .error .sqliteOperational) ∨
      (r = .ok () ∧ Staged t lease s' ∧ s'.committed = s.committed) ∨
      (r = .ok () ∧ Free t s' ∧ Settles lease s.committed s'.committed) := by
  simp only [exec,State.change] at hx
  split at hx
  · split at hx
    · rename_i hw
      cases hx
      refine .inr (.inr ⟨rfl,fun work hw' => ?_,settles_invalidate hl x.now⟩)
      cases hw.symm.trans hw'
    · rename_i u work hw
      split at hx
      · rename_i hu
        subst hu
        cases hx
        refine .inr (.inl ⟨rfl,⟨hl,x.now,?_⟩,rfl⟩)
        rw [h work hw]
        rfl
      · cases hx
  · rename_i ha
    cases hx
    exact .inl ⟨by simpa using ha,rfl⟩

/-- The commit of a staged invalidation. -/
theorem commit_staged {r : Except CustodyError Unit} (h : Staged t lease s)
    (hx : exec broker t .commit x s = some (r,s')) :
    (x.available = false ∧ r = .error .sqliteOperational) ∨
      (r = .ok () ∧ Free t s' ∧ Settles lease s.committed s'.committed) := by
  obtain ⟨hl,now,hw⟩ := h
  simp only [exec,hw,if_true] at hx
  split at hx
  · cases hx
    exact .inr ⟨rfl,fun _ hw' => (by cases hw'),settles_invalidate hl now⟩
  · rename_i ha
    cases hx
    exact .inl ⟨by simpa using ha,rfl⟩

/-- A step of the call keeps what its phase says, in the phase that it leads to. -/
theorem meets_own {p : Phase} {a : Action} {r : Except CustodyError (Answer ρ a)}
    (h : Meets t s p) (ha : p.allows a) (hx : exec broker t a x s = some (r,s')) :
    Meets t s' (p.next a r) := by
  have hkeep (lease : GrantLease) (h : Unwritten t s ∧ Checked lease s.committed) (ha : a.writes = false) :
      Unwritten t s' ∧ Checked lease s'.committed := by
    obtain ⟨hu,hc⟩ := unwritten_own h.1 ha hx
    exact ⟨hu,hc ▸ h.2⟩
  have hstage (lease : GrantLease) (h : Unwritten t s ∧ Checked lease s.committed) (r : Except CustodyError Unit)
      (hx : exec broker t (.invalidate lease) x s = some (r,s')) (hr : r = .ok ()) :
      Staged t lease s' ∨ Free t s' := by
    rcases invalidate_own h.1 h.2 hx with ⟨-,he⟩ | ⟨-,hs,-⟩ | ⟨-,hf,-⟩
    · cases hr.symm.trans he
    · exact .inl hs
    · exact .inr hf
  cases p with
  | idle =>
    cases a with
    | checkout ref =>
      obtain ⟨hu,hc⟩ := unwritten_own h rfl hx
      cases r with
      | ok lease => exact ⟨hu,hc ▸ checked_own hx⟩
      | error e => exact hu
    | postToken other => cases ha
    | getSync other access => cases ha
    | rotate lease token => cases ha
    | invalidate lease => cases ha
    | _ => exact (unwritten_own h rfl hx).1
  | leased lease =>
    cases a with
    | postToken other =>
      have hkept := hkeep lease h rfl
      cases r with
      | error e => exact hkept
      | ok response =>
        by_cases hno : response.refuses = true <;> simpa [Phase.next,Meets,hno] using hkept
    | getSync other access =>
      have hkept := hkeep lease h rfl
      cases r with
      | error e => exact hkept
      | ok response =>
        by_cases hno : response.status = 401 <;> simpa [Phase.next,Meets,hno] using hkept
    | rotate other token => trivial
    | invalidate other => cases ha
    | _ => exact hkeep lease h rfl
  | rejected lease =>
    cases a with
    | deadline expiresAt =>
      cases r with
      | ok _ => exact hkeep lease h rfl
      | error e => trivial
    | invalidate other =>
      subst ha
      cases r with
      | ok _ => exact hstage other h _ hx rfl
      | error e => trivial
    | _ => cases ha
  | due lease =>
    cases a with
    | invalidate other =>
      subst ha
      cases r with
      | ok _ => exact hstage other h _ hx rfl
      | error e => trivial
    | _ => cases ha
  | staged lease =>
    cases a with
    | commit =>
      cases r with
      | error e => trivial
      | ok _ =>
        rcases h with h | h
        · rcases commit_staged h hx with ⟨-,he⟩ | ⟨-,hf,-⟩
          · cases he
          · exact hf
        · rw [(free_own h (.inl rfl) hx).2]
          exact h
    | _ => cases ha
  | stored =>
    cases a with
    | rollback =>
      cases r with
      | error e => trivial
      | ok _ =>
        rw [(free_own h (.inr rfl) hx).2]
        exact h
    | _ => cases ha
  | spent => cases a <;> trivial
  | undone => cases a <;> cases ha

end Meeting

section Runs

variable {ρ : Type} {broker : Broker} {t : ℕ} {c d : World ρ} {lease : GrantLease}

/-- The call is in the phase, and the tables meet it. -/
structure InPhase (t : ℕ) (p : Phase) (c : World ρ) : Prop where
  wellFormed : WellFormed c.shared
  follows : Follows c.shared
  course : (phases ρ).Safe (Contract.Ends (fun _ p => p.unrejected = true) fun e p => p.ends e) (c.calls t) p
  meets : Meets t c.shared p

theorem inPhase_boot (decryptItem : List (String × Json) → String → Bytes →
      Except CustodyError CredentialMaterial) (tasks : ℕ → Task) (t : ℕ) :
    InPhase t .idle (World.boot (ρ:=ρ) decryptItem tasks) where
  wellFormed := wellFormed_boot decryptItem tasks
  follows := follows_free rfl
  course := task_finish (tasks t) .idle rfl
  meets _ hw := nomatch hw

/-- The steps of the call itself. -/
def ownStepsOf (t : ℕ) (es : List (Interleave.Event (Choice ρ) Move)) : ℕ :=
  es.countP fun
    | .call u _ => u = t
    | .environment _ => false

/-- What a step of the others does to the call. -/
theorem others_spec {e : Interleave.Event (Choice ρ) Move} (hw : WellFormed c.shared)
    (hf : Follows c.shared) (he : ∀ x, e ≠ .call t x) (hn : (machine broker).next c e = some d) :
    Rely t c.shared d.shared ∧ Follows d.shared ∧ Retains c.shared d.shared ∧ d.calls t = c.calls t := by
  cases e with
  | call u x =>
    have hne : u ≠ t := by
      rintro rfl
      exact he x rfl
    obtain ⟨a,k,r,s,hk,hx,rfl⟩ := Machine.next_call hn
    have hchange := exec_change hx
    obtain ⟨hf',hkeeps⟩ := follows_change hf hchange
    exact ⟨rely_change hne hw hchange,hf',hkeeps,by simp [hne.symm]⟩
  | environment v =>
    obtain ⟨s,hs,rfl⟩ := Machine.next_environment hn
    obtain ⟨hf',hkeeps⟩ := follows_environment hf hs
    exact ⟨(environment_spec hw hs).2,hf',hkeeps,rfl⟩

theorem inPhase_others {p : Phase} {e : Interleave.Event (Choice ρ) Move} (h : InPhase t p c)
    (he : ∀ x, e ≠ .call t x) (hn : (machine broker).next c e = some d) : InPhase t p d := by
  obtain ⟨hrely,hf,hkeeps,hcalls⟩ := others_spec h.wellFormed h.follows he hn
  refine ⟨wellFormed_next c d e h.wellFormed hn,hf,?_,meets_others h.meets hrely hkeeps⟩
  rw [hcalls]
  exact h.course

theorem inPhase_own {p : Phase} {x : Choice ρ} (h : InPhase t p c)
    (hn : (machine broker).next c (.call t x) = some d) :
    ∃ a k r, c.calls t = .act a k ∧ p.allows a ∧ exec broker t a x c.shared = some (r,d.shared) ∧
      InPhase t (p.next a r) d := by
  have hwell := wellFormed_next c d _ h.wellFormed hn
  obtain ⟨a,k,r,s,hk,hx,rfl⟩ := Machine.next_call hn
  have hcourse := h.course
  rw [hk] at hcourse
  obtain ⟨hallows,hstep⟩ := hcourse p rfl
  refine ⟨a,k,r,hk,hallows,hx,hwell,(follows_change h.follows (exec_change hx)).1,?_,
    meets_own h.meets hallows hx⟩
  simpa using (hstep r _ rfl).2

/-- Every call is in some phase, throughout every run. -/
theorem inPhase_throughout (broker : Broker) {decryptItem : List (String × Json) → String → Bytes →
      Except CustodyError CredentialMaterial} (tasks : ℕ → Task) (t : ℕ)
    (es : List (Interleave.Event (Choice ρ) Move)) :
    (machine broker).Throughout (fun c => ∃ p, InPhase t p c) (World.boot decryptItem tasks) es := by
  refine Machine.throughout_of_step (Q:=fun _ _ => True) ?_ ⟨_,inPhase_boot decryptItem tasks t⟩
    Machine.eachStep_true
  rintro c d e ⟨p,h⟩ - hn
  by_cases he : ∃ x, e = .call t x
  · obtain ⟨x,rfl⟩ := he
    obtain ⟨a,k,r,-,-,-,hd⟩ := inPhase_own h hn
    exact ⟨_,hd⟩
  · exact ⟨p,inPhase_others h (fun x hx => he ⟨x,hx⟩) hn⟩

/-- The call does not find its deadline passed. -/
def onTime (t : ℕ) (c : World ρ) : Interleave.Event (Choice ρ) Move → Bool
  | .environment _ => true
  | .call u _ => u ≠ t || match (c.calls t).upcoming with
    | some (.deadline expiresAt) => c.shared.clock < expiresAt
    | _ => true

/-- The database carries out the call's invalidation, and the commit of its transaction. -/
def carriedOut (t : ℕ) (c : World ρ) : Interleave.Event (Choice ρ) Move → Bool
  | .environment _ => true
  | .call u x => u ≠ t || x.available || match (c.calls t).upcoming with
    | some (.invalidate _) => false
    | some .commit => !c.shared.holds t
    | _ => true

/-- Neither the clock nor the database stops the call. -/
def Goes (t : ℕ) (c : World ρ) (e : Interleave.Event (Choice ρ) Move) : Prop :=
  onTime t c e = true ∧ carriedOut t c e = true

instance (t : ℕ) (c : World ρ) (e : Interleave.Event (Choice ρ) Move) : Decidable (Goes t c e) :=
  inferInstanceAs (Decidable (_ ∧ _))

/-- A step of the call leaves the committed tables alone. -/
def Leaves (broker : Broker) (t : ℕ) (c : World ρ) (e : Interleave.Event (Choice ρ) Move) : Prop :=
  ∀ x d, e = .call t x → (machine broker).next c e = some d → d.shared.committed = c.shared.committed

/-- The invalidation is still to be stored. -/
def Pending (t : ℕ) (lease : GrantLease) (s : State) (p : Phase) : Prop :=
  p = .rejected lease ∨ p = .due lease ∨ p = .staged lease ∧ Staged t lease s

/-- The invalidation is stored. -/
def Past (t : ℕ) (lease : GrantLease) (s : State) (p : Phase) : Prop :=
  (p = .staged lease ∨ p = .stored ∨ p = .undone) ∧ Free t s

theorem pending_others {p : Phase} {e : Interleave.Event (Choice ρ) Move} (h : InPhase t p c)
    (hp : Pending t lease c.shared p) (he : ∀ x, e ≠ .call t x)
    (hn : (machine broker).next c e = some d) : Pending t lease d.shared p :=
  hp.imp_right (.imp_right (.imp_right fun hs =>
    hs.others (others_spec h.wellFormed h.follows he hn).1))

theorem past_others {p : Phase} {e : Interleave.Event (Choice ρ) Move} (h : InPhase t p c)
    (hp : Past t lease c.shared p) (he : ∀ x, e ≠ .call t x)
    (hn : (machine broker).next c e = some d) : Past t lease d.shared p :=
  ⟨hp.1,(others_spec h.wellFormed h.follows he hn).1.free hp.2⟩

/-- One more step of a call whose invalidation is stored. -/
theorem past_own {p : Phase} {x : Choice ρ} (h : InPhase t p c) (hp : Past t lease c.shared p)
    (hn : (machine broker).next c (.call t x) = some d) :
    ∃ p', InPhase t p' d ∧ Past t lease d.shared p' ∧ p'.left < p.left ∧
      d.shared.committed = c.shared.committed := by
  obtain ⟨a,k,r,hk,ha,hx,hd⟩ := inPhase_own h hn
  obtain ⟨rfl | rfl | rfl,hfree⟩ := hp
  · cases a with
    | commit =>
      obtain ⟨⟨y,rfl⟩,hs⟩ := free_own hfree (.inl rfl) hx
      rw [hs]
      exact ⟨_,hd,⟨.inr (.inl rfl),hfree⟩,by simp [Phase.next,Phase.left],rfl⟩
    | _ => cases ha
  · cases a with
    | rollback =>
      obtain ⟨⟨y,rfl⟩,hs⟩ := free_own hfree (.inr rfl) hx
      rw [hs]
      exact ⟨_,hd,⟨.inr (.inr rfl),hfree⟩,by simp [Phase.next,Phase.left],rfl⟩
    | _ => cases ha
  · cases a <;> cases ha

/-- An invalidation that the database carries out. -/
theorem invalidate_goes {k : Except CustodyError Unit → Call ρ (Returned ρ)} {x : Choice ρ}
    {r : Except CustodyError Unit} {p : Phase} (hk : c.calls t = .act (.invalidate lease) k)
    (hg : Goes t c (.call t x)) (hu : Unwritten t c.shared) (hl : Checked lease c.shared.committed)
    (hx : exec broker t (.invalidate lease) x c.shared = some (r,d.shared))
    (hp : @Phase.next ρ p (.invalidate lease) (.ok ()) = .staged lease) :
    @Phase.next ρ p (.invalidate lease) r = .staged lease ∧
      (Pending t lease d.shared (.staged lease) ∧ d.shared.committed = c.shared.committed ∨
        Past t lease d.shared (.staged lease) ∧ Settles lease c.shared.committed d.shared.committed) := by
  have havailable : x.available = true := by simpa [carriedOut,hk,Program.upcoming] using hg.2
  rcases invalidate_own hu hl hx with ⟨hno,-⟩ | ⟨rfl,hs,hc⟩ | ⟨rfl,hf,hs⟩
  · cases havailable.symm.trans hno
  · exact ⟨hp,.inl ⟨.inr (.inr ⟨rfl,hs⟩),hc⟩⟩
  · exact ⟨hp,.inr ⟨⟨.inl rfl,hf⟩,hs⟩⟩

/-- One more step of a call that still has to store it: this step may be the one. -/
theorem pending_own {p : Phase} {x : Choice ρ} (h : InPhase t p c) (hp : Pending t lease c.shared p)
    (hg : Goes t c (.call t x)) (hn : (machine broker).next c (.call t x) = some d) :
    ∃ p', InPhase t p' d ∧ p'.left < p.left ∧
      (Pending t lease d.shared p' ∧ d.shared.committed = c.shared.committed ∨
        Past t lease d.shared p' ∧ Settles lease c.shared.committed d.shared.committed) := by
  obtain ⟨a,k,r,hk,ha,hx,hd⟩ := inPhase_own h hn
  have hmeets := h.meets
  rcases hp with rfl | rfl | ⟨rfl,hs⟩
  · cases a with
    | deadline expiresAt =>
      have hclock : c.shared.clock < expiresAt := by simpa [onTime,hk,Program.upcoming] using hg.1
      simp only [exec,if_pos hclock,Option.some.injEq,Prod.mk.injEq] at hx
      obtain ⟨rfl,hs⟩ := hx
      refine ⟨_,hd,by simp [Phase.next,Phase.left],.inl ⟨.inr (.inl rfl),by rw [hs]⟩⟩
    | invalidate other =>
      cases ha
      obtain ⟨hnext,hout⟩ := invalidate_goes (p:=.rejected lease) hk hg hmeets.1 hmeets.2 hx rfl
      rw [hnext] at hd
      exact ⟨_,hd,by simp [Phase.left],hout⟩
    | _ => cases ha
  · cases a with
    | invalidate other =>
      cases ha
      obtain ⟨hnext,hout⟩ := invalidate_goes (p:=.due lease) hk hg hmeets.1 hmeets.2 hx rfl
      rw [hnext] at hd
      exact ⟨_,hd,by simp [Phase.left],hout⟩
    | _ => cases ha
  · cases a with
    | commit =>
      have hgoes : x.available = true ∨ c.shared.holds t = false := by
        simpa [carriedOut,hk,Program.upcoming] using hg.2
      rcases commit_staged hs hx with ⟨hno,-⟩ | ⟨rfl,hf,hs'⟩
      · obtain ⟨-,now,hw⟩ := hs
        simp [hno,State.holds,hw] at hgoes
      · exact ⟨_,hd,by simp [Phase.next,Phase.left],.inr ⟨⟨.inr (.inl rfl),hf⟩,hs'⟩⟩
    | _ => cases ha

theorem own_cons (t : ℕ) (x : Choice ρ) (es : List (Interleave.Event (Choice ρ) Move)) :
    ownStepsOf t (.call t x::es) = ownStepsOf t es + 1 := by
  simp [ownStepsOf]

theorem own_others {t : ℕ} {e : Interleave.Event (Choice ρ) Move} (he : ∀ x, e ≠ .call t x)
    (es : List (Interleave.Event (Choice ρ) Move)) : ownStepsOf t (e::es) = ownStepsOf t es := by
  cases e with
  | call u x =>
    have hne : u ≠ t := by
      rintro rfl
      exact he x rfl
    simp [ownStepsOf,hne]
  | environment v => simp [ownStepsOf]

/-- Once the invalidation is stored, the call does not touch the committed tables again. -/
theorem past_run {p : Phase} {es : List (Interleave.Event (Choice ρ) Move)} {e : World ρ}
    (h : InPhase t p c) (hp : Past t lease c.shared p) (hr : (machine broker).run c es = some e) :
    (machine broker).EachStep (Leaves broker t) c es ∧
      ∃ p', InPhase t p' e ∧ Past t lease e.shared p' ∧ ownStepsOf t es + p'.left ≤ p.left := by
  induction es generalizing c p with
  | nil =>
    cases hr
    exact ⟨trivial,p,h,hp,by simp [ownStepsOf]⟩
  | cons ev es ih =>
    obtain ⟨d,hd,hrest⟩ := Option.bind_eq_some_iff.mp hr
    by_cases hev : ∃ x, ev = .call t x
    · obtain ⟨x,rfl⟩ := hev
      obtain ⟨p',h',hp',hlt,hc⟩ := past_own h hp hd
      obtain ⟨hleaves,q,hq,hpq,hown⟩ := ih h' hp' hrest
      refine ⟨⟨fun _ d' _ hd' => ?_,fun d' hd' => ?_⟩,q,hq,hpq,?_⟩
      · cases hd.symm.trans hd'
        exact hc
      · cases hd.symm.trans hd'
        exact hleaves
      · rw [own_cons]
        omega
    · have hno : ∀ x, ev ≠ .call t x := fun x hx => hev ⟨x,hx⟩
      obtain ⟨hleaves,q,hq,hpq,hown⟩ := ih (inPhase_others h hno hd) (past_others h hp hno hd) hrest
      refine ⟨⟨fun x _ hx => absurd hx (hno x),fun d' hd' => ?_⟩,q,hq,hpq,?_⟩
      · cases hd.symm.trans hd'
        exact hleaves
      · rw [own_others hno]
        exact hown

/-- One step of the call, in the run, stores the invalidation; the others of its steps leave
the committed tables alone. -/
def StoredOnce (broker : Broker) (t : ℕ) (lease : GrantLease) (c : World ρ)
    (es : List (Interleave.Event (Choice ρ) Move)) : Prop :=
  ∃ es₁ x es₂ c₁ c₂, es = es₁ ++ .call t x::es₂ ∧ (machine broker).run c es₁ = some c₁ ∧
    (machine broker).next c₁ (.call t x) = some c₂ ∧
    Settles lease c₁.shared.committed c₂.shared.committed ∧
    (machine broker).EachStep (Leaves broker t) c es₁ ∧ (machine broker).EachStep (Leaves broker t) c₂ es₂

theorem pending_run {p : Phase} {es : List (Interleave.Event (Choice ρ) Move)} {e : World ρ}
    (h : InPhase t p c) (hp : Pending t lease c.shared p) (hg : (machine broker).EachStep (Goes t) c es)
    (hr : (machine broker).run c es = some e) :
    ∃ p', InPhase t p' e ∧ ownStepsOf t es + p'.left ≤ p.left ∧
      (Pending t lease e.shared p' ∧ (machine broker).EachStep (Leaves broker t) c es ∨
        Past t lease e.shared p' ∧ StoredOnce broker t lease c es) := by
  induction es generalizing c p with
  | nil =>
    cases hr
    exact ⟨p,h,by simp [ownStepsOf],.inl ⟨hp,trivial⟩⟩
  | cons ev es ih =>
    obtain ⟨d,hd,hrest⟩ := Option.bind_eq_some_iff.mp hr
    -- a step that leaves the tables alone, and the rest of the run after it
    have hcons (hstep : Leaves broker t c ev) (h : StoredOnce broker t lease d es) :
        StoredOnce broker t lease c (ev::es) := by
      obtain ⟨es₁,x,es₂,c₁,c₂,hes,hr₁,hn,hs,hl₁,hl₂⟩ := h
      refine ⟨ev::es₁,x,es₂,c₁,c₂,by simp [hes],?_,hn,hs,⟨hstep,fun d' hd' => ?_⟩,hl₂⟩
      · simp [Machine.run,hd,hr₁]
      · cases hd.symm.trans hd'
        exact hl₁
    have hkeep (hstep : Leaves broker t c ev) (h : (machine broker).EachStep (Leaves broker t) d es) :
        (machine broker).EachStep (Leaves broker t) c (ev::es) := by
      refine ⟨hstep,fun d' hd' => ?_⟩
      cases hd.symm.trans hd'
      exact h
    by_cases hev : ∃ x, ev = .call t x
    · obtain ⟨x,rfl⟩ := hev
      obtain ⟨p',h',hlt,hout⟩ := pending_own h hp hg.1 hd
      rcases hout with ⟨hp',hc⟩ | ⟨hp',hs⟩
      · have hstep : Leaves broker t c (.call t x) := by
          intro _ d' _ hd'
          cases hd.symm.trans hd'
          exact hc
        obtain ⟨q,hq,hown,hout⟩ := ih h' hp' (hg.2 d hd) hrest
        refine ⟨q,hq,by rw [own_cons]; omega,?_⟩
        exact hout.imp (fun h => ⟨h.1,hkeep hstep h.2⟩) fun h => ⟨h.1,hcons hstep h.2⟩
      · obtain ⟨hleaves,q,hq,hpq,hown⟩ := past_run h' hp' hrest
        refine ⟨q,hq,by rw [own_cons]; omega,.inr ⟨hpq,?_⟩⟩
        exact ⟨[],x,es,c,d,rfl,rfl,hd,hs,trivial,hleaves⟩
    · have hno : ∀ x, ev ≠ .call t x := fun x hx => hev ⟨x,hx⟩
      have hstep : Leaves broker t c ev := fun x _ hx => absurd hx (hno x)
      obtain ⟨q,hq,hown,hout⟩ :=
        ih (inPhase_others h hno hd) (pending_others h hp hno hd) (hg.2 d hd) hrest
      refine ⟨q,hq,by rw [own_others hno]; exact hown,?_⟩
      exact hout.imp (fun h => ⟨h.1,hkeep hstep h.2⟩) fun h => ⟨h.1,hcons hstep h.2⟩

end Runs

section Rejections

variable {ρ : Type} {broker : Broker} {t : ℕ} {c d : World ρ} {lease : GrantLease}

/-- The vault's answer to the call rejects the lease: the token request is answered by 400 or
401 or without an access token, or the sync by 401. -/
def rejects (t : ℕ) (lease : GrantLease) (x : Choice ρ) (c : World ρ) : Bool :=
  match (c.calls t).upcoming, x.response with
  | some (.postToken other), .ok response => other = lease && response.refuses
  | some (.getSync other _), .ok response => other = lease && response.status = 401
  | _, _ => false

/-- A call uses its lease only while it holds it. -/
theorem rejected_of_rejects {p : Phase} {x : Choice ρ} (h : InPhase t p c)
    (hx : rejects t lease x c = true) (hn : (machine broker).next c (.call t x) = some d) :
    InPhase t (.rejected lease) d := by
  obtain ⟨a,k,r,hk,ha,hexec,hd⟩ := inPhase_own h hn
  simp only [rejects,hk,Program.upcoming] at hx
  split at hx
  · rename_i other response hup hresponse
    cases hup
    simp only [Bool.and_eq_true,decide_eq_true_eq] at hx
    obtain ⟨rfl,hno⟩ := hx
    simp only [exec,hresponse,Option.some.injEq,Prod.mk.injEq] at hexec
    obtain ⟨rfl,-⟩ := hexec
    cases p with
    | leased held =>
      cases ha
      simpa [Phase.next,hno] using hd
    | _ => cases ha
  · rename_i other access response hup hresponse
    cases hup
    simp only [Bool.and_eq_true,decide_eq_true_eq] at hx
    obtain ⟨rfl,hno⟩ := hx
    simp only [exec,hresponse,Option.some.injEq,Prod.mk.injEq] at hexec
    obtain ⟨rfl,-⟩ := hexec
    cases p with
    | leased held =>
      cases ha
      simpa [Phase.next,hno] using hd
    | _ => cases ha
  · cases hx

/-- A call that has ended, in the phase that it ended in. -/
theorem ended {p : Phase} (h : InPhase t p c) (hf : (c.calls t).finished = true) :
    p.unrejected = true ∨ ∃ e, c.calls t = .raise e ∧ p.ends e := by
  have hcourse := h.course
  cases hk : c.calls t with
  | ret y =>
    rw [hk] at hcourse
    exact .inl (hcourse p rfl)
  | raise e =>
    rw [hk] at hcourse
    exact .inr ⟨e,rfl,hcourse p rfl⟩
  | act a k =>
    rw [hk] at hf
    cases hf

theorem pending_unfinished {p : Phase} (h : InPhase t p c) (hp : Pending t lease c.shared p) :
    (c.calls t).finished = false := by
  by_contra hf
  rcases ended h (by simpa using hf) with hun | ⟨e,-,he⟩
  · rcases hp with rfl | rfl | ⟨rfl,-⟩ <;> cases hun
  · rcases hp with rfl | rfl | ⟨rfl,-⟩ <;> cases he

theorem past_finished {p : Phase} (h : InPhase t p c) (hp : Past t lease c.shared p)
    (hf : (c.calls t).finished = true) : c.calls t = .raise .grantRevoked := by
  rcases ended h hf with hun | ⟨e,hk,he⟩
  · rcases hp.1 with rfl | rfl | rfl <;> cases hun
  · rcases hp.1 with rfl | rfl | rfl
    · cases he
    · rw [hk,he]
    · rw [hk,he]

/-- An action is possible as long as nobody else has the write lock. -/
theorem exec_possible {s : State} {a : Action} (hw : ∀ u work, s.writer = some (u,work) → u = t)
    (ha : a ≠ .beginImmediate) : ∃ r, exec broker t a ({} : Choice ρ) s = some r := by
  have hchange (request : Request) : ∃ r, s.change broker t ({} : Choice ρ) request = some r := by
    cases hs : s.writer with
    | none => exact ⟨_,by simp only [State.change,hs,if_true]; rfl⟩
    | some w =>
      have hu := hw w.1 w.2 hs
      exact ⟨_,by simp only [State.change,hs,if_true,hu]; rfl⟩
  cases a with
  | selectAuthorization scope =>
    simp only [exec]
    split <;> exact ⟨_,rfl⟩
  | beginImmediate => exact absurd rfl ha
  | deadline expiresAt =>
    simp only [exec]
    split <;> exact ⟨_,rfl⟩
  | rotate other token => exact hchange _
  | invalidate other => exact hchange _
  | commit =>
    simp only [exec]
    repeat' split
    all_goals exact ⟨_,rfl⟩
  | rollback =>
    simp only [exec]
    repeat' split
    all_goals exact ⟨_,rfl⟩
  | _ => exact ⟨_,rfl⟩

theorem begins_unrejected {p : Phase} (hp : p.unrejected = false) : ¬p.allows .beginImmediate := by
  cases p <;> simp [Phase.allows] <;> cases hp

theorem goes_on {p : Phase} (h : InPhase t p c) (hp : p.unrejected = false)
    (hf : (c.calls t).finished = false) (hw : ∀ u work, c.shared.writer = some (u,work) → u = t) :
    ∃ x : Choice ρ, x.available = true ∧ ∃ d, (machine broker).next c (.call t x) = some d := by
  have hcourse := h.course
  cases hk : c.calls t with
  | act a k =>
    rw [hk] at hcourse
    have ha := (hcourse p rfl).1
    have hbegin : a ≠ .beginImmediate := by
      rintro rfl
      exact begins_unrejected hp ha
    obtain ⟨r,hr⟩ := @exec_possible ρ broker t c.shared a hw hbegin
    exact ⟨{},rfl,_,by simp only [Machine.next,hk,machine,hr]; rfl⟩
  | _ =>
    rw [hk] at hf
    cases hf

/-- What becomes of a call whose lease the vault has rejected, in a run on from there. -/
structure Durable (broker : Broker) (t : ℕ) (lease : GrantLease) (d : World ρ)
    (after : List (Interleave.Event (Choice ρ) Move)) (e : World ρ) : Prop where
  raises : (e.calls t).finished = true →
    e.calls t = .raise .grantRevoked ∧ StoredOnce broker t lease d after
  ends : ownStepsOf t after ≤ 4
  goesOn : (e.calls t).finished = false → (∀ u work, e.shared.writer = some (u,work) → u = t) →
    ∃ x : Choice ρ, x.available = true ∧ ∃ e', (machine broker).next e (.call t x) = some e'

theorem rejection_durable (broker : Broker) (decryptItem : List (String × Json) → String → Bytes →
      Except CustodyError CredentialMaterial) (tasks : ℕ → Task) (t : ℕ) (lease : GrantLease)
    (before after : List (Interleave.Event (Choice ρ) Move)) (x : Choice ρ) (c d e : World ρ)
    (hbefore : (machine broker).run (World.boot decryptItem tasks) before = some c)
    (hrejects : rejects t lease x c = true) (hanswer : (machine broker).next c (.call t x) = some d)
    (hafter : (machine broker).run d after = some e)
    (hgoes : (machine broker).EachStep (Goes t) d after) : Durable broker t lease d after e := by
  obtain ⟨p,hp⟩ := Machine.throughout_last (inPhase_throughout broker tasks t before) hbefore
  have hd := rejected_of_rejects hp hrejects hanswer
  obtain ⟨q,hq,hown,hout⟩ := pending_run hd (.inl rfl) hgoes hafter
  refine ⟨fun hf => ?_,(Nat.le_add_right _ _).trans hown,fun hf hw => ?_⟩
  · rcases hout with ⟨hpend,-⟩ | ⟨hpast,hstored⟩
    · cases hf.symm.trans (pending_unfinished hq hpend)
    · exact ⟨past_finished hq hpast hf,hstored⟩
  · refine goes_on hq ?_ hf hw
    rcases hout with ⟨hpend,-⟩ | ⟨hpast,-⟩
    · rcases hpend with rfl | rfl | ⟨rfl,-⟩ <;> rfl
    · rcases hpast.1 with rfl | rfl | rfl <;> rfl

end Rejections

section Samples

/-- The vault rejects the lease of call 0 at the end of `before`; the steps of `after` meet `q`,
and the call ends in `p`. -/
def sample (q : World Unit → Interleave.Event (Choice Unit) Move → Bool)
    (p : Call Unit (Returned Unit) → Bool) (x : Choice Unit) (w : World Unit)
    (before after : List (Interleave.Event (Choice Unit) Move)) : Bool :=
  ((machine plainBroker).run w before).any fun c => rejects 0 staleLease x c &&
    ((machine plainBroker).next c (.call 0 x)).any fun d =>
      (machine plainBroker).checkSteps q d after &&
        ((machine plainBroker).run d after).any fun e => p (e.calls 0)

theorem sample_spec {q : World Unit → Interleave.Event (Choice Unit) Move → Bool}
    {p : Call Unit (Returned Unit) → Bool} {x : Choice Unit} {w : World Unit}
    {before after : List (Interleave.Event (Choice Unit) Move)} (h : sample q p x w before after = true) :
    ∃ c d e, (machine plainBroker).run w before = some c ∧ rejects 0 staleLease x c = true ∧
      (machine plainBroker).next c (.call 0 x) = some d ∧ (machine plainBroker).run d after = some e ∧
      (machine plainBroker).EachStep (fun c e => q c e = true) d after ∧ p (e.calls 0) = true := by
  obtain ⟨c,hc,h⟩ := (Option.any_eq_true _ _).mp h
  obtain ⟨hrejects,h⟩ := Bool.and_eq_true_iff.mp h
  obtain ⟨d,hd,h⟩ := (Option.any_eq_true _ _).mp h
  obtain ⟨hsteps,h⟩ := Bool.and_eq_true_iff.mp h
  obtain ⟨e,he,hp⟩ := (Option.any_eq_true _ _).mp h
  exact ⟨c,d,e,hc,hrejects,hd,he,Machine.eachStep_of_check hsteps,hp⟩

def provisioned (es : List (Interleave.Event (Choice Unit) Move)) : List (Interleave.Event (Choice Unit) Move) :=
  .environment (.administer aliceProvision.1 5) :: es

/-- A login whose sync the vault answers by 401. -/
def askedSync : List (Interleave.Event (Choice Unit) Move) :=
  provisioned (List.replicate 5 (.call 0 {}) ++
    [.call 0 (answered 200 [("access_token",.str "access")]),.call 0 {},.call 0 {}])

theorem rejection_durable_login : ∃ c d e : World Unit,
    (machine plainBroker).run loginWorld askedSync = some c ∧
    (machine plainBroker).next c (.call 0 (answered 401 [])) = some d ∧ (e.calls 0).finished = true ∧
    Durable plainBroker 0 staleLease d (List.replicate 3 (.call 0 { now := 9 })) e := by
  have hsample : sample (fun c e => decide (Goes 0 c e)) Program.finished (answered 401 []) loginWorld
      askedSync (List.replicate 3 (.call 0 { now := 9 })) = true := by decide +kernel
  obtain ⟨c,d,e,hc,hrejects,hd,he,hgoes,hend⟩ := sample_spec hsample
  refine ⟨c,d,e,hc,hd,hend,?_⟩
  exact rejection_durable plainBroker aliceLogin _ 0 staleLease askedSync _ _ c d e hc hrejects hd he
    (by simpa using hgoes)

/-- A rejected call raises `GrantRevoked` in every run on whose steps `Q` holds. -/
def RaisesWhere (Q : ℕ → World Unit → Interleave.Event (Choice Unit) Move → Bool) : Prop :=
  ∀ (broker : Broker) (decryptItem : List (String × Json) → String → Bytes →
      Except CustodyError CredentialMaterial) (tasks : ℕ → Task) (t : ℕ) (lease : GrantLease)
    (before after : List (Interleave.Event (Choice Unit) Move)) (x : Choice Unit) (c d e : World Unit),
    (machine broker).run (World.boot decryptItem tasks) before = some c → rejects t lease x c = true →
      (machine broker).next c (.call t x) = some d → (machine broker).run d after = some e →
        (machine broker).EachStep (fun c e => Q t c e = true) d after →
          (e.calls t).finished = true → e.calls t = .raise .grantRevoked

/-- A sample that ends in another way. -/
theorem sample_breaks {Q : ℕ → World Unit → Interleave.Event (Choice Unit) Move → Bool} {x : Choice Unit}
    {tasks : ℕ → Task} {before after : List (Interleave.Event (Choice Unit) Move)}
    (h : sample (Q 0) (fun p => match p with
      | .raise e => e ≠ .grantRevoked
      | _ => false) x (World.boot aliceLogin tasks) before after = true) : ¬RaisesWhere Q := by
  intro hraises
  obtain ⟨c,d,e,hc,hrejects,hd,he,hQ,hend⟩ := sample_spec h
  cases hk : e.calls 0 with
  | raise e' =>
    have hrevoked := hraises plainBroker aliceLogin tasks 0 staleLease before after x c d e hc hrejects
      hd he hQ (by rw [hk]; rfl)
    rw [hk] at hrevoked hend
    cases hrevoked
    simp at hend
  | _ =>
    rw [hk] at hend
    cases hend

/-- The deadline has passed when the vault's answer is in, or the database is away. -/
theorem rejection_lost : ¬RaisesWhere carriedOut ∧ ¬RaisesWhere onTime := by
  refine ⟨?_,?_⟩
  · refine @sample_breaks _ (answered 400 []) (fun _ => .fetch (grantRef aliceId.toGrantId) (some 5))
      (provisioned (List.replicate 4 (.call 0 {}) ++ [.environment (.tick 10)])) [.call 0 {}] ?_
    decide +kernel
  · refine @sample_breaks _ (answered 400 []) aliceTasks
      (provisioned (List.replicate 2 (.call 0 {}))) [.call 0 { available := false }] ?_
    decide +kernel

end Samples

end CredentialFetcher
end CloudBrowser
