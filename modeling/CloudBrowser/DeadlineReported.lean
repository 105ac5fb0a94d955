import CloudBrowser.DeadlineReadings

/-! A deadline that has passed is reported by the login's result, unless it is a request to the
vault that finds it passed. -/
namespace CloudBrowser
namespace BrokerRuntime

open Stateful LoginCoordinator
open GrantCustody (CustodyError GrantId GrantLease)
open VaultItems (CredentialMaterial)
open CredentialFetcher (Action Answer)
open Idempotency (BrokerResult)

variable {σ δ τ κ α : Type}

section Readings

/-- No reading has found the deadline passed. -/
def Calm (expiresAt : Time) (l : List Reading) : Prop := ∀ o ∈ l, o.expired expiresAt = false

/-- The deadline has been found passed, and not in a request to the vault. -/
def Late (expiresAt : Time) (l : List Reading) : Prop :=
  (∃ o ∈ l, o.expired expiresAt = true) ∧ ∀ o ∈ l, o.inVault = true → o.expired expiresAt = false

/-- A request to the vault has found the deadline passed. -/
def Lost (expiresAt : Time) (l : List Reading) : Prop :=
  ∃ o ∈ l, o.inVault = true ∧ o.expired expiresAt = true

variable {expiresAt : Time} {l : List Reading}

theorem Calm.snoc {o : Reading} (h : Calm expiresAt l) (ho : o.expired expiresAt = false) :
    Calm expiresAt (l ++ [o]) := by
  intro o' ho'
  rcases List.mem_append.mp ho' with ho' | ho'
  · exact h o' ho'
  · rwa [List.mem_singleton.mp ho']

theorem Calm.late {o : Reading} (h : Calm expiresAt l) (ho : o.expired expiresAt = true)
    (hv : o.inVault = false) : Late expiresAt (l ++ [o]) := by
  constructor
  · exact ⟨o,by simp,ho⟩
  · intro o' ho' hv'
    rcases List.mem_append.mp ho' with ho' | ho'
    · exact h o' ho'
    · rw [List.mem_singleton.mp ho',hv] at hv'
      cases hv'

theorem Lost.snoc {o : Reading} (ho : o.expired expiresAt = true) (hv : o.inVault = true) :
    Lost expiresAt (l ++ [o]) := ⟨o,by simp,hv,ho⟩

/-- What is raised of a passed deadline: its own exception, or for a request to the vault that of an
unavailable dependency. -/
def Blames (expiresAt : Time) : Raised → List Reading → Prop
  | .deadlineExceeded _, l => Late expiresAt l
  | .dependencyUnavailable _, l => Lost expiresAt l
  | _, _ => False

/-- The deadline's own exception, where no vault is asked. -/
def BlamesDeadline (expiresAt : Time) : Raised → List Reading → Prop
  | .deadlineExceeded _, l => Late expiresAt l
  | _, _ => False

theorem BlamesDeadline.blames {e : Raised} (h : BlamesDeadline expiresAt e l) : Blames expiresAt e l := by
  cases e with
  | deadlineExceeded _ => exact h
  | _ => cases h

end Readings

section Layers

variable (d : BrokerDeadline σ)

theorem check_surfaces :
    Surfaces (Calm d.expiresAt) (BlamesDeadline d.expiresAt) (timed d .clock).check := by
  intro l hl
  rw [exec_timed,exec_deadlineCheck]
  by_cases h : d.expiresAt ≤ (d.monotonicClock.run l.state).1
  · rw [if_pos h]
    exact .inr (hl.late (by simpa [Reading.expired] using h) rfl)
  · rw [if_neg h]
    exact hl.snoc (by simpa [Reading.expired] using h)

theorem checkDeadline_surfaces : Surfaces (Calm d.expiresAt) (BlamesDeadline d.expiresAt)
    (checkDeadline (some (timed d .clock))) :=
  (check_surfaces d).bind fun _ => Surfaces.pure _

theorem vaultCheck_surfaces : Surfaces (Calm d.expiresAt)
    (fun e l => e = .deadlineExceeded ∧ Lost d.expiresAt l)
    (Fetcher.expiry (some (timed d .vaultClock))) := by
  intro l hl
  rw [Fetcher.expiry,exec_rethrow,checkDeadline,exec_bind,exec_timed,exec_deadlineCheck]
  by_cases h : d.expiresAt ≤ (d.monotonicClock.run l.state).1
  · rw [if_pos h]
    exact .inr ⟨rfl,Lost.snoc (by simpa [Reading.expired] using h) rfl⟩
  · rw [if_neg h]
    exact hl.snoc (by simpa [Reading.expired] using h)

theorem Steps.run_surfaces (q : Steps σ α) : Surfaces (Calm d.expiresAt) (BlamesDeadline d.expiresAt)
    (q.lifted.run (some (timed d .clock))) := by
  induction q with
  | done r => exact Surfaces.check r
  | check rest ih => exact (checkDeadline_surfaces d).bind fun _ => ih
  | ask request rest ih => exact (Surfaces.silently request).bind fun answer => ih answer

namespace Fetcher

variable (f : Fetcher σ)

/-- A call of the fetcher that runs alone, with the readings of its requests to the vault. -/
abbrev alone (q : CredentialFetcher.Call Unit α) : Op CustodyError (Logged σ Reading) α :=
  q.alone (f.observed.perform (some (timed d .vaultClock)))

theorem perform_surfaces {B : CustodyError → List Reading → Prop} {a : Action}
    (ha : f.observed.perform (some (timed d .vaultClock)) a = silently (f.act a)) :
    Surfaces (Calm d.expiresAt) B (f.alone d (CredentialFetcher.perform a)) := by
  rw [alone,Interleave.Program.alone_perform,ha]
  exact Surfaces.silently _

/-- A request to the vault turns the deadline's exception into that of an unavailable dependency. -/
theorem callVault_surfaces {send : CredentialFetcher.Call Unit CredentialFetcher.Response}
    (hsend : Surfaces (Calm d.expiresAt) (fun e l => e = .deadlineExceeded ∧ Lost d.expiresAt l)
      (f.alone d send)) :
    Surfaces (Calm d.expiresAt) (fun e => Blames d.expiresAt (raised e))
      (f.alone d (CredentialFetcher.callVault (some d.expiresAt) send)) := by
  have hcheck : f.alone d (CredentialFetcher.checkDeadline (some d.expiresAt)) =
      expiry (some (timed d .vaultClock)) := Interleave.Program.alone_perform _
  rw [alone,CredentialFetcher.callVault,Interleave.Program.alone_tryCatch]
  apply Surfaces.tryCatch (B:=fun e l => e = .deadlineExceeded ∧ Lost d.expiresAt l)
  · simp only [Interleave.Program.alone_bind,hcheck]
    apply (vaultCheck_surfaces d).bind
    intro _
    apply hsend.bind
    intro response
    exact (vaultCheck_surfaces d).bind fun _ => Surfaces.pure response
  · intro e
    unfold CredentialFetcher.asDependency
    split <;> exact Surfaces.throw _
  · rintro e l ⟨rfl,hlost⟩
    exact hlost

theorem reject_surfaces {B : CustodyError → List Reading → Prop} (lease : GrantLease) :
    Surfaces (Calm d.expiresAt) B (f.alone (α:=α) d (CredentialFetcher.reject lease)) := by
  simp only [alone,CredentialFetcher.reject,Interleave.Program.alone_bind]
  apply (f.perform_surfaces d rfl).bind
  intro _
  exact (f.perform_surfaces d rfl).bind fun _ => Surfaces.throw _

theorem mintSession_surfaces (lease : GrantLease) :
    Surfaces (Calm d.expiresAt) (fun e => Blames d.expiresAt (raised e))
      (f.alone d (CredentialFetcher.mintSession lease (some d.expiresAt))) := by
  simp only [alone,CredentialFetcher.mintSession,Interleave.Program.alone_bind,
    Interleave.Program.alone_ofExcept]
  apply (Surfaces.check _).bind
  intro _
  apply (f.callVault_surfaces d (f.perform_surfaces d rfl)).bind
  intro response
  split
  · exact f.reject_surfaces d lease
  split
  · exact Surfaces.throw _
  split
  · split
    · split
      · exact f.reject_surfaces d lease
      · simp only [Interleave.Program.alone_bind,Interleave.Program.alone_ofExcept]
        exact (Surfaces.check _).bind fun _ => Surfaces.pure _
    · exact f.reject_surfaces d lease
  · exact Surfaces.throw _

theorem sync_surfaces (accessToken : String) (lease : GrantLease) :
    Surfaces (Calm d.expiresAt) (fun e => Blames d.expiresAt (raised e))
      (f.alone d (CredentialFetcher.sync accessToken lease (some d.expiresAt))) := by
  simp only [alone,CredentialFetcher.sync,Interleave.Program.alone_bind]
  apply (f.perform_surfaces d rfl).bind
  intro _
  apply (f.callVault_surfaces d (f.perform_surfaces d rfl)).bind
  intro response
  split
  · exact f.reject_surfaces d lease
  split
  · exact Surfaces.throw _
  split
  · exact Surfaces.pure _
  · exact Surfaces.throw _

theorem storeRotated_surfaces {B : CustodyError → List Reading → Prop} (lease : GrantLease)
    (rotated : Option Bytes) :
    Surfaces (Calm d.expiresAt) B (f.alone d (CredentialFetcher.storeRotated lease rotated)) := by
  cases rotated with
  | none => exact Surfaces.pure _
  | some token =>
    by_cases h : token ≠ lease.refreshToken
    · rw [CredentialFetcher.storeRotated,if_pos h]
      exact f.perform_surfaces d rfl
    · rw [CredentialFetcher.storeRotated,if_neg h]
      exact Surfaces.pure _

theorem material_surfaces (lease : GrantLease) :
    Surfaces (Calm d.expiresAt) (fun e => Blames d.expiresAt (raised e))
      (f.observed.material (some (timed d .vaultClock)) lease) := by
  show Surfaces _ _ (f.alone d (CredentialFetcher.leaseMaterial f.decryptItem lease (some d.expiresAt)))
  simp only [alone,CredentialFetcher.leaseMaterial]
  simp only [Interleave.Program.alone_bind]
  have hrecheck {B : CustodyError → List Reading → Prop} :
      Surfaces (Calm d.expiresAt) B (f.alone d (CredentialFetcher.perform (.recheck lease))) :=
    f.perform_surfaces d rfl
  apply hrecheck.bind
  intro _
  apply (f.mintSession_surfaces d lease).bind
  rintro ⟨token,rotated⟩
  simp only [Interleave.Program.alone_ofExcept]
  apply hrecheck.bind
  intro _
  apply (f.sync_surfaces d token lease).bind
  intro document
  apply hrecheck.bind
  intro _
  apply (f.storeRotated_surfaces d lease rotated).bind
  intro _
  apply hrecheck.bind
  intro _
  apply (Surfaces.check _).bind
  intro material
  exact hrecheck.bind fun _ => Surfaces.pure material

theorem fetch_surfaces (ref : String) : Surfaces (Calm d.expiresAt) (Blames d.expiresAt)
    (f.observed.fetch (some (timed d .clock)) (some (timed d .vaultClock)) ref) := by
  apply Surfaces.rethrow
  apply (Surfaces.silently _).bind
  intro lease
  refine Surfaces.bind ?_ fun _ => f.material_surfaces d lease
  apply Surfaces.rethrow
  refine (checkDeadline_surfaces d).conseq ?_
  intro e l h
  cases e with
  | deadlineExceeded _ => exact h
  | _ => cases h

/-- What the gate raises of a passed deadline. -/
abbrev GateBlames (expiresAt : Time) (e : CustodyError ⊕ Raised) : List Reading → Prop :=
  Blames expiresAt (Sum.elim raised id e)

theorem own_surfaces {m : Op CustodyError σ α} :
    Surfaces (Calm d.expiresAt) (GateBlames d.expiresAt) (own (silently m)) :=
  Surfaces.rethrow (Surfaces.silently m)

theorem within_surfaces {m : Operation (Logged σ Reading) α}
    (h : Surfaces (Calm d.expiresAt) (Blames d.expiresAt) m) :
    Surfaces (Calm d.expiresAt) (GateBlames d.expiresAt) (within m) :=
  Surfaces.rethrow h

theorem withinCheck_surfaces : Surfaces (Calm d.expiresAt) (GateBlames d.expiresAt)
    (within (checkDeadline (some (timed d .clock)))) :=
  within_surfaces d ((checkDeadline_surfaces d).conseq fun _ _ => BlamesDeadline.blames)

/-- A lock that is not acquired in time is the deadline's. -/
theorem acquired_surfaces (grantId : GrantId) (timeout : Time) {rest : Gated (Logged σ Reading) α}
    (hrest : Surfaces (Calm d.expiresAt) (GateBlames d.expiresAt) rest) :
    Surfaces (Calm d.expiresAt) (GateBlames d.expiresAt) (do
      let acquired ← ((f.observed.acquire grantId timeout : StateM _ Bool) : Gated (Logged σ Reading) Bool)
      if !acquired then throw (.inr (.deadlineExceeded "broker deadline expired")) else rest) := by
  intro l hl
  rw [exec_bind]
  have hacquire : exec ((f.observed.acquire grantId timeout : StateM _ Bool) : Gated (Logged σ Reading) Bool) l =
      (.ok ((f.acquire grantId timeout).run l.state).1,⟨((f.acquire grantId timeout).run l.state).2,
        if ((f.acquire grantId timeout).run l.state).1 then l.log else l.log ++ [.lockTimeout]⟩) := rfl
  rw [hacquire]
  cases ((f.acquire grantId timeout).run l.state).1 with
  | true => exact hrest ⟨_,l.log⟩ hl
  | false => exact .inr (hl.late rfl rfl)

theorem lockForGrant_surfaces (grantId : GrantId) : Surfaces (Calm d.expiresAt) (GateBlames d.expiresAt)
    (f.observed.lockForGrant (some (timed d .clock)) grantId) := by
  apply (within_surfaces d ((check_surfaces d).conseq fun _ _ => BlamesDeadline.blames)).bind
  intro timeout
  exact f.acquired_surfaces d grantId timeout (withinCheck_surfaces d)

theorem asCustody_surfaces (e : CustodyError ⊕ Raised) :
    Surfaces (Calm d.expiresAt) (GateBlames d.expiresAt)
      (asCustody (α:=α) (some (timed d .clock)) e) := by
  have hdeadline := (withinCheck_surfaces d).bind fun _ => Surfaces.throw (α:=α)
    (Sum.inl (.grantCustody "grant custody store is unavailable"))
  rcases e with e | e
  · cases e <;> first | exact hdeadline | exact Surfaces.throw _
  · exact Surfaces.throw _

/-- What is blamed already is raised further. -/
theorem asCustody_blames (e : CustodyError ⊕ Raised) :
    Triple (fun l => GateBlames d.expiresAt e l.log) (asCustody (α:=α) (some (timed d .clock)) e)
      (Raises (GateBlames d.expiresAt)) := by
  intro l hl
  rcases e with e | e
  · cases e <;> first | exact hl | exact hl.elim
  · exact hl

theorem transaction_surfaces (ref : String) {body : GrantLease → Gated (Logged σ Reading) α}
    (h : ∀ lease, Surfaces (Calm d.expiresAt) (GateBlames d.expiresAt) (body lease)) :
    Surfaces (Calm d.expiresAt) (GateBlames d.expiresAt) (f.observed.transaction ref body) := by
  apply Surfaces.tryCatch (B:=GateBlames d.expiresAt)
  · apply (own_surfaces d).bind
    intro _
    apply (own_surfaces d).bind
    intro lease
    apply (h lease).bind
    intro result
    exact (own_surfaces d).bind fun _ => Surfaces.pure result
  · intro e l hl
    exact .inl hl
  · intro e l hl
    exact hl

theorem authorizedOperation_surfaces (ref : String) {body : GrantLease → Gated (Logged σ Reading) α}
    (h : ∀ lease, Surfaces (Calm d.expiresAt) (GateBlames d.expiresAt) (body lease)) :
    Surfaces (Calm d.expiresAt) (GateBlames d.expiresAt)
      (f.observed.authorizedOperation (some (timed d .clock)) ref body) := by
  have hcheck := withinCheck_surfaces d
  apply (Surfaces.rethrow (Surfaces.check _)).bind
  intro grantId
  apply (own_surfaces d).bind
  intro _
  apply (f.lockForGrant_surfaces d grantId).bind
  intro _
  apply Surfaces.tryCatch (B:=GateBlames d.expiresAt)
  · exact hcheck.bind fun _ => hcheck.bind fun _ => hcheck.bind fun _ => f.transaction_surfaces d ref h
  · exact asCustody_surfaces d
  · exact asCustody_blames d

theorem runAuthorized_surfaces (authorization : GrantAuthorization)
    {operation : Option CredentialMaterial → Operation (Logged σ Reading) AdapterResult}
    (h : ∀ material, Surfaces (Calm d.expiresAt) (BlamesDeadline d.expiresAt) (operation material)) :
    Surfaces (Calm d.expiresAt) (Blames d.expiresAt)
      (f.observed.runAuthorized (some (timed d .clock)) (some (timed d .vaultClock)) authorization
        operation) := by
  apply Surfaces.rethrow
  apply (Surfaces.rethrow (Surfaces.check _)).bind
  intro expected
  apply f.authorizedOperation_surfaces d
  intro lease
  apply (withinCheck_surfaces d).bind
  intro _
  apply Surfaces.ite
  · exact Surfaces.throw_bind _
  apply Surfaces.ite
  · exact Surfaces.throw_bind _
  have hmaterial : Surfaces (Calm d.expiresAt) (GateBlames d.expiresAt)
      (own (f.observed.material (some (timed d .vaultClock)) lease)) :=
    Surfaces.rethrow (f.material_surfaces d lease)
  apply hmaterial.bind
  intro material
  apply (within_surfaces d ((h (some material)).conseq fun _ _ => BlamesDeadline.blames)).bind
  intro result
  exact (own_surfaces d).bind fun _ => Surfaces.pure result

end Fetcher
end Layers

section Stages

variable (d : BrokerDeadline σ)

theorem invokeWithDeadline_surfaces {B : Raised → List Reading → Prop}
    (hB : ∀ e l, BlamesDeadline d.expiresAt e l → B e l) {call : Operation (Logged σ Reading) α}
    (h : Surfaces (Calm d.expiresAt) B call) :
    Surfaces (Calm d.expiresAt) B (invokeWithDeadline (some (timed d .clock)) call) :=
  ((checkDeadline_surfaces d).conseq hB).bind fun _ => h

namespace Runtime

variable (r : Runtime σ δ τ κ) (intent : LoginIntent)

/-- The coordinator of the watched login. -/
abbrev watchedCoordinator : BrokerCoordinator (Logged σ Reading) δ τ CredentialMaterial :=
  r.observed.coordinator (timed r.deadline .clock) (timed r.deadline .vaultClock)

abbrev watchedDeadline : Option (BrokerDeadline (Logged σ Reading)) := some (timed r.deadline .clock)

theorem resolveBinding_surfaces : Surfaces (Calm r.deadline.expiresAt) (BlamesDeadline r.deadline.expiresAt)
    (r.watchedCoordinator.service.resolveBinding r.watchedDeadline intent) := by
  apply (invokeWithDeadline_surfaces r.deadline (fun _ _ h => h) (Steps.run_surfaces _ _)).bind
  intro binding
  exact (Surfaces.check _).bind fun _ => Surfaces.pure binding

theorem preflightTarget_surfaces (declaration : δ) :
    Surfaces (Calm r.deadline.expiresAt) (BlamesDeadline r.deadline.expiresAt)
      (r.watchedCoordinator.service.preflightTarget r.watchedDeadline intent declaration) := by
  apply (invokeWithDeadline_surfaces r.deadline (fun _ _ h => h) (Steps.run_surfaces _ _)).bind
  intro proof
  cases proof with
  | none => exact Surfaces.throw _
  | some proof => exact (checkDeadline_surfaces r.deadline).bind fun _ => Surfaces.pure proof

theorem resolveGrant_surfaces (binding : ResolvedBinding) :
    Surfaces (Calm r.deadline.expiresAt) (BlamesDeadline r.deadline.expiresAt)
      (r.watchedCoordinator.service.resolveGrant r.watchedDeadline intent binding) := by
  apply Surfaces.ite
  · exact Surfaces.throw_bind _
  apply (invokeWithDeadline_surfaces r.deadline (fun _ _ h => h) (Steps.run_surfaces _ _)).bind
  intro authorization
  exact Surfaces.ite _ (Surfaces.throw_bind _) (Surfaces.pure _)

theorem validate_surfaces : Surfaces (Calm r.deadline.expiresAt) (Blames r.deadline.expiresAt)
    (r.watchedCoordinator.validate r.watchedDeadline intent) := by
  apply ((checkDeadline_surfaces r.deadline).conseq fun _ _ => BlamesDeadline.blames).bind
  intro _
  apply Surfaces.tryCatch (B:=BlamesDeadline r.deadline.expiresAt)
  · apply (r.resolveBinding_surfaces intent).bind
    intro binding
    cases r.watchedCoordinator.service.declarations intent.siteId <;> exact Surfaces.pure _
  · intro e
    cases e <;> first | exact Surfaces.pure _ | exact Surfaces.throw _
  · intro e l hl
    cases e with
    | deadlineExceeded message => exact hl
    | _ => cases hl

theorem resolve_surfaces (declaration : δ) :
    Surfaces (Calm r.deadline.expiresAt) (Blames r.deadline.expiresAt)
      (r.watchedCoordinator.resolve r.watchedDeadline intent declaration) := by
  refine Surfaces.conseq (B:=BlamesDeadline r.deadline.expiresAt) ?_ fun _ _ => BlamesDeadline.blames
  apply (r.resolveBinding_surfaces intent).bind
  intro initialBinding
  apply (r.preflightTarget_surfaces intent declaration).bind
  intro initialTarget
  apply (r.resolveGrant_surfaces intent initialBinding).bind
  intro initialGrant
  refine Surfaces.bind ?_ fun _ => Surfaces.ite _ (Surfaces.pure _) (Surfaces.pure _)
  refine Surfaces.bind ?_ fun _ => Surfaces.pure _
  exact (r.resolveBinding_surfaces intent).bind (r.resolveGrant_surfaces intent)

theorem fetch_surfaces (initialGrant : GrantAuthorization) :
    Surfaces (Calm r.deadline.expiresAt) (Blames r.deadline.expiresAt)
      (r.watchedCoordinator.fetch
        (r.fetcher.observed.fetch r.watchedDeadline (some (timed r.deadline .vaultClock)))
        r.watchedDeadline initialGrant) := by
  apply Surfaces.ite
  · exact Surfaces.pure _
  · apply (invokeWithDeadline_surfaces r.deadline (fun _ _ => BlamesDeadline.blames)
      (r.fetcher.fetch_surfaces r.deadline _)).bind
    exact fun _ => Surfaces.pure _

theorem recheck_surfaces [DecidableEq τ] (declaration : δ) (initialTarget : τ)
    (initialGrant : GrantAuthorization) :
    Surfaces (Calm r.deadline.expiresAt) (Blames r.deadline.expiresAt)
      (r.watchedCoordinator.recheck r.watchedDeadline intent declaration initialTarget initialGrant) := by
  refine Surfaces.conseq (B:=BlamesDeadline r.deadline.expiresAt) ?_ fun _ _ => BlamesDeadline.blames
  apply (invokeWithDeadline_surfaces r.deadline (fun _ _ h => h) (Steps.run_surfaces _ _)).bind
  intro currentBinding
  apply (Surfaces.check _).bind
  intro _
  apply (r.preflightTarget_surfaces intent declaration).bind
  intro currentTarget
  apply (r.resolveGrant_surfaces intent currentBinding).bind
  intro currentGrant
  exact Surfaces.ite _ (Surfaces.pure _) (Surfaces.ite _ (Surfaces.pure _) (Surfaces.pure _))

theorem runAdapter_surfaces (declaration : δ) (initialGrant : GrantAuthorization)
    (material : Option CredentialMaterial) :
    Surfaces (Calm r.deadline.expiresAt) (Blames r.deadline.expiresAt)
      (r.watchedCoordinator.runAdapter r.watchedDeadline intent declaration initialGrant material) := by
  have hrun (capability : κ) (material : Option CredentialMaterial) :
      Surfaces (Calm r.deadline.expiresAt) (BlamesDeadline r.deadline.expiresAt)
        (invokeWithDeadline r.watchedDeadline
          ((r.adapter capability declaration material).lifted.run r.watchedDeadline)) :=
    invokeWithDeadline_surfaces r.deadline (fun _ _ h => h) (Steps.run_surfaces _ _)
  have hcheck := (checkDeadline_surfaces r.deadline).conseq fun _ _ => BlamesDeadline.blames
  simp only [BrokerCoordinator.runAdapter,invokeWithDeadline,coordinator,bind_assoc,pure_bind]
  apply hcheck.bind
  intro _
  apply ((Steps.run_surfaces r.deadline _).conseq fun _ _ => BlamesDeadline.blames).bind
  intro capability
  by_cases h : r.gated = true
  · simp only [observed,h,if_true]
    apply hcheck.bind
    intro _
    apply (r.fetcher.runAuthorized_surfaces r.deadline initialGrant (hrun capability)).bind
    exact fun _ => Surfaces.pure _
  · simp only [observed,h]
    apply hcheck.bind
    intro _
    apply ((Steps.run_surfaces r.deadline _).conseq fun _ _ => BlamesDeadline.blames).bind
    exact fun _ => Surfaces.pure _

end Runtime
end Stages

section Login

variable {expiresAt : Time}

/-- The result that reports the deadline. -/
def Reported (res : BrokerResult) : Prop :=
  res.status = "failed" ∧ res.errorCode = some "deadline_exceeded"

/-- A login ends without having found its deadline passed, or it reports it, or a request to the
vault has found it passed and it reports something else. -/
def Settled (expiresAt : Time) : Except Raised BrokerResult → World (Logged σ Reading) → Prop
  | .ok res, w => Calm expiresAt w.services.log ∨ Late expiresAt w.services.log ∧ Reported res ∨
    Lost expiresAt w.services.log ∧ ¬Reported res
  | .error _, w => Calm expiresAt w.services.log

abbrev Settles (expiresAt : Time) (m : Audited (Logged σ Reading) BrokerResult) : Prop :=
  Triple (fun w => Calm expiresAt w.services.log) m (Settled expiresAt)

/-- The clauses answer the deadline by reporting it, an unavailable dependency by another result,
and whatever they answer by emitting an event. -/
structure Answers (clauses : Raised → Option (Audited (Logged σ Reading) BrokerResult)) : Prop where
  deadline (message : String) : ∃ intent eventType res,
    clauses (.deadlineExceeded message) = some (answer intent eventType res) ∧ Reported res
  dependency (message : String) : ∃ intent eventType res,
    clauses (.dependencyUnavailable message) = some (answer intent eventType res) ∧ ¬Reported res
  answered (e : Raised) : clauses e = none ∨
    ∃ intent eventType res, clauses e = some (answer intent eventType res)

theorem answer_settles (intent : LoginIntent) (eventType : AuditEventType) (res : BrokerResult) :
    Settles (σ:=σ) expiresAt (answer intent eventType res) := fun _ h => .inl h

theorem dependencyClauses_answers (intent : LoginIntent) : Answers (σ:=σ) (dependencyClauses intent) where
  deadline _ := ⟨intent,_,_,rfl,rfl,rfl⟩
  dependency _ := ⟨intent,_,_,rfl,by simp [Reported,result]⟩
  answered e := by
    cases e <;> first | exact .inl rfl | exact .inr ⟨intent,_,_,rfl⟩

theorem resolveClauses_answers (intent : LoginIntent) : Answers (σ:=σ) (resolveClauses intent) where
  deadline _ := ⟨intent,_,_,rfl,rfl,rfl⟩
  dependency _ := ⟨intent,_,_,rfl,by simp [Reported,result]⟩
  answered e := by
    cases e <;> first | exact .inl rfl | exact .inr ⟨intent,_,_,rfl⟩

theorem adapterClauses_answers (intent : LoginIntent) : Answers (σ:=σ) (adapterClauses intent) where
  deadline _ := ⟨intent,_,_,rfl,rfl,rfl⟩
  dependency _ := ⟨intent,_,_,rfl,by simp [Reported,result]⟩
  answered e := by
    cases e <;> first | exact .inl rfl | exact .inr ⟨intent,_,_,rfl⟩

theorem attempt_settles {body : Operation (Logged σ Reading) α}
    {clauses : Raised → Option (Audited (Logged σ Reading) BrokerResult)}
    {rest : α → Audited (Logged σ Reading) BrokerResult}
    (hbody : Surfaces (Calm expiresAt) (Blames expiresAt) body) (hclauses : Answers clauses)
    (hrest : ∀ x, Settles expiresAt (rest x)) : Settles expiresAt (attempt body clauses rest) := by
  intro w hw
  have h := hbody w.services hw
  rw [exec_attempt]
  rcases hr : exec body w.services with ⟨e | x,l⟩
  · rw [hr] at h
    dsimp only
    rcases h with h | h
    · rcases hclauses.answered e with he | ⟨intent,eventType,res,he⟩
      · rw [he]
        exact h
      · rw [he]
        exact .inl h
    · cases e with
      | deadlineExceeded message =>
        obtain ⟨intent,eventType,res,he,hres⟩ := hclauses.deadline message
        rw [he]
        exact .inr (.inl ⟨h,hres⟩)
      | dependencyUnavailable message =>
        obtain ⟨intent,eventType,res,he,hres⟩ := hclauses.dependency message
        rw [he]
        exact .inr (.inr ⟨h,hres⟩)
      | _ => cases h
  · rw [hr] at h
    exact hrest x { w with services := l } h

variable [DecidableEq τ] (r : Runtime σ δ τ κ) (intent : LoginIntent)

theorem Runtime.watched_settles : Settles r.deadline.expiresAt (r.watched intent) := by
  apply attempt_settles (r.validate_surfaces intent) (dependencyClauses_answers intent)
  rintro (refusal | declaration)
  · exact answer_settles _ _ _
  apply attempt_settles (r.resolve_surfaces intent declaration) (resolveClauses_answers intent)
  rintro (_ | ⟨initialTarget,initialGrant⟩)
  · exact answer_settles _ _ _
  apply attempt_settles (r.fetch_surfaces initialGrant) (dependencyClauses_answers intent)
  intro material
  apply attempt_settles (r.recheck_surfaces intent declaration initialTarget initialGrant)
    (resolveClauses_answers intent)
  rintro (_ | _ | _)
  · apply attempt_settles (r.runAdapter_surfaces intent declaration initialGrant material)
      (adapterClauses_answers intent)
    exact fun res => answer_settles _ _ res
  · exact answer_settles _ _ _
  · exact answer_settles _ _ _

/-- A deadline that is found passed is reported exactly if no request to the vault finds it so. -/
theorem deadline_reported_iff (w : World σ) :
    ((∃ o ∈ r.readings intent w, o.expired r.deadline.expiresAt = true) →
      ∃ res, (exec (r.execute intent) w).1 = .ok res ∧ res.status = "failed" ∧
        res.errorCode = some "deadline_exceeded") ↔
    ∀ o ∈ r.readings intent w, o.inVault = true → o.expired r.deadline.expiresAt = false := by
  have hsettled := r.watched_settles intent ⟨⟨w.services,[]⟩,w.emitted⟩ nofun
  have hsame : (exec (r.execute intent) w).1 =
      (exec (r.watched intent) ⟨⟨w.services,[]⟩,w.emitted⟩).1 :=
    congrArg Prod.fst (r.watched_projects intent ⟨⟨w.services,[]⟩,w.emitted⟩)
  rw [hsame]
  unfold Runtime.readings
  rcases hr : exec (r.watched intent) ⟨⟨w.services,[]⟩,w.emitted⟩ with ⟨e | res,w'⟩
  · rw [hr] at hsettled
    have hcalm : Calm r.deadline.expiresAt w'.services.log := hsettled
    constructor
    · exact fun _ o ho _ => hcalm o ho
    · rintro - ⟨o,ho,hexpired⟩
      rw [hcalm o ho] at hexpired
      cases hexpired
  · rw [hr] at hsettled
    rcases hsettled with hcalm | ⟨hlate,hres⟩ | ⟨⟨o,ho,hv,hexpired⟩,hres⟩
    · constructor
      · exact fun _ o ho _ => hcalm o ho
      · rintro - ⟨o,ho,hexpired⟩
        rw [hcalm o ho] at hexpired
        cases hexpired
    · exact ⟨fun _ => hlate.2,fun _ _ => ⟨res,rfl,hres⟩⟩
    · constructor
      · intro h
        obtain ⟨res',h',hreported⟩ := h ⟨o,ho,hexpired⟩
        cases h'
        exact absurd hreported hres
      · intro h
        rw [h o ho hv] at hexpired
        cases hexpired

end Login

section Counterexample

def grantA : GrantAuthorization :=
  ⟨"grantref:v1.Zw","profile-a","alice","browser-a","generation-a","site-a","tab",1,Nat.one_pos,
    by decide⟩

def leaseA : GrantLease where
  grantId := ⟨"g",by decide,by decide,by decide⟩
  epoch := 1
  scope := scopeOf grantA
  itemRef := "item"
  kUser := []
  vaultKey := []
  refreshToken := []

/-- A vault whose answer to the token call is in when the clock has got to six. -/
def slowVault : Fetcher Time where
  act
    | .selectAuthorization _ => throw .other
    | .selectScope _ => pure ()
    | .beginImmediate => pure ()
    | .checkout _ => return leaseA
    | .recheck _ => pure ()
    | .deadline _ => pure ()
    | .postToken _ => do
      set (6 : Time)
      return ⟨200,none⟩
    | .getSync _ _ => throw .osError
    | .rotate _ _ => pure ()
    | .invalidate _ => pure ()
    | .commit => pure ()
    | .rollback => pure ()
    | .startOperation _ _ => pure ()
    | .endOperation _ => pure ()
  acquire _ _ := return true
  rollback := pure ()
  decryptItem _ _ _ := .error (.grantMaterial "vault cipher is unavailable")

def bindingA : ResolvedBinding := ⟨"profile-a","alice","browser-a","site-a","generation-a",false⟩

def runtimeA : Runtime Time Unit Unit Unit where
  bindingResolver _ := .done (.ok bindingA)
  declarations _ := some ()
  grantResolver _ _ _ := .done (.ok grantA)
  targetPreflight _ _ := .done (.ok (some ()))
  resolvePreFill _ := .done (.ok bindingA)
  adapterSelector _ _ _ := .done (.ok ())
  adapter _ _ _ := .done (.error (.browserUnavailable "browser readiness is unavailable"))
  fetcher := slowVault
  gated := true
  deadline := { expiresAt := 5, monotonicClock := get }

def intentA : LoginIntent where
  requestId := "request-a"
  profileId := "profile-a"
  principalId := "alice"
  browserId := "browser-a"
  siteId := "site-a"
  targetTabId := some "tab"

/-- The deadline passes in a token call, and the result reports an unavailable dependency. -/
theorem vault_deadline_unreported : ¬∀ (r : Runtime Time Unit Unit Unit) (intent : LoginIntent)
    (w : World Time), (∃ o ∈ r.readings intent w, o.expired r.deadline.expiresAt = true) →
      ∃ res, (exec (r.execute intent) w).1 = .ok res ∧ res.status = "failed" ∧
        res.errorCode = some "deadline_exceeded" := by
  intro h
  have hrun : ((exec (runtimeA.execute intentA) ⟨0,[]⟩).1.toOption.map (·.errorCode) =
        some (some "dependency_unavailable") ∧
      .vaultClock 6 ∈ runtimeA.readings intentA ⟨0,[]⟩) := by decide +kernel
  obtain ⟨res,hres,-,hcode⟩ := h runtimeA intentA ⟨0,[]⟩ ⟨.vaultClock 6,hrun.2,by decide +kernel⟩
  have hother := hrun.1
  rw [hres] at hother
  simp [Except.toOption,hcode] at hother

end Counterexample
end BrokerRuntime
end CloudBrowser
