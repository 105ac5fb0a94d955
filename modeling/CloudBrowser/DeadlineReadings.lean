import CloudBrowser.BrokerRuntime

/-! What a login answers when its deadline has passed: the readings of the deadline's clock are
logged, those of the vault's requests apart from the others. -/
namespace CloudBrowser
namespace BrokerRuntime

open Stateful LoginCoordinator
open GrantCustody (CustodyError GrantId GrantLease)
open VaultItems (CredentialMaterial)
open CredentialFetcher (Action Answer)
open Idempotency (BrokerResult)

variable {σ δ τ κ α : Type}

section Readings

/-- A reading of the deadline's clock, in a request to the vault or elsewhere, or a lock that is not
acquired in the time that is left. -/
inductive Reading
  | clock (now : Time)
  | vaultClock (now : Time)
  | lockTimeout
  deriving DecidableEq

def Reading.expired (expiresAt : Time) : Reading → Bool
  | .clock now => expiresAt ≤ now
  | .vaultClock now => expiresAt ≤ now
  | .lockTimeout => true

def Reading.inVault : Reading → Bool
  | .vaultClock _ => true
  | _ => false

def timed (d : BrokerDeadline σ) (entry : Time → Reading) : BrokerDeadline (Logged σ Reading) where
  expiresAt := d.expiresAt
  monotonicClock l := ((d.monotonicClock.run l.state).1,
    ⟨(d.monotonicClock.run l.state).2,l.log ++ [entry (d.monotonicClock.run l.state).1]⟩)

def Steps.lifted {ω : Type} : Steps σ α → Steps (Logged σ ω) α
  | .done r => .done r
  | .check rest => .check rest.lifted
  | .ask request rest => .ask (silently request) fun answer => (rest answer).lifted

def Fetcher.observed (f : Fetcher σ) : Fetcher (Logged σ Reading) where
  act a := silently (f.act a)
  acquire grantId timeout l := (((f.acquire grantId timeout).run l.state).1,
    ⟨((f.acquire grantId timeout).run l.state).2,
      if ((f.acquire grantId timeout).run l.state).1 then l.log else l.log ++ [.lockTimeout]⟩)
  rollback l := ((),{ l with state := (f.rollback.run l.state).2 })
  decryptItem := f.decryptItem

def Runtime.observed (r : Runtime σ δ τ κ) : Runtime (Logged σ Reading) δ τ κ where
  bindingResolver intent := (r.bindingResolver intent).lifted
  declarations := r.declarations
  grantResolver binding siteId targetTabId := (r.grantResolver binding siteId targetTabId).lifted
  targetPreflight intent declaration := (r.targetPreflight intent declaration).lifted
  resolvePreFill intent := (r.resolvePreFill intent).lifted
  adapterSelector siteId declaration intent := (r.adapterSelector siteId declaration intent).lifted
  adapter capability declaration material := (r.adapter capability declaration material).lifted
  fetcher := r.fetcher.observed
  gated := r.gated
  deadline := timed r.deadline .clock

variable [DecidableEq τ]

/-- The login with its readings logged. -/
def Runtime.watched (r : Runtime σ δ τ κ) (intent : LoginIntent) :
    Audited (Logged σ Reading) BrokerResult :=
  r.observed.executeWith (timed r.deadline .clock) (timed r.deadline .vaultClock) intent

/-- The readings of a login, in their order. -/
def Runtime.readings (r : Runtime σ δ τ κ) (intent : LoginIntent) (w : World σ) : List Reading :=
  (exec (r.watched intent) ⟨⟨w.services,[]⟩,w.emitted⟩).2.services.log

end Readings

section Unobserved

theorem exec_timed (d : BrokerDeadline σ) (entry : Time → Reading) (l : Logged σ Reading) :
    exec (timed d entry).check l = ((exec d.check l.state).1,⟨(exec d.check l.state).2,
      l.log ++ [entry (d.monotonicClock.run l.state).1]⟩) := by
  rw [exec_deadlineCheck,exec_deadlineCheck]
  by_cases h : d.expiresAt ≤ (d.monotonicClock.run l.state).1
  · rw [if_pos h]
    exact if_pos h
  · rw [if_neg h]
    exact if_neg h

theorem check_timed (d : BrokerDeadline σ) (entry : Time → Reading) :
    Projects Logged.state (timed d entry).check d.check := by
  intro l
  rw [exec_timed]

theorem checkDeadline_timed (d : BrokerDeadline σ) (entry : Time → Reading) :
    Projects Logged.state (checkDeadline (some (timed d entry))) (checkDeadline (some d)) :=
  (check_timed d entry).bind fun _ => Projects.pure _

variable (d : BrokerDeadline σ) (entry vaultEntry : Time → Reading)

theorem Steps.run_projects (q : Steps σ α) :
    Projects Logged.state (q.lifted.run (some (timed d entry))) (q.run (some d)) := by
  induction q with
  | done r => exact Projects.check r
  | check rest ih => exact (checkDeadline_timed d entry).bind fun _ => ih
  | ask request rest ih => exact (Projects.silently request).bind fun answer => ih answer

namespace Fetcher

variable (f : Fetcher σ)

theorem expiry_projects : Projects Logged.state (expiry (some (timed d entry))) (expiry (some d)) :=
  (checkDeadline_timed d entry).rethrow _

theorem perform_projects (a : Action) :
    Projects Logged.state (f.observed.perform (some (timed d entry)) a) (f.perform (some d) a) := by
  cases a with
  | deadline expiresAt => exact expiry_projects d entry
  | _ => exact Projects.silently _

theorem material_projects (lease : GrantLease) :
    Projects Logged.state (f.observed.material (some (timed d entry)) lease) (f.material (some d) lease) :=
  Interleave.Program.alone_projects (f.perform_projects d entry) _

theorem fetch_projects (ref : String) :
    Projects Logged.state (f.observed.fetch (some (timed d entry)) (some (timed d vaultEntry)) ref)
      (f.fetch (some d) (some d) ref) := by
  apply Projects.rethrow
  apply (Projects.silently _).bind
  intro lease
  apply (expiry_projects d entry).bind
  intro _
  exact f.material_projects d vaultEntry lease

theorem acquire_projects (grantId : GrantId) (timeout : Time) :
    Projects Logged.state ((f.observed.acquire grantId timeout : StateM _ Bool) : Gated (Logged σ Reading) Bool)
      ((f.acquire grantId timeout : StateM σ Bool) : Gated σ Bool) := by
  intro l
  rfl

theorem rollback_projects :
    Projects Logged.state ((f.observed.rollback : StateM _ Unit) : Gated (Logged σ Reading) Unit)
      ((f.rollback : StateM σ Unit) : Gated σ Unit) := by
  intro l
  rfl

theorem lockForGrant_projects (grantId : GrantId) :
    Projects Logged.state (f.observed.lockForGrant (some (timed d entry)) grantId)
      (f.lockForGrant (some d) grantId) := by
  apply ((check_timed d entry).rethrow _).bind
  intro timeout
  apply (f.acquire_projects grantId timeout).bind
  intro acquired
  exact Projects.ite _ (Projects.throw_bind _) ((checkDeadline_timed d entry).rethrow _)

theorem asCustody_projects (e : CustodyError ⊕ Raised) :
    Projects Logged.state (asCustody (α:=α) (some (timed d entry)) e) (asCustody (some d) e) := by
  have hdeadline := ((checkDeadline_timed d entry).rethrow (Sum.inr (α:=CustodyError))).bind
    fun _ => Projects.throw (α:=α) (Sum.inl (.grantCustody "grant custody store is unavailable"))
  rcases e with e | e
  · cases e <;> first | exact hdeadline | exact Projects.throw _
  · exact Projects.throw _

theorem transaction_projects (ref : String) {body' : GrantLease → Gated (Logged σ Reading) α}
    {body : GrantLease → Gated σ α} (h : ∀ lease, Projects Logged.state (body' lease) (body lease)) :
    Projects Logged.state (f.observed.transaction ref body') (f.transaction ref body) := by
  apply Projects.tryCatch
  · apply ((Projects.silently _).rethrow _).bind
    intro _
    apply ((Projects.silently _).rethrow _).bind
    intro lease
    apply (h lease).bind
    intro result
    exact ((Projects.silently _).rethrow _).bind fun _ => Projects.pure _
  · intro e
    exact f.rollback_projects.bind fun _ => Projects.throw _

theorem authorizedOperation_projects (ref : String) {body' : GrantLease → Gated (Logged σ Reading) α}
    {body : GrantLease → Gated σ α} (h : ∀ lease, Projects Logged.state (body' lease) (body lease)) :
    Projects Logged.state (f.observed.authorizedOperation (some (timed d entry)) ref body')
      (f.authorizedOperation (some d) ref body) := by
  have hcheck := (checkDeadline_timed d entry).rethrow (Sum.inr (α:=CustodyError))
  apply ((Projects.check _).rethrow _).bind
  intro grantId
  apply ((Projects.silently _).rethrow _).bind
  intro _
  apply (f.lockForGrant_projects d entry grantId).bind
  intro _
  apply Projects.tryCatch
  · exact hcheck.bind fun _ => hcheck.bind fun _ => hcheck.bind fun _ => f.transaction_projects ref h
  · exact asCustody_projects d entry

theorem runAuthorized_projects (authorization : GrantAuthorization)
    {operation' : Option CredentialMaterial → Operation (Logged σ Reading) AdapterResult}
    {operation : Option CredentialMaterial → Operation σ AdapterResult}
    (h : ∀ material, Projects Logged.state (operation' material) (operation material)) :
    Projects Logged.state
      (f.observed.runAuthorized (some (timed d entry)) (some (timed d vaultEntry)) authorization operation')
      (f.runAuthorized (some d) (some d) authorization operation) := by
  apply Projects.rethrow
  apply ((Projects.check _).rethrow _).bind
  intro expected
  apply f.authorizedOperation_projects
  intro lease
  apply ((checkDeadline_timed d entry).rethrow _).bind
  intro _
  apply Projects.ite
  · exact Projects.throw_bind _
  apply Projects.ite
  · exact Projects.throw_bind _
  apply ((f.material_projects d vaultEntry lease).rethrow _).bind
  intro material
  apply ((h (some material)).rethrow _).bind
  intro result
  exact ((Projects.silently _).rethrow _).bind fun _ => Projects.pure _

end Fetcher

namespace Runtime

variable (r : Runtime σ δ τ κ)

theorem observed_simulates :
    (r.observed.coordinator (timed r.deadline .clock) (timed r.deadline .vaultClock)).Simulates
      Logged.state (r.coordinator r.deadline r.deadline) where
  service :=
    { bindingResolver := fun _ => Steps.run_projects _ _ _
      declarations := rfl
      grantResolver := fun _ _ _ => Steps.run_projects _ _ _
      targetPreflight := fun _ _ => Steps.run_projects _ _ _ }
  resolvePreFill _ := Steps.run_projects _ _ _
  adapterSelector siteId declaration intent rest' rest hrest := by
    simp only [coordinator,bind_assoc,pure_bind]
    apply (Steps.run_projects _ _ _).bind
    intro capability
    apply hrest
    exact fun _ _ => Steps.run_projects _ _ _
  authorizationGate := by
    by_cases h : r.gated = true
    · simp only [coordinator,observed,h,if_true]
      refine ⟨rfl,?_⟩
      intro authorization operation' operation hoperation
      exact r.fetcher.runAuthorized_projects r.deadline _ _ authorization hoperation
    · simp [coordinator,observed,h]

/-- Watching the clock does not change the login. -/
theorem watched_projects [DecidableEq τ] (intent : LoginIntent) :
    Projects (World.seen Logged.state) (r.watched intent) (r.execute intent) :=
  r.observed_simulates.execute (r.fetcher.fetch_projects r.deadline _ _)
    (checkDeadline_timed r.deadline _) intent

end Runtime
end Unobserved
end BrokerRuntime
end CloudBrowser
