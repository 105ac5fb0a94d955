import CloudBrowser.SimulatedLogin

/-! A login whose ports are observed: each call is logged with its outcome, and the login runs as
it does without. -/
namespace CloudBrowser
namespace LoginCoordinator

open Stateful
open Idempotency (BrokerResult)

variable {σ δ τ μ α : Type}

section Ports

/-- A gate that invokes its operation at most once: it answers for itself, or it invokes the
operation and goes on with the outcome. -/
structure OnceGate (σ μ : Type) where
  suppliesMaterial : Bool
  before : GrantAuthorization →
    Operation σ (AdapterResult ⊕ Option μ × (Except Raised AdapterResult → Operation σ AdapterResult))

def OnceGate.runAuthorized (gate : OnceGate σ μ) (authorization : GrantAuthorization)
    (operation : Option μ → Operation σ AdapterResult) : Operation σ AdapterResult := do
  match ← gate.before authorization with
  | .inl answer => return answer
  | .inr (material,after) => do
    let r ← outcome (operation material)
    after r

def OnceGate.gate (gate : OnceGate σ μ) : AuthorizationGate σ μ where
  suppliesMaterial := gate.suppliesMaterial
  runAuthorized := gate.runAuthorized

/-- The gate answers that the login is authenticated only if its operation has answered so. -/
def OnceGate.Relays (gate : OnceGate σ μ) : Prop :=
  ∀ authorization s, match (exec (gate.before authorization) s).1 with
    | .ok (.inl answer) => answer.status ≠ "authenticated"
    | .ok (.inr (_,after)) => ∀ r s' answer, (exec (after r) s').1 = .ok answer →
        answer.status = "authenticated" → r = .ok answer
    | .error _ => True

/-- All that a login of production mode is given. -/
structure Ports (σ δ τ μ : Type) where
  service : BrokerService σ δ τ
  resolvePreFill : LoginIntent → Operation σ ResolvedBinding
  adapterSelector : String → δ → LoginIntent → Operation σ (δ → Option μ → Operation σ AdapterResult)
  authorizationGate : Option (OnceGate σ μ)
  fetchCredentials : String → Operation σ μ
  deadline : Option (BrokerDeadline σ)

namespace Ports

variable [DecidableEq τ] (p : Ports σ δ τ μ)

def coordinator : BrokerCoordinator σ δ τ μ where
  service := p.service
  resolvePreFill := p.resolvePreFill
  adapterSelector := p.adapterSelector
  authorizationGate := p.authorizationGate.map OnceGate.gate

def execute (intent : LoginIntent) : Audited σ BrokerResult :=
  p.coordinator.execute p.fetchCredentials p.deadline intent

end Ports
end Ports

section Observed

/-- A call of a port, with its arguments and its outcome. -/
inductive Call (δ τ : Type)
  | binding (intent : LoginIntent) (r : Except Raised ResolvedBinding)
  | preflight (intent : LoginIntent) (declaration : δ) (r : Except Raised (Option τ))
  | grant (binding : ResolvedBinding) (siteId targetTabId : String) (r : Except Raised GrantAuthorization)
  | fetch (usernameRef : String)
  | preFill (intent : LoginIntent) (r : Except Raised ResolvedBinding)
  | select
  | gate (authorization : GrantAuthorization)
  | adapter (r : Except Raised AdapterResult)
  | gated (r : Except Raised AdapterResult)

def Call.isFetch : Call δ τ → Bool
  | .fetch _ => true
  | _ => false

def Call.isAdapter : Call δ τ → Bool
  | .adapter _ => true
  | _ => false

def BrokerService.observed (s : BrokerService σ δ τ) : BrokerService (Logged σ (Call δ τ)) δ τ where
  bindingResolver intent := logging (.binding intent) (s.bindingResolver intent)
  declarations := s.declarations
  grantResolver binding siteId targetTabId :=
    logging (.grant binding siteId targetTabId) (s.grantResolver binding siteId targetTabId)
  targetPreflight intent declaration :=
    logging (.preflight intent declaration) (s.targetPreflight intent declaration)

def BrokerDeadline.observed {ω : Type} (d : BrokerDeadline σ) : BrokerDeadline (Logged σ ω) where
  expiresAt := d.expiresAt
  monotonicClock l := ((d.monotonicClock.run l.state).1,⟨(d.monotonicClock.run l.state).2,l.log⟩)

/-- A call of the gate is logged when it begins, and when the gate answers. -/
def OnceGate.observed (gate : OnceGate σ μ) : OnceGate (Logged σ (Call δ τ)) μ where
  suppliesMaterial := gate.suppliesMaterial
  before authorization := do
    note (.gate authorization)
    match ← silently (gate.before authorization) with
    | .inl answer => do
      note (.gated (.ok answer))
      return .inl answer
    | .inr (material,after) => return .inr (material,fun r => logging .gated (after r))

def Ports.observed (p : Ports σ δ τ μ) : Ports (Logged σ (Call δ τ)) δ τ μ where
  service := p.service.observed
  resolvePreFill intent := logging (.preFill intent) (p.resolvePreFill intent)
  adapterSelector siteId declaration intent := do
    let adapter ← logging (fun _ => .select) (p.adapterSelector siteId declaration intent)
    return fun declaration material => logging .adapter (adapter declaration material)
  authorizationGate := p.authorizationGate.map OnceGate.observed
  fetchCredentials usernameRef := logging (fun _ => .fetch usernameRef) (p.fetchCredentials usernameRef)
  deadline := p.deadline.map BrokerDeadline.observed

/-- The calls that a login makes, in their order. -/
def Ports.calls [DecidableEq τ] (p : Ports σ δ τ μ) (intent : LoginIntent) (w : World σ) : List (Call δ τ) :=
  (exec (p.observed.execute intent) ⟨⟨w.services,[]⟩,w.emitted⟩).2.services.log

end Observed

section Unobserved

theorem checkDeadline_observed {ω : Type} (deadline : Option (BrokerDeadline σ)) :
    Projects (Logged.state (ω:=ω)) (checkDeadline (deadline.map BrokerDeadline.observed))
      (checkDeadline deadline) := by
  cases deadline with
  | none => exact Projects.pure ()
  | some d =>
    intro l
    simp only [Option.map_some,checkDeadline,exec_bind,exec_deadlineCheck,BrokerDeadline.observed,
      StateT.run]
    by_cases h : d.expiresAt ≤ (d.monotonicClock l.state).1
    · simp [h]
    · simp [h]

theorem BrokerService.observed_simulates (s : BrokerService σ δ τ) :
    s.observed.Simulates Logged.state s where
  bindingResolver _ := Projects.logging _ _
  declarations := rfl
  grantResolver _ _ _ := Projects.logging _ _
  targetPreflight _ _ := Projects.logging _ _

theorem OnceGate.runAuthorized_projects (gate : OnceGate σ μ) (authorization : GrantAuthorization)
    {operation' : Option μ → Operation (Logged σ (Call δ τ)) AdapterResult}
    {operation : Option μ → Operation σ AdapterResult}
    (h : ∀ material, Projects Logged.state (operation' material) (operation material)) :
    Projects Logged.state (gate.observed.runAuthorized authorization operation')
      (gate.runAuthorized authorization operation) := by
  intro l
  simp only [OnceGate.runAuthorized,OnceGate.observed,exec_bind,exec_note,exec_silently]
  rcases exec (gate.before authorization) l.state with ⟨e | answer | ⟨material,after⟩,s⟩
  · rfl
  · rfl
  · have hnext := ((h material).outcome.bind fun r => Projects.logging Call.gated (after r))
      ⟨s,l.log ++ [.gate authorization]⟩
    simpa only [exec_bind,exec_pure] using hnext

theorem Ports.observed_simulates (p : Ports σ δ τ μ) :
    p.observed.coordinator.Simulates Logged.state p.coordinator where
  service := p.service.observed_simulates
  resolvePreFill _ := Projects.logging _ _
  adapterSelector siteId declaration intent rest' rest hrest := by
    simp only [Ports.observed,Ports.coordinator,bind_assoc,pure_bind]
    apply (Projects.logging _ _).bind
    intro adapter
    apply hrest
    exact fun _ _ => Projects.logging _ _
  authorizationGate := by
    cases h : p.authorizationGate with
    | none => simp [Ports.observed,Ports.coordinator,h]
    | some gate =>
      simp only [Ports.observed,Ports.coordinator,h,Option.map_some]
      exact ⟨rfl,fun authorization _ _ => gate.runAuthorized_projects authorization⟩

/-- Observing the ports does not change the login. -/
theorem Ports.execute_projects [DecidableEq τ] (p : Ports σ δ τ μ) (intent : LoginIntent) :
    Projects (World.seen Logged.state) (p.observed.execute intent) (p.execute intent) :=
  p.observed_simulates.execute (fun _ => Projects.logging _ _) (checkDeadline_observed p.deadline) intent

end Unobserved
end LoginCoordinator
end CloudBrowser
