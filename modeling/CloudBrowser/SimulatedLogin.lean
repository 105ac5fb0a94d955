import CloudBrowser.Logged
import CloudBrowser.LoginCoordinator

/-! Two logins over different states of the services: where each port of the one runs as the port
of the other, the logins do. -/
namespace CloudBrowser
namespace LoginCoordinator

open Stateful
open Idempotency (BrokerResult)

variable {σ σ' δ τ μ α : Type} {p : σ' → σ}

section Stages

variable {deadline' : Option (BrokerDeadline σ')} {deadline : Option (BrokerDeadline σ)}
  (hdeadline : Projects p (checkDeadline deadline') (checkDeadline deadline)) (intent : LoginIntent)

theorem invokeWithDeadline_projects
    (hdeadline : Projects p (checkDeadline deadline') (checkDeadline deadline))
    {call' : Operation σ' α} {call : Operation σ α} (h : Projects p call' call) :
    Projects p (invokeWithDeadline deadline' call') (invokeWithDeadline deadline call) :=
  hdeadline.bind fun _ => h

/-- Each port of the one service runs as that of the other. -/
structure BrokerService.Simulates (p : σ' → σ) (s' : BrokerService σ' δ τ) (s : BrokerService σ δ τ) :
    Prop where
  bindingResolver (intent : LoginIntent) : Projects p (s'.bindingResolver intent) (s.bindingResolver intent)
  declarations : s'.declarations = s.declarations
  grantResolver (binding : ResolvedBinding) (siteId targetTabId : String) :
    Projects p (s'.grantResolver binding siteId targetTabId) (s.grantResolver binding siteId targetTabId)
  targetPreflight (intent : LoginIntent) (declaration : δ) :
    Projects p (s'.targetPreflight intent declaration) (s.targetPreflight intent declaration)

namespace BrokerService.Simulates

variable {s' : BrokerService σ' δ τ} {s : BrokerService σ δ τ} (h : s'.Simulates p s)
include h hdeadline

theorem resolveBinding :
    Projects p (s'.resolveBinding deadline' intent) (s.resolveBinding deadline intent) :=
  (invokeWithDeadline_projects hdeadline (h.bindingResolver intent)).bind fun _ =>
    (Projects.check _).bind fun _ => Projects.pure _

theorem preflightTarget (declaration : δ) :
    Projects p (s'.preflightTarget deadline' intent declaration)
      (s.preflightTarget deadline intent declaration) := by
  apply (invokeWithDeadline_projects hdeadline (h.targetPreflight intent declaration)).bind
  intro proof
  cases proof with
  | none => exact Projects.throw _
  | some proof => exact hdeadline.bind fun _ => Projects.pure _

theorem resolveGrant (binding : ResolvedBinding) :
    Projects p (s'.resolveGrant deadline' intent binding) (s.resolveGrant deadline intent binding) := by
  apply Projects.ite
  · exact Projects.throw_bind _
  · apply (invokeWithDeadline_projects hdeadline (h.grantResolver binding _ _)).bind
    intro authorization
    exact Projects.ite _ (Projects.throw_bind _) (Projects.pure _)

theorem recheckGrant : Projects p (s'.recheckGrant deadline' intent) (s.recheckGrant deadline intent) :=
  (h.resolveBinding hdeadline intent).bind fun binding => h.resolveGrant hdeadline intent binding

theorem validateIntent :
    Projects p (s'.validateIntent deadline' intent) (s.validateIntent deadline intent) := by
  apply Projects.tryCatch
  · apply (h.resolveBinding hdeadline intent).bind
    intro binding
    rw [h.declarations]
    cases s.declarations intent.siteId <;> exact Projects.pure _
  · intro e
    cases e <;> first | exact Projects.pure _ | exact Projects.throw _

end BrokerService.Simulates

/-- Each port of the one coordinator runs as that of the other. The adapters that are selected are
over different states; whatever goes on with them runs alike where it runs alike for adapters that
do. -/
structure BrokerCoordinator.Simulates (p : σ' → σ) (c' : BrokerCoordinator σ' δ τ μ)
    (c : BrokerCoordinator σ δ τ μ) : Prop where
  service : c'.service.Simulates p c.service
  resolvePreFill (intent : LoginIntent) : Projects p (c'.resolvePreFill intent) (c.resolvePreFill intent)
  adapterSelector (siteId : String) (declaration : δ) (intent : LoginIntent)
    (rest' : (δ → Option μ → Operation σ' AdapterResult) → Operation σ' BrokerResult)
    (rest : (δ → Option μ → Operation σ AdapterResult) → Operation σ BrokerResult)
    (hrest : ∀ adapter' adapter,
      (∀ declaration material, Projects p (adapter' declaration material) (adapter declaration material)) →
      Projects p (rest' adapter') (rest adapter)) :
    Projects p (c'.adapterSelector siteId declaration intent >>= rest')
      (c.adapterSelector siteId declaration intent >>= rest)
  authorizationGate : match c'.authorizationGate, c.authorizationGate with
    | none, none => True
    | some gate', some gate => gate'.suppliesMaterial = gate.suppliesMaterial ∧
      ∀ authorization operation' operation,
        (∀ material, Projects p (operation' material) (operation material)) →
        Projects p (gate'.runAuthorized authorization operation') (gate.runAuthorized authorization operation)
    | _, _ => False

namespace BrokerCoordinator.Simulates

variable {c' : BrokerCoordinator σ' δ τ μ} {c : BrokerCoordinator σ δ τ μ} (h : c'.Simulates p c)
include h

theorem gateSuppliesMaterial : c'.gateSuppliesMaterial = c.gateSuppliesMaterial := by
  have hgate := h.authorizationGate
  unfold BrokerCoordinator.gateSuppliesMaterial
  cases hc' : c'.authorizationGate <;> cases hc : c.authorizationGate <;> rw [hc',hc] at hgate
  · rfl
  · cases hgate
  · cases hgate
  · simpa using hgate.1

theorem fetch {fetchCredentials' : String → Operation σ' μ} {fetchCredentials : String → Operation σ μ}
    (hdeadline : Projects p (checkDeadline deadline') (checkDeadline deadline))
    (hfetch : ∀ ref, Projects p (fetchCredentials' ref) (fetchCredentials ref))
    (initialGrant : GrantAuthorization) :
    Projects p (c'.fetch fetchCredentials' deadline' initialGrant)
      (c.fetch fetchCredentials deadline initialGrant) := by
  unfold BrokerCoordinator.fetch
  rw [h.gateSuppliesMaterial]
  apply Projects.ite
  · exact Projects.pure _
  · exact (invokeWithDeadline_projects hdeadline (hfetch _)).bind fun _ => Projects.pure _

include hdeadline

theorem validate : Projects p (c'.validate deadline' intent) (c.validate deadline intent) :=
  hdeadline.bind fun _ => h.service.validateIntent hdeadline intent

theorem resolve (declaration : δ) :
    Projects p (c'.resolve deadline' intent declaration) (c.resolve deadline intent declaration) := by
  apply (h.service.resolveBinding hdeadline intent).bind
  intro initialBinding
  apply (h.service.preflightTarget hdeadline intent declaration).bind
  intro initialTarget
  apply (h.service.resolveGrant hdeadline intent initialBinding).bind
  intro initialGrant
  refine Projects.bind ?_ fun _ => Projects.ite _ (Projects.pure _) (Projects.pure _)
  exact (h.service.recheckGrant hdeadline intent).bind fun _ => Projects.pure _

theorem recheck [DecidableEq τ] (declaration : δ) (initialTarget : τ) (initialGrant : GrantAuthorization) :
    Projects p (c'.recheck deadline' intent declaration initialTarget initialGrant)
      (c.recheck deadline intent declaration initialTarget initialGrant) := by
  apply (invokeWithDeadline_projects hdeadline (h.resolvePreFill intent)).bind
  intro currentBinding
  apply (Projects.check _).bind
  intro _
  apply (h.service.preflightTarget hdeadline intent declaration).bind
  intro currentTarget
  apply (h.service.resolveGrant hdeadline intent currentBinding).bind
  intro currentGrant
  exact Projects.ite _ (Projects.pure _) (Projects.ite _ (Projects.pure _) (Projects.pure _))

theorem runAdapter (declaration : δ) (initialGrant : GrantAuthorization) (material : Option μ) :
    Projects p (c'.runAdapter deadline' intent declaration initialGrant material)
      (c.runAdapter deadline intent declaration initialGrant material) := by
  have hgate := h.authorizationGate
  simp only [BrokerCoordinator.runAdapter,invokeWithDeadline,bind_assoc]
  apply hdeadline.bind
  intro _
  apply h.adapterSelector
  intro adapter' adapter hadapter
  have hrun (material : Option μ) : Projects p
      (do checkDeadline deadline'; adapter' declaration material)
      (do checkDeadline deadline; adapter declaration material) :=
    hdeadline.bind fun _ => hadapter declaration material
  cases hc' : c'.authorizationGate <;> cases hc : c.authorizationGate <;> rw [hc',hc] at hgate
  · exact hdeadline.bind fun _ => (hadapter declaration material).bind fun _ => Projects.pure _
  · cases hgate
  · cases hgate
  · rename_i gate' gate
    obtain ⟨hsupplies,hauthorized⟩ := hgate
    dsimp only
    rw [hsupplies]
    apply Projects.ite
    · apply hdeadline.bind
      intro _
      exact (hauthorized initialGrant _ _ hrun).bind fun _ => Projects.pure _
    · apply hdeadline.bind
      intro _
      exact (hauthorized initialGrant _ _ fun _ => hrun material).bind fun _ => Projects.pure _

end BrokerCoordinator.Simulates
end Stages

section Execute

/-- The world of a login, with the services' state as `p` sees it. -/
def World.seen (p : σ' → σ) (w : World σ') : World σ := ⟨p w.services,w.emitted⟩

theorem attempt_projects {body' : Operation σ' α} {body : Operation σ α}
    {clauses' : Raised → Option (Audited σ' BrokerResult)}
    {clauses : Raised → Option (Audited σ BrokerResult)}
    {rest' : α → Audited σ' BrokerResult} {rest : α → Audited σ BrokerResult} (hbody : Projects p body' body)
    (hclauses : ∀ e, Projects (World.seen p) ((clauses' e).getD (throw e)) ((clauses e).getD (throw e)))
    (hrest : ∀ x, Projects (World.seen p) (rest' x) (rest x)) :
    Projects (World.seen p) (attempt body' clauses' rest') (attempt body clauses rest) := by
  intro w
  rw [exec_attempt,exec_attempt]
  rw [show (w.seen p).services = p w.services from rfl,hbody w.services]
  rcases exec body' w.services with ⟨e | x,s⟩
  · exact hclauses e { w with services := s }
  · exact hrest x { w with services := s }

theorem answer_projects (intent : LoginIntent) (eventType : AuditEventType) (r : BrokerResult) :
    Projects (World.seen p) (answer intent eventType r) (answer intent eventType r) :=
  fun _ => rfl

theorem dependencyClauses_projects (intent : LoginIntent) (e : Raised) :
    Projects (World.seen p) ((dependencyClauses intent e).getD (throw e))
      ((dependencyClauses intent e).getD (throw e)) := by
  intro w
  cases e <;> rfl

theorem resolveClauses_projects (intent : LoginIntent) (e : Raised) :
    Projects (World.seen p) ((resolveClauses intent e).getD (throw e))
      ((resolveClauses intent e).getD (throw e)) := by
  intro w
  cases e <;> rfl

theorem adapterClauses_projects (intent : LoginIntent) (e : Raised) :
    Projects (World.seen p) ((adapterClauses intent e).getD (throw e))
      ((adapterClauses intent e).getD (throw e)) := by
  intro w
  cases e <;> rfl

/-- Two logins whose ports run alike run alike. -/
theorem BrokerCoordinator.Simulates.execute [DecidableEq τ] {c' : BrokerCoordinator σ' δ τ μ}
    {c : BrokerCoordinator σ δ τ μ} (h : c'.Simulates p c) {fetchCredentials' : String → Operation σ' μ}
    {fetchCredentials : String → Operation σ μ}
    (hfetch : ∀ ref, Projects p (fetchCredentials' ref) (fetchCredentials ref))
    {deadline' : Option (BrokerDeadline σ')} {deadline : Option (BrokerDeadline σ)}
    (hdeadline : Projects p (checkDeadline deadline') (checkDeadline deadline)) (intent : LoginIntent) :
    Projects (World.seen p) (c'.execute fetchCredentials' deadline' intent)
      (c.execute fetchCredentials deadline intent) := by
  apply attempt_projects (h.validate hdeadline intent) (dependencyClauses_projects intent)
  rintro (refusal | declaration)
  · exact answer_projects _ _ _
  apply attempt_projects (h.resolve hdeadline intent declaration) (resolveClauses_projects intent)
  rintro (_ | ⟨initialTarget,initialGrant⟩)
  · exact answer_projects _ _ _
  apply attempt_projects (h.fetch hdeadline hfetch initialGrant) (dependencyClauses_projects intent)
  intro material
  apply attempt_projects (h.recheck hdeadline intent declaration initialTarget initialGrant)
    (resolveClauses_projects intent)
  rintro (_ | _ | _)
  · apply attempt_projects (h.runAdapter hdeadline intent declaration initialGrant material)
      (adapterClauses_projects intent)
    exact fun r => answer_projects _ _ r
  · exact answer_projects _ _ _
  · exact answer_projects _ _ _

end Execute
end LoginCoordinator
end CloudBrowser
