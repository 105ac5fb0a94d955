import CloudBrowser.ObservedLogin

/-! What a login has called, and with which answers, when it fetches the credentials and when it
runs the login adapter. -/
namespace CloudBrowser
namespace LoginCoordinator

open Stateful
open Idempotency (BrokerResult)

variable {σ δ τ μ α : Type}

section Permitted

variable (intent : LoginIntent) (declaration : δ) (target : τ) (grant : GrantAuthorization)

/-- The binding is valid for the intent, and the grant names it, with its site and its target. -/
structure Agrees (binding : ResolvedBinding) : Prop where
  valid : validateBinding intent binding = .ok ()
  matched : grant.matches binding intent.siteId (intent.targetTabId.getD "") = true

/-- The calls up to the recheck of the grant: the binding, the target and the grant have been
resolved, and the recheck has found the same grant. -/
inductive Cleared : List (Call δ τ) → Prop
  | mk {declared binding current : ResolvedBinding} (valid : validateBinding intent declared = .ok ())
      (agrees : Agrees intent grant binding) (rechecked : Agrees intent grant current) :
      Cleared [.binding intent (.ok declared),.binding intent (.ok binding),
        .preflight intent declaration (.ok (some target)),
        .grant binding intent.siteId (intent.targetTabId.getD "") (.ok grant),
        .binding intent (.ok current),
        .grant current intent.siteId (intent.targetTabId.getD "") (.ok grant)]

/-- The calls up to the fill: before it, the binding has been found valid again, and the target and
the grant unchanged. -/
inductive Confirmed : List (Call δ τ) → Prop
  | mk {cleared fetched : List (Call δ τ)} {binding : ResolvedBinding}
      (cleared_before : Cleared intent declaration target grant cleared)
      (fetched_once : fetched = [] ∨ fetched = [.fetch grant.usernameRef])
      (agrees : Agrees intent grant binding) :
      Confirmed (cleared ++ fetched ++ [.preFill intent (.ok binding),
        .preflight intent declaration (.ok (some target)),
        .grant binding intent.siteId (intent.targetTabId.getD "") (.ok grant)])

/-- What has to be called before credentials are fetched, before the gate, and before the adapter. -/
def Permitted (before : List (Call δ τ)) : Call δ τ → Prop
  | .fetch usernameRef => ∃ declaration target grant,
    Cleared intent declaration target grant before ∧ usernameRef = grant.usernameRef
  | .gate grant => ∃ declaration target confirmed,
    Confirmed intent declaration target grant confirmed ∧ before = confirmed ++ [.select]
  | .adapter _ => ∃ declaration target grant confirmed,
    Confirmed intent declaration target grant confirmed ∧
      (before = confirmed ++ [.select] ∨ before = confirmed ++ [.select,.gate grant])
  | _ => True

variable {intent declaration target grant} {l : List (Call δ τ)}

theorem Cleared.no_release (h : Cleared intent declaration target grant l) :
    ∀ call ∈ l, call.isFetch = false ∧ call.isAdapter = false := by
  cases h
  simp [Call.isFetch,Call.isAdapter]

theorem Confirmed.no_adapter (h : Confirmed intent declaration target grant l) :
    ∀ call ∈ l, call.isAdapter = false := by
  obtain ⟨hcleared,hfetched,-⟩ := h
  intro call hcall
  simp only [List.mem_append] at hcall
  rcases hcall with (hcall | hcall) | hcall
  · exact (hcleared.no_release call hcall).2
  · rcases hfetched with rfl | rfl <;> simp at hcall
    simp [hcall,Call.isAdapter]
  · simp only [List.mem_cons,List.not_mem_nil,or_false] at hcall
    rcases hcall with rfl | rfl | rfl <;> rfl

/-- No second fetch is permitted. -/
theorem Permitted.first_fetch {call : Call δ τ} (h : Permitted intent l call) (hf : call.isFetch = true) :
    ∀ e ∈ l, e.isFetch = false := by
  cases call with
  | fetch usernameRef =>
    obtain ⟨declaration,target,grant,hcleared,-⟩ := h
    exact fun e he => (hcleared.no_release e he).1
  | _ => cases hf

/-- No second run of the adapter is permitted. -/
theorem Permitted.first_adapter {call : Call δ τ} (h : Permitted intent l call) (ha : call.isAdapter = true) :
    ∀ e ∈ l, e.isAdapter = false := by
  cases call with
  | adapter r =>
    obtain ⟨declaration,target,grant,confirmed,hconfirmed,rfl | rfl⟩ := h
    · have hno := hconfirmed.no_adapter
      simpa [or_imp,forall_and,Call.isAdapter] using hno
    · have hno := hconfirmed.no_adapter
      simpa [or_imp,forall_and,Call.isAdapter] using hno
  | _ => cases ha

/-- The answer that a login has been authenticated by: that of the adapter, or of the gate around
it, and then of the adapter if the gate relays it. -/
def Reported (p : Ports σ δ τ μ) (calls : List (Call δ τ)) : Prop :=
  ∃ answer : AdapterResult, answer.status = "authenticated" ∧ answer.identityVerified = true ∧
    (p.authorizationGate = none → .adapter (.ok answer) ∈ calls) ∧
    ∀ gate, p.authorizationGate = some gate → .gated (.ok answer) ∈ calls ∧
      (gate.Relays → .adapter (.ok answer) ∈ calls)

end Permitted

section Stages

variable {a : List (Call δ τ)} (deadline : Option (BrokerDeadline σ)) (intent : LoginIntent)

theorem checkDeadline_traces {ω : Type} {J : List ω → ω → Prop} {a : List ω} :
    Traces J a (checkDeadline (deadline.map BrokerDeadline.observed)) fun _ l => l = a := by
  rintro l ⟨hl,rfl⟩
  cases deadline with
  | none => exact ⟨hl,rfl⟩
  | some d =>
    simp only [Option.map_some,checkDeadline,exec_bind,exec_deadlineCheck,BrokerDeadline.observed,
      StateT.run]
    by_cases h : d.expiresAt ≤ (d.monotonicClock l.state).1
    · simpa [h,Ensures] using hl
    · simpa [h,Ensures] using hl

theorem invokeWithDeadline_traces {ω : Type} {J : List ω → ω → Prop} {a : List ω}
    {call : Operation (Logged σ ω) α} {B : α → List ω → Prop} (h : Traces J a call B) :
    Traces J a (invokeWithDeadline (deadline.map BrokerDeadline.observed) call) B := by
  apply (checkDeadline_traces deadline).bind
  rintro _ _ rfl
  exact h

namespace BrokerService

variable (s : BrokerService σ δ τ)

theorem resolveBinding_traces :
    Traces (Permitted intent) a (s.observed.resolveBinding (deadline.map BrokerDeadline.observed) intent)
      fun binding l => l = a ++ [.binding intent (.ok binding)] ∧ validateBinding intent binding = .ok () := by
  apply (invokeWithDeadline_traces deadline (Traces.logging fun _ => trivial)).bind
  rintro binding _ ⟨rfl,-⟩
  apply Traces.check_bind
  intro _ hvalid
  exact Traces.pure ⟨rfl,hvalid⟩

theorem preflightTarget_traces (declaration : δ) :
    Traces (Permitted intent) a
      (s.observed.preflightTarget (deadline.map BrokerDeadline.observed) intent declaration)
      fun target l => l = a ++ [.preflight intent declaration (.ok (some target))] := by
  apply (invokeWithDeadline_traces deadline (Traces.logging fun _ => trivial)).bind
  rintro (_ | target) _ ⟨rfl,-⟩
  · exact Traces.throw
  · apply (checkDeadline_traces deadline).bind
    rintro _ _ rfl
    exact Traces.pure rfl

theorem resolveGrant_traces (binding : ResolvedBinding) :
    Traces (Permitted intent) a
      (s.observed.resolveGrant (deadline.map BrokerDeadline.observed) intent binding)
      fun grant l => l = a ++ [.grant binding intent.siteId (intent.targetTabId.getD "") (.ok grant)] ∧
        grant.matches binding intent.siteId (intent.targetTabId.getD "") = true := by
  unfold resolveGrant
  by_cases htab : intent.targetTabId.getD "" = ""
  · simp only [htab,if_true]
    exact Traces.throw_bind
  simp only [htab,if_false]
  apply (invokeWithDeadline_traces deadline (Traces.logging fun _ => trivial)).bind
  rintro grant _ ⟨rfl,-⟩
  by_cases hmatch : grant.matches binding intent.siteId (intent.targetTabId.getD "") = true
  · simp only [hmatch,Bool.not_true,Bool.false_eq_true,if_false]
    exact Traces.pure ⟨rfl,hmatch⟩
  · simp only [hmatch,Bool.not_false,if_true]
    exact Traces.throw_bind

theorem validateIntent_traces :
    Traces (Permitted intent) ([] : List (Call δ τ))
      (s.observed.validateIntent (deadline.map BrokerDeadline.observed) intent) fun r l => match r with
      | .inl refusal => refusal.status ≠ "authenticated"
      | .inr _ => ∃ binding, l = [.binding intent (.ok binding)] ∧ validateBinding intent binding = .ok () := by
  apply Traces.tryCatch
  · apply (s.resolveBinding_traces deadline intent).bind
    rintro binding _ ⟨rfl,hvalid⟩
    cases s.observed.declarations intent.siteId with
    | none => exact Traces.pure (by simp [result])
    | some declaration => exact Traces.pure ⟨binding,rfl,hvalid⟩
  · intro e b
    have hshared (message : String) : (validateIntent.notShared intent message).status ≠ "authenticated" := by
      unfold validateIntent.notShared
      split <;> simp [result]
    cases e <;> first
      | exact Traces.throw
      | exact Traces.pure (hshared _)
      | exact Traces.pure (by simp [result])

end BrokerService

namespace Ports

variable (p : Ports σ δ τ μ)

theorem validate_traces :
    Traces (Permitted intent) ([] : List (Call δ τ))
      (p.observed.coordinator.validate p.observed.deadline intent) fun r l => match r with
      | .inl refusal => refusal.status ≠ "authenticated"
      | .inr _ => ∃ binding, l = [.binding intent (.ok binding)] ∧ validateBinding intent binding = .ok () := by
  apply (checkDeadline_traces p.deadline).bind
  rintro _ _ rfl
  exact p.service.validateIntent_traces p.deadline intent

theorem resolve_traces (declaration : δ) {declared : ResolvedBinding}
    (hvalid : validateBinding intent declared = .ok ()) :
    Traces (Permitted intent) [.binding intent (.ok declared)]
      (p.observed.coordinator.resolve p.observed.deadline intent declaration) fun r l =>
        ∀ target grant, r = some (target,grant) → Cleared intent declaration target grant l := by
  apply (p.service.resolveBinding_traces p.deadline intent).bind
  rintro binding _ ⟨rfl,hbinding⟩
  apply (p.service.preflightTarget_traces p.deadline intent declaration).bind
  rintro target _ rfl
  apply (p.service.resolveGrant_traces p.deadline intent binding).bind
  rintro grant _ ⟨rfl,hgrant⟩
  simp only [BrokerCoordinator.revalidateGrantBeforeFetch,BrokerService.recheckGrant,bind_assoc,pure_bind]
  apply (p.service.resolveBinding_traces p.deadline intent).bind
  rintro current _ ⟨rfl,hcurrent⟩
  apply (p.service.resolveGrant_traces p.deadline intent current).bind
  rintro currentGrant _ ⟨rfl,hcurrentGrant⟩
  by_cases hsame : currentGrant = grant
  · subst hsame
    simp only [decide_true,if_true]
    apply Traces.pure
    intro _ _ h
    cases h
    exact Cleared.mk hvalid ⟨hbinding,hgrant⟩ ⟨hcurrent,hcurrentGrant⟩
  · simp only [hsame,decide_false,Bool.false_eq_true,if_false]
    apply Traces.pure
    intro _ _ h
    cases h

theorem fetch_traces {declaration : δ} {target : τ} {grant : GrantAuthorization} {cleared : List (Call δ τ)}
    (hcleared : Cleared intent declaration target grant cleared) :
    Traces (Permitted intent) cleared
      (p.observed.coordinator.fetch p.observed.fetchCredentials p.observed.deadline grant) fun _ l =>
        ∃ fetched, l = cleared ++ fetched ∧ (fetched = [] ∨ fetched = [.fetch grant.usernameRef]) := by
  unfold BrokerCoordinator.fetch
  by_cases hgate : p.observed.coordinator.gateSuppliesMaterial = true
  · rw [if_pos hgate]
    exact Traces.pure ⟨[],by simp⟩
  · rw [if_neg hgate]
    apply (invokeWithDeadline_traces p.deadline
      (Traces.logging fun _ => ⟨declaration,target,grant,hcleared,rfl⟩)).bind
    rintro _ _ ⟨rfl,-⟩
    exact Traces.pure ⟨[.fetch grant.usernameRef],rfl,.inr rfl⟩

theorem recheck_traces [DecidableEq τ] {declaration : δ} {target : τ} {grant : GrantAuthorization}
    {cleared fetched : List (Call δ τ)} (hcleared : Cleared intent declaration target grant cleared)
    (hfetched : fetched = [] ∨ fetched = [.fetch grant.usernameRef]) :
    Traces (Permitted intent) (cleared ++ fetched)
      (p.observed.coordinator.recheck p.observed.deadline intent declaration target grant) fun r l =>
        r = none → Confirmed intent declaration target grant l := by
  apply (invokeWithDeadline_traces p.deadline (Traces.logging fun _ => trivial)).bind
  rintro binding _ ⟨rfl,-⟩
  apply Traces.check_bind
  intro _ hbinding
  apply (p.service.preflightTarget_traces p.deadline intent declaration).bind
  rintro currentTarget _ rfl
  apply (p.service.resolveGrant_traces p.deadline intent binding).bind
  rintro currentGrant _ ⟨rfl,hgrant⟩
  by_cases hsame : currentGrant ≠ grant
  · rw [if_pos hsame]
    exact Traces.pure nofun
  by_cases htarget : currentTarget ≠ target
  · rw [if_neg hsame,if_pos htarget]
    exact Traces.pure nofun
  rw [if_neg hsame,if_neg htarget]
  rw [not_not] at hsame htarget
  subst hsame htarget
  apply Traces.pure
  intro _
  simpa using Confirmed.mk hcleared hfetched ⟨hbinding,hgrant⟩

end Ports

/-- The gate logs its answer, and where it relays, its operation has answered the same. -/
theorem OnceGate.runAuthorized_traces (gate : OnceGate σ μ) {declaration : δ} {target : τ}
    {grant : GrantAuthorization} {confirmed : List (Call δ τ)}
    (hconfirmed : Confirmed intent declaration target grant confirmed)
    {operation : Option μ → Operation (Logged σ (Call δ τ)) AdapterResult}
    (hoperation : ∀ material, Traces (Permitted intent) (confirmed ++ [.select,.gate grant])
      (operation material) fun answer l => .adapter (.ok answer) ∈ l) :
    Traces (Permitted intent) (confirmed ++ [.select])
      (gate.observed.runAuthorized grant operation) fun answer l => .gated (.ok answer) ∈ l ∧
        (gate.Relays → answer.status = "authenticated" → .adapter (.ok answer) ∈ l) := by
  simp only [OnceGate.runAuthorized,OnceGate.observed,bind_assoc]
  apply (Traces.note ⟨declaration,target,confirmed,hconfirmed,rfl⟩).bind
  rintro _ _ rfl
  rw [List.append_assoc]
  apply Traces.silently.bind
  rintro (answer | ⟨material,after⟩) _ ⟨rfl,s,hbefore⟩
  · simp only [bind_assoc,pure_bind]
    apply (Traces.note trivial).bind
    rintro _ _ rfl
    apply Traces.pure
    constructor
    · simp
    · intro hrelays hanswer
      have h := hrelays grant s
      rw [hbefore] at h
      exact absurd hanswer h
  · simp only [pure_bind]
    apply (hoperation material).outcome.bind
    intro r l hr
    refine (Traces.logging fun _ => trivial).conseq ?_
    rintro answer _ ⟨rfl,s',hafter⟩
    constructor
    · simp
    · intro hrelays hanswer
      have h := hrelays grant s
      rw [hbefore] at h
      exact List.mem_append_left _ (hr answer (h r s' answer hafter hanswer))

theorem resultFromAdapter_authenticated {requestId : String} {answer : AdapterResult}
    (h : (resultFromAdapter requestId answer).status = "authenticated") :
    answer.status = "authenticated" ∧ answer.identityVerified = true := by
  unfold resultFromAdapter at h
  split at h
  · simp at h
  · rename_i hverified
    by_cases hanswer : answer.identityVerified = true
    · exact ⟨h,hanswer⟩
    · exact absurd ⟨h,hanswer⟩ hverified

namespace Ports

variable (p : Ports σ δ τ μ)

theorem adapter_traces {declaration : δ} {target : τ} {grant : GrantAuthorization}
    {confirmed before : List (Call δ τ)} (hconfirmed : Confirmed intent declaration target grant confirmed)
    (hbefore : before = confirmed ++ [.select] ∨ before = confirmed ++ [.select,.gate grant])
    (adapter : Operation σ AdapterResult) :
    Traces (Permitted intent) before (invokeWithDeadline p.observed.deadline (logging .adapter adapter))
      fun answer l => .adapter (.ok answer) ∈ l := by
  apply invokeWithDeadline_traces
  refine (Traces.logging fun _ => ⟨declaration,target,grant,confirmed,hconfirmed,hbefore⟩).conseq ?_
  rintro answer _ ⟨rfl,-⟩
  simp

theorem runAdapter_traces {declaration : δ} {target : τ} {grant : GrantAuthorization}
    {confirmed : List (Call δ τ)} (hconfirmed : Confirmed intent declaration target grant confirmed)
    (material : Option μ) :
    Traces (Permitted intent) confirmed
      (p.observed.coordinator.runAdapter p.observed.deadline intent declaration grant material)
      fun r l => r.status = "authenticated" → Reported p l := by
  have hgated (gate : OnceGate σ μ) (hgate : p.authorizationGate = some gate)
      {operation : Option μ → Operation (Logged σ (Call δ τ)) AdapterResult}
      (hoperation : ∀ material, Traces (Permitted intent) (confirmed ++ [.select,.gate grant])
        (operation material) fun answer l => .adapter (.ok answer) ∈ l) :
      Traces (Permitted intent) (confirmed ++ [.select])
        (do
          checkDeadline p.observed.deadline
          let answer ← gate.observed.runAuthorized grant operation
          return resultFromAdapter intent.requestId answer)
        fun r l => r.status = "authenticated" → Reported p l := by
    apply (checkDeadline_traces p.deadline).bind
    rintro _ _ rfl
    apply (gate.runAuthorized_traces intent hconfirmed hoperation).bind
    rintro answer l ⟨hanswer,hrelays⟩
    apply Traces.pure
    intro hr
    obtain ⟨hstatus,hverified⟩ := resultFromAdapter_authenticated hr
    refine ⟨answer,hstatus,hverified,?_,?_⟩
    · intro hnone
      rw [hgate] at hnone
      cases hnone
    · intro gate' hgate'
      rw [hgate] at hgate'
      cases hgate'
      exact ⟨hanswer,fun h => hrelays h hstatus⟩
  simp only [BrokerCoordinator.runAdapter,invokeWithDeadline,Ports.observed,Ports.coordinator,
    bind_assoc,pure_bind]
  apply (checkDeadline_traces p.deadline).bind
  rintro _ _ rfl
  apply (Traces.logging fun _ => trivial).bind
  rintro adapter _ ⟨rfl,-⟩
  cases hgate : p.authorizationGate with
  | none =>
    have hrun := p.adapter_traces intent hconfirmed (.inl rfl) (adapter declaration material)
    simp only [Option.map_none,← bind_assoc]
    refine Traces.bind hrun ?_
    intro answer l hanswer
    apply Traces.pure
    intro hr
    obtain ⟨hstatus,hverified⟩ := resultFromAdapter_authenticated hr
    refine ⟨answer,hstatus,hverified,fun _ => hanswer,?_⟩
    intro gate hsome
    rw [hgate] at hsome
    cases hsome
  | some gate =>
    have hrun (material : Option μ) :=
      p.adapter_traces intent hconfirmed (.inr rfl) (adapter declaration material)
    by_cases hmaterial : gate.suppliesMaterial = true
    · simp only [Option.map_some,OnceGate.gate,OnceGate.observed,hmaterial,if_true]
      exact hgated gate hgate hrun
    · simp only [Option.map_some,OnceGate.gate,OnceGate.observed,hmaterial]
      exact hgated gate hgate fun _ => hrun material

end Ports
end Stages

section Login

variable {J : List (Call δ τ) → Call δ τ → Prop} {a : List (Call δ τ)}

/-- From the calls `a` on, only what is justified is called, and an authenticated result has left
calls in `R`. -/
def Settles (J : List (Call δ τ) → Call δ τ → Prop) (a : List (Call δ τ))
    (m : Audited (Logged σ (Call δ τ)) BrokerResult) (R : List (Call δ τ) → Prop) : Prop :=
  Triple (fun w => Justified J w.services.log ∧ w.services.log = a) m
    (Ensures (fun w => Justified J w.services.log) fun r w => r.status = "authenticated" → R w.services.log)

/-- The operation answers, and does not say that the login is authenticated. -/
def Refuses (m : Audited σ BrokerResult) : Prop :=
  ∃ intent eventType r, m = answer intent eventType r ∧ r.status ≠ "authenticated"

theorem Refuses.settles {m : Audited (Logged σ (Call δ τ)) BrokerResult} {R : List (Call δ τ) → Prop}
    (h : Refuses m) : Settles J a m R := by
  obtain ⟨intent,eventType,r,rfl,hr⟩ := h
  rintro w ⟨hw,-⟩
  exact ⟨hw,fun h => absurd h hr⟩

theorem answer_refuses (intent : LoginIntent) (eventType : AuditEventType) {r : BrokerResult}
    (h : r.status ≠ "authenticated") : Refuses (answer (σ:=σ) intent eventType r) :=
  ⟨intent,eventType,r,rfl,h⟩

theorem fail_refuses (intent : LoginIntent) (errorCode : String)
    (he : Idempotency.errorBounded (some errorCode) = true) : Refuses (fail (σ:=σ) intent errorCode he) :=
  answer_refuses intent _ (by simp [result])

theorem failOwnerMismatch_refuses (intent : LoginIntent) : Refuses (failOwnerMismatch (σ:=σ) intent) :=
  answer_refuses intent _ (by simp [result])

theorem failed_refuses (intent : LoginIntent) (errorCode : String)
    (he : Idempotency.errorBounded (some errorCode) = true) :
    Refuses (answerResult (σ:=σ) intent (result intent "failed" errorCode (by decide) he)) :=
  answer_refuses intent _ (by simp [result])

theorem notShared_refuses (intent : LoginIntent) (message : String) :
    Refuses (notShared (σ:=σ) intent message) := by
  apply answer_refuses
  split <;> simp [result]

theorem dependencyClauses_refuses (intent : LoginIntent) :
    ∀ e m, dependencyClauses (σ:=σ) intent e = some m → Refuses m := by
  intro e m hm
  cases e <;> cases hm <;> with_reducible exact fail_refuses intent _ _

theorem resolveClauses_refuses (intent : LoginIntent) :
    ∀ e m, resolveClauses (σ:=σ) intent e = some m → Refuses m := by
  intro e m hm
  cases e <;> cases hm <;> with_reducible first
    | exact fail_refuses intent _ _
    | exact notShared_refuses intent _
    | exact failOwnerMismatch_refuses intent

theorem adapterClauses_refuses (intent : LoginIntent) :
    ∀ e m, adapterClauses (σ:=σ) intent e = some m → Refuses m := by
  intro e m hm
  cases e <;> cases hm <;> with_reducible first
    | exact fail_refuses intent _ _
    | exact notShared_refuses intent _
    | exact failed_refuses intent _ _

theorem attempt_settles {body : Operation (Logged σ (Call δ τ)) α}
    {clauses : Raised → Option (Audited (Logged σ (Call δ τ)) BrokerResult)}
    {rest : α → Audited (Logged σ (Call δ τ)) BrokerResult} {B : α → List (Call δ τ) → Prop}
    {R : List (Call δ τ) → Prop} (hbody : Traces J a body B)
    (hclauses : ∀ e m, clauses e = some m → Refuses m) (hrest : ∀ x b, B x b → Settles J b (rest x) R) :
    Settles J a (attempt body clauses rest) R := by
  intro w hw
  have h := hbody w.services hw
  rw [exec_attempt]
  rcases hr : exec body w.services with ⟨e | x,l⟩
  · rw [hr] at h
    dsimp only
    cases hm : clauses e with
    | none => exact h
    | some m => exact (hclauses e m hm).settles { w with services := l } ⟨h,rfl⟩
  · rw [hr] at h
    exact hrest x l.log h.2 { w with services := l } ⟨h.1,rfl⟩

variable [DecidableEq τ] (p : Ports σ δ τ μ) (intent : LoginIntent)

theorem Ports.execute_settles :
    Settles (Permitted intent) ([] : List (Call δ τ)) (p.observed.execute intent) (Reported p) := by
  apply attempt_settles (p.validate_traces intent) (dependencyClauses_refuses intent)
  rintro (refusal | declaration) _ h
  · exact (answer_refuses intent _ h).settles
  obtain ⟨declared,rfl,hvalid⟩ := h
  apply attempt_settles (p.resolve_traces intent declaration hvalid) (resolveClauses_refuses intent)
  rintro (_ | ⟨target,grant⟩) l hl
  · exact (fail_refuses intent _ _).settles
  have hcleared := hl target grant rfl
  apply attempt_settles (p.fetch_traces intent hcleared) (dependencyClauses_refuses intent)
  rintro material _ ⟨fetched,rfl,hfetched⟩
  apply attempt_settles (p.recheck_traces intent hcleared hfetched) (resolveClauses_refuses intent)
  rintro (_ | _ | _) l hconfirmed
  · apply attempt_settles (p.runAdapter_traces intent (hconfirmed rfl) material)
      (adapterClauses_refuses intent)
    intro r l h w hw
    obtain ⟨hw,rfl⟩ := hw
    exact ⟨hw,h⟩
  · exact (fail_refuses intent _ _).settles
  · exact (fail_refuses intent _ _).settles

/-- Credentials are fetched, and the adapter is run, at most once and only as permitted by what the
ports have answered before; an authenticated result has been reported. -/
theorem credentials_gated (w : World σ) :
    Justified (Permitted intent) (p.calls intent w) ∧
      (p.calls intent w).countP Call.isFetch ≤ 1 ∧ (p.calls intent w).countP Call.isAdapter ≤ 1 ∧
      ∀ r, (exec (p.execute intent) w).1 = .ok r → r.status = "authenticated" →
        Reported p (p.calls intent w) := by
  have hrun := p.execute_settles intent ⟨⟨w.services,[]⟩,w.emitted⟩ ⟨justified_nil,rfl⟩
  have hsame := p.execute_projects intent ⟨⟨w.services,[]⟩,w.emitted⟩
  have hjustified : Justified (Permitted intent) (p.calls intent w) := hrun.always
  refine ⟨hjustified,hjustified.at_most_once fun _ _ => Permitted.first_fetch,
    hjustified.at_most_once fun _ _ => Permitted.first_adapter,?_⟩
  · intro r hr hstatus
    have hobserved : (exec (p.observed.execute intent) ⟨⟨w.services,[]⟩,w.emitted⟩).1 = .ok r := by
      rw [← hr]
      exact (congrArg Prod.fst hsame).symm
    rw [hobserved] at hrun
    exact hrun.2 hstatus

end Login

section Counterexample

/-- A gate that answers for itself. -/
def decidedGate : OnceGate Unit Unit where
  suppliesMaterial := false
  before _ := return .inl ⟨"authenticated",true,none,Idempotency.authenticated_known,Idempotency.errorCode_default,
    by decide⟩

def decidedPorts : Ports Unit Unit Unit Unit where
  service :=
    { bindingResolver := siteA.resolve none
      declarations := fun _ => some ()
      grantResolver := fun _ _ _ =>
        return ⟨"item-a","profile-a","alice","browser-a","generation-a","site-a","tab",1,by decide,by decide⟩
      targetPreflight := fun _ _ => return some () }
  resolvePreFill := siteA.resolve none
  adapterSelector := fun _ _ _ =>
    return fun _ _ => throw (.browserUnavailable "browser readiness is unavailable")
  authorizationGate := some decidedGate
  fetchCredentials _ := pure ()
  deadline := none

theorem authenticated_without_adapter : ¬∀ (p : Ports Unit Unit Unit Unit) (intent : LoginIntent)
    (w : World Unit) (r : BrokerResult), (exec (p.execute intent) w).1 = .ok r →
    r.status = "authenticated" →
      ∃ answer : AdapterResult, .adapter (.ok answer) ∈ p.calls intent w ∧ answer.identityVerified = true := by
  intro h
  let intent : LoginIntent :=
    { requestId := "request-a", profileId := "profile-a", principalId := "alice",
      browserId := "browser-a", siteId := "site-a", targetTabId := some "tab" }
  obtain ⟨answer,hcall,-⟩ := h decidedPorts intent ⟨(),[]⟩ _ rfl rfl
  have hnone : (decidedPorts.calls intent ⟨(),[]⟩).countP Call.isAdapter = 0 := by decide +kernel
  rw [List.countP_eq_zero] at hnone
  exact hnone _ hcall rfl

end Counterexample
end LoginCoordinator
end CloudBrowser
