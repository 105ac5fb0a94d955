import Mathlib.Tactic.NormNum
import CloudBrowser.BindingPush

/-! The control API of a slot supervisor: bounded lifecycle commands under the binding the
process was started with, save a wake that brings a binding of its own. -/
namespace CloudBrowser
namespace ControlApi

open Stateful SlotSupervisor BindingPush
open AgentControl (SplitResult)

structure ControlRequest where
  operation : String
  requestId : String
  binding : Option BrowserBinding := none
  deriving DecidableEq

inductive Response
  | failed (requestId status errorCode : String)
  | done (requestId status state : String) (restoredCount : ℕ)
  deriving DecidableEq

section Requests

variable (urlsplit : String → Except Unit SplitResult) (boot : BrowserBinding)
  (request : ControlRequest) (a : Answers)

def refuse (errorCode : String) : Response :=
  .failed request.requestId "failed" errorCode

/-- The checks in front of every command. -/
def validate : Except String Unit :=
  if request.requestId = "" ∨ 128 < request.requestId.length then .error "invalid_request"
  else if request.binding.any (·.browserId ≠ boot.browserId) then .error "slot_mismatch"
  else .ok ()

/-- The binding that a wake is for. -/
def wakeBinding : BrowserBinding :=
  if request.operation = "wake" then request.binding.getD boot else boot

/-- A wake for another binding than the current one adopts it first. -/
def takeOver (binding : BrowserBinding) : Operation Bool := do
  if request.operation = "wake" ∧ binding ≠ (← get).lifecycle.binding then
    tryCatch
      (do
        let _ ← adoptBinding a binding
        return true)
      fun e => if e.isValueError then return false else throw e
  else return true

/-- The supervisor's operation. All but the wake are under the boot binding. -/
def operate (binding : BrowserBinding) : Option (Operation OrchestrationResult) :=
  match request.operation with
  | "wake" => some (wake urlsplit a binding)
  | "suspend" => some (suspend urlsplit a boot)
  | "stop" => some (stop a boot)
  | "recreate" => some (recreate urlsplit a boot)
  | _ => none

def errorCode : SlotError → String
  | .browserOwnershipChanged _ => "owner_mismatch"
  | _ => "operation_failed"

def handle : Operation Response := do
  match validate boot request with
  | .error code => return refuse request code
  | .ok _ =>
    let binding := wakeBinding boot request
    if ← takeOver request a binding then
      match operate urlsplit boot request a binding with
      | none => return .failed request.requestId "unsupported" "operation_not_supported"
      | some operation =>
        tryCatch
          (do
            let result ← operation
            return .done request.requestId result.status result.state.value
              result.restoredUrls.length)
          fun e => return refuse request (errorCode e)
    else return refuse request "operation_failed"

end Requests

/-- A request, with the answers of the transport while it is handled. -/
abbrev Served := ControlRequest × Answers

def serve (urlsplit : String → Except Unit SplitResult) (boot : BrowserBinding) (s : Slot)
    (served : Served) : Slot :=
  (exec (handle urlsplit boot served.1 served.2) s).2

/-- A transport that acknowledges every command, and reports the browser's own identity. -/
structure Obliges (a : Answers) : Prop where
  owner : a.owner.isOwn = true
  probes : ∀ p ∈ a.probe::a.probes, p.isOwn = true
  start : a.start = .acknowledged
  stop : a.stop = .acknowledged
  cleanup : a.cleanup = .acknowledged
  push : a.push = .acknowledged
  opens : ∀ n, a.opens n = .acknowledged
  closeEmpty : a.closeEmpty = .acknowledged
  listing : ∃ urls, a.listing = .ok urls

/-- The state that a command is to leave. -/
def aim (operation : String) : BrowserState :=
  match operation with
  | "suspend" => .suspended
  | "stop" => .stopped
  | _ => .ready

/-- The request succeeds, and acts on the slot of this binding. -/
structure Follows (binding : BrowserBinding) (request : ControlRequest)
    (r : Except SlotError Response × Slot) : Prop where
  answered : ∃ status state restored, r.1 = .ok (.done request.requestId status state restored)
  state : r.2.lifecycle.state = aim request.operation
  binding : r.2.lifecycle.binding = binding

/-- What it takes, beyond the right binding, for the request to be carried out. -/
def CarriedOut (urlsplit : String → Except Unit SplitResult) (boot : BrowserBinding)
    (request : ControlRequest) (a : Answers) : Prop :=
  validate boot request = .ok () ∧ match request.operation with
    | "suspend" => (a.listing.bind (normalizeUrls urlsplit)).isOk ∧
        a.snapshotWrite = .acknowledged ∧ a.lastGoodWrite = .acknowledged
    | "stop" => True
    | _ => .own true ∈ a.probe::a.probes

section Handle

variable {urlsplit : String → Except Unit SplitResult} {boot binding : BrowserBinding}
  {request : ControlRequest} {a : Answers} {s s' : Slot}

theorem exec_takeOver_own (h : request.operation = "wake" → binding = s.lifecycle.binding) :
    exec (takeOver request a binding) s = (.ok true,s) := by
  rw [takeOver,exec_bind,exec_get]
  show exec (ite (request.operation = "wake" ∧ binding ≠ s.lifecycle.binding) _ _) s = _
  rw [if_neg fun hne => hne.2 (h hne.1)]
  rfl

theorem adoptBinding_ok {result : OrchestrationResult}
    (h : exec (adoptBinding a binding) s = (.ok result,s')) : s'.lifecycle.binding = binding := by
  have hrebind : ∀ t, rebind a t binding = (.ok result,s') → s'.lifecycle.binding = binding := by
    intro t ht
    cases hp : a.push.outcome <;> simp [rebind,hp,Except.map] at ht
    rw [← ht.2]
  rw [exec_adoptBinding] at h
  split_ifs at h
  · cases h
  · exact hrebind s h
  · cases hs : a.stop.outcome with
    | error e => simp [hs] at h
    | ok _ =>
      rw [hs] at h
      exact hrebind _ h

theorem takeOver_ok (hwake : request.operation = "wake")
    (h : exec (takeOver request a binding) s = (.ok true,s')) : s'.lifecycle.binding = binding := by
  by_cases hb : binding = s.lifecycle.binding
  · rw [exec_takeOver_own fun _ => hb] at h
    cases h
    exact hb.symm
  · rw [takeOver,exec_bind,exec_get] at h
    change exec (ite (request.operation = "wake" ∧ binding ≠ s.lifecycle.binding) _ _) s = _ at h
    rw [if_pos ⟨hwake,hb⟩,exec_tryCatch,exec_bind] at h
    rcases ha : exec (adoptBinding a binding) s with ⟨e | result,t⟩
    · rw [ha] at h
      cases hv : e.isValueError <;> simp [hv] at h
    · rw [ha] at h
      cases h
      exact adoptBinding_ok ha

theorem exec_handle {operation : Operation OrchestrationResult}
    (hvalid : validate boot request = .ok ())
    (htake : exec (takeOver request a (wakeBinding boot request)) s = (.ok true,s'))
    (hop : operate urlsplit boot request a (wakeBinding boot request) = some operation) :
    exec (handle urlsplit boot request a) s = match exec operation s' with
      | (.ok result,t) => (.ok (.done request.requestId result.status result.state.value
          result.restoredUrls.length),t)
      | (.error e,t) => (.ok (refuse request (errorCode e)),t) := by
  rw [handle,hvalid]
  show exec (takeOver request a (wakeBinding boot request) >>= _) s = _
  rw [exec_bind,htake]
  simp only [if_true,hop,exec_tryCatch,exec_bind]
  rcases exec operation s' with ⟨_ | _,t⟩ <;> rfl

/-- What is answered as done was valid, and has been done by the supervisor. -/
theorem handle_done {requestId status state : String} {restored : ℕ}
    (h : exec (handle urlsplit boot request a) s =
      (.ok (.done requestId status state restored),s')) :
    validate boot request = .ok () ∧ ∃ t operation result,
      exec (takeOver request a (wakeBinding boot request)) s = (.ok true,t) ∧
      operate urlsplit boot request a (wakeBinding boot request) = some operation ∧
      exec operation t = (.ok result,s') := by
  cases hv : validate boot request with
  | error code =>
    rw [handle,hv] at h
    cases h
  | ok _ =>
    rw [handle,hv] at h
    change exec (takeOver request a (wakeBinding boot request) >>= _) s = _ at h
    rw [exec_bind] at h
    rcases ht : exec (takeOver request a (wakeBinding boot request)) s with ⟨e | _ | _,t⟩ <;>
      rw [ht] at h
    · cases h
    · cases h
    · simp only [if_true] at h
      cases ho : operate urlsplit boot request a (wakeBinding boot request) with
      | none => simp [ho] at h
      | some operation =>
        simp only [ho,exec_tryCatch,exec_bind] at h
        rcases hr : exec operation t with ⟨e | result,t'⟩ <;> rw [hr] at h
        · cases h
        · cases h
          exact ⟨rfl,t,operation,result,rfl,rfl,hr⟩

/-- A request that takes nothing over is answered by its operation. -/
theorem follows_operation {b : BrowserBinding} {operation : Operation OrchestrationResult}
    (hkept : request.operation = "wake" → wakeBinding boot request = s.lifecycle.binding)
    (hop : operate urlsplit boot request a (wakeBinding boot request) = some operation) :
    Follows b request (exec (handle urlsplit boot request a) s) ↔
      validate boot request = .ok () ∧ ∃ result t, exec operation s = (.ok result,t) ∧
        t.lifecycle.state = aim request.operation ∧ t.lifecycle.binding = b := by
  constructor
  · intro h
    rcases hx : exec (handle urlsplit boot request a) s with ⟨r,s'⟩
    rw [hx] at h
    obtain ⟨status,state,restored,rfl⟩ := h.answered
    obtain ⟨hvalid,t,operation',result,htake,hop',hrun⟩ := handle_done hx
    rw [exec_takeOver_own hkept] at htake
    cases htake
    rw [hop] at hop'
    cases hop'
    exact ⟨hvalid,result,_,hrun,h.state,h.binding⟩
  · rintro ⟨hvalid,result,t,hrun,hstate,hb⟩
    rw [exec_handle hvalid (exec_takeOver_own hkept) hop,hrun]
    exact ⟨⟨_,_,_,rfl⟩,hstate,hb⟩

end Handle

/-- The slot is ready, and the browser reports the binding that the transport expects. -/
structure Woken (b : BrowserBinding) (s : Slot) : Prop where
  state : s.lifecycle.state = .ready
  binding : s.lifecycle.binding = b
  agree : Agree s.transport s.browser b

section Follow

variable {urlsplit : String → Except Unit SplitResult} {boot b : BrowserBinding}
  {request : ControlRequest} {a : Answers} {s : Slot}

/-- What a wake with a binding leaves when it is answered as done. -/
theorem woken_of_done {s' : Slot} {requestId status state : String} {restored : ℕ}
    (ha : Obliges a) (hwake : request.operation = "wake") (hb : request.binding = some b)
    (h : exec (handle urlsplit boot request a) s =
      (.ok (.done requestId status state restored),s')) : Woken b s' := by
  obtain ⟨-,t,operation,result,htake,hop,hrun⟩ := handle_done h
  have hbinding : wakeBinding boot request = b := by simp [wakeBinding,hwake,hb]
  rw [hbinding] at htake hop
  simp only [operate,hwake,Option.some.injEq] at hop
  subst hop
  obtain ⟨hstate,hown,htransport,howner,hgeneration,hready⟩ := wake_ok hrun
  have hagree := waitReady_agree ha.probes hready
  exact ⟨hstate,hown,by rw [htransport]; exact hagree.transport,howner.trans hagree.owner,
    hgeneration.trans hagree.generation⟩

theorem Obliges.owned (ha : Obliges a) (hs : Woken b s) :
    ∃ ready, probeOwner s.transport s.browser s.lifecycle.binding a.owner = .ok ready := by
  have howner := ha.owner
  rw [hs.binding]
  cases h : a.owner with
  | own cdpOk => exact ⟨_,hs.agree.probeOwner cdpOk⟩
  | _ => simp [h,Probe.isOwn] at howner

/-- An operation that fails under a foreign binding, and has returned, was under its own. -/
theorem boot_of_ok {operation : Operation OrchestrationResult} {result : OrchestrationResult}
    {t : Slot} (hs : Woken b s) (hrun : exec operation s = (.ok result,t))
    (hforeign : boot ≠ s.lifecycle.binding → ∃ e, (exec operation s).1 = .error e) : b = boot := by
  by_contra hne
  obtain ⟨e,he⟩ := hforeign (by rw [hs.binding]; exact Ne.symm hne)
  rw [hrun] at he
  cases he

theorem exec_stop_own (hs : Woken b s) (ha : Obliges a) : exec (stop a s.lifecycle.binding) s =
    (.ok ⟨"stopped",.stopped,[]⟩,{ s.inState .stopped with browser := s.browser.stopped }) := by
  obtain ⟨ready,hready⟩ := ha.owned hs
  rw [exec_stop,hready,ha.stop]
  simp

theorem follows_stop (hs : Woken b s) (ha : Obliges a) (hop : request.operation = "stop") :
    Follows b request (exec (handle urlsplit boot request a) s) ↔
      b = boot ∧ CarriedOut urlsplit boot request a := by
  have hoperate : operate urlsplit boot request a (wakeBinding boot request) =
      some (stop a boot) := by
    simp [operate,hop]
  rw [follows_operation (by simp [hop]) hoperate]
  constructor
  · rintro ⟨hvalid,result,t,hrun,-,-⟩
    exact ⟨boot_of_ok hs hrun stop_foreign,hvalid,by simp [hop]⟩
  · rintro ⟨rfl,hvalid,-⟩
    have hb := hs.binding
    subst hb
    exact ⟨hvalid,_,_,exec_stop_own hs ha,by simp [hop,aim],rfl⟩

theorem capture_isOk (hs : Woken b s) (ha : Obliges a) :
    (capture urlsplit a s s.lifecycle.binding).isOk =
      (a.listing.bind (normalizeUrls urlsplit)).isOk := by
  obtain ⟨ready,hready⟩ := ha.owned hs
  obtain ⟨urls,hurls⟩ := ha.listing
  simp only [capture,hready,hurls,bind,Except.bind,OwnerBoundLifecycle.captureTabs]
  cases normalizeUrls urlsplit urls <;>
    simp [OwnerBoundLifecycle.requireBinding,hs.state,Except.isOk,Except.toBool,pure,Except.pure]

theorem follows_suspend (hs : Woken b s) (ha : Obliges a) (hop : request.operation = "suspend") :
    Follows b request (exec (handle urlsplit boot request a) s) ↔
      b = boot ∧ CarriedOut urlsplit boot request a := by
  have hoperate : operate urlsplit boot request a (wakeBinding boot request) =
      some (suspend urlsplit a boot) := by
    simp [operate,hop]
  rw [follows_operation (by simp [hop]) hoperate]
  have hcapture : (capture urlsplit a s s.lifecycle.binding).isOk =
      (a.listing.bind (normalizeUrls urlsplit)).isOk := capture_isOk hs ha
  constructor
  · rintro ⟨hvalid,result,t,hrun,-,-⟩
    have hboot := boot_of_ok hs hrun suspend_foreign
    refine ⟨hboot,hvalid,?_⟩
    rw [← hboot,← hs.binding,exec_suspend] at hrun
    simp only [hop]
    rw [← hcapture]
    cases hc : capture urlsplit a s s.lifecycle.binding with
    | error e =>
      rw [hc] at hrun
      cases hrun
    | ok captured =>
      refine ⟨rfl,(writeTabs_ok a captured s.lifecycle).mp ?_⟩
      simp only [hc] at hrun
      rcases hw : writeTabs a captured s.lifecycle with ⟨e | _,l⟩
      · simp [hw] at hrun
      · rfl
  · rintro ⟨rfl,hvalid,hcarried⟩
    simp only [hop] at hcarried
    obtain ⟨hlisting,hwrites⟩ := hcarried
    rw [← hcapture] at hlisting
    have hb := hs.binding
    subst hb
    cases hc : capture urlsplit a s s.lifecycle.binding with
    | error e => simp [hc,Except.isOk,Except.toBool] at hlisting
    | ok captured =>
      have hbinding := writeTabs_binding a captured s.lifecycle
      have hok := (writeTabs_ok a captured s.lifecycle).mpr hwrites
      rcases hw : writeTabs a captured s.lifecycle with ⟨r,l⟩
      rw [hw] at hbinding hok
      cases hok
      refine ⟨hvalid,⟨"suspended",.suspended,captured.urls⟩,
        { s with
          lifecycle := { l with state := .suspended }
          browser := s.browser.stopped },?_,by simp [hop,aim],hbinding⟩
      rw [exec_suspend]
      simp [hc,hw,ha.stop]

theorem defaultTimeout_positive : requirePositiveTimeout 30 (1/10) = .ok () := by
  norm_num [requirePositiveTimeout]

theorem follows_recreate (hs : Woken b s) (ha : Obliges a) (hop : request.operation = "recreate") :
    Follows b request (exec (handle urlsplit boot request a) s) ↔
      b = boot ∧ CarriedOut urlsplit boot request a := by
  have hoperate : operate urlsplit boot request a (wakeBinding boot request) =
      some (recreate urlsplit a boot) := by
    simp [operate,hop]
  rw [follows_operation (by simp [hop]) hoperate]
  have hb := hs.binding
  subst hb
  have hrecreate : exec (recreate urlsplit a s.lifecycle.binding) s =
      exec (wake urlsplit a s.lifecycle.binding)
        { s.inState .stopped with browser := s.browser.stopped } := by
    rw [recreate,exec_bind,exec_stop_own hs ha]
  constructor
  · rintro ⟨hvalid,result,t,hrun,-,-⟩
    have hboot := boot_of_ok hs hrun fun h => recreate_foreign h _ _
    subst hboot
    refine ⟨rfl,hvalid,?_⟩
    rw [hrecreate] at hrun
    have hready : waitReady s.transport s.browser s.lifecycle.binding a.probe a.probes = .ok () :=
      (waitReady_stopped _ _ _ _ _).symm.trans (wake_ok hrun).2.2.2.2.2
    simp only [hop]
    exact (hs.agree.waitReady ha.probes).mp hready
  · rintro ⟨rfl,hvalid,hcarried⟩
    simp only [hop] at hcarried
    have hready := (hs.agree.waitReady ha.probes).mpr hcarried
    have hup : ComesUp urlsplit a { s.inState .stopped with browser := s.browser.stopped } :=
      (comesUp_stopped urlsplit a s .stopped).mpr
        ⟨ha.start,hready,fun i _ => ha.opens i,ha.closeEmpty⟩
    have hwake := exec_wake_start urlsplit a
      { s.inState .stopped with browser := s.browser.stopped } defaultTimeout_positive
      List.mem_cons_self
    have hok := (launch_ok urlsplit a _).mpr hup
    rcases hl : launch urlsplit a { s.inState .stopped with browser := s.browser.stopped }
      with ⟨r,browser⟩
    rw [hl] at hok
    cases hok
    rw [hl] at hwake
    exact ⟨hvalid,_,_,hrecreate.trans hwake,by simp [hop,aim],rfl⟩

theorem follows_wake (hs : Woken b s) (ha : Obliges a) (hop : request.operation = "wake")
    (hbinding : request.binding = none) :
    Follows b request (exec (handle urlsplit boot request a) s) ↔
      b = boot ∧ CarriedOut urlsplit boot request a := by
  have hboot : wakeBinding boot request = boot := by simp [wakeBinding,hop,hbinding]
  have hoperate : operate urlsplit boot request a (wakeBinding boot request) =
      some (wake urlsplit a boot) := by
    simp [operate,hop,hboot]
  constructor
  · intro h
    rcases hx : exec (handle urlsplit boot request a) s with ⟨r,s'⟩
    rw [hx] at h
    obtain ⟨status,state,restored,rfl⟩ := h.answered
    obtain ⟨hvalid,t,operation,result,htake,hop',hrun⟩ := handle_done hx
    rw [hoperate] at hop'
    cases hop'
    have hb : b = boot := h.binding.symm.trans (wake_ok hrun).2.1
    subst hb
    rw [exec_takeOver_own (fun _ => by rw [hboot,hs.binding])] at htake
    cases htake
    refine ⟨rfl,hvalid,?_⟩
    simp only [hop]
    exact (hs.agree.waitReady ha.probes).mp (wake_ok hrun).2.2.2.2.2
  · rintro ⟨rfl,hvalid,hcarried⟩
    rw [follows_operation (fun _ => by rw [hboot,hs.binding]) hoperate]
    simp only [hop] at hcarried
    have hready := (hs.agree.waitReady ha.probes).mpr hcarried
    have hb := hs.binding
    subst hb
    refine ⟨hvalid,⟨"ready",.ready,s.lifecycle.savedTabs urlsplit⟩,s,?_,
      by simp [hop,aim,hs.state],rfl⟩
    rw [exec_wake_ready urlsplit a s defaultTimeout_positive hs.state,hready]
    rfl

end Follow
/-- The answer to a wake that got the browser ready. -/
def AnsweredReady (r : Except SlotError Response) : Prop :=
  ∃ requestId state restored, r = .ok (.done requestId "ready" state restored)

/-- After a wake with a binding was answered ready, the next request that brings no binding
follows it exactly if it is the binding the process was started with, and it is carried out. -/
theorem follows_iff_boot (urlsplit : String → Except Unit SplitResult) (boot b : BrowserBinding)
    (snapshotFile lastGoodFile : Option LifecycleSnapshot) (history : List Served)
    (woke later : Served) (hwoke : Obliges woke.2) (hwake : woke.1.operation = "wake")
    (hb : woke.1.binding = some b)
    (hready : AnsweredReady (exec (handle urlsplit boot woke.1 woke.2)
      (history.foldl (serve urlsplit boot) (booted boot snapshotFile lastGoodFile
        ⟨boot.principalId,boot.generation,false,[]⟩))).1)
    (hlater : Obliges later.2)
    (hop : later.1.operation ∈ ["suspend","stop","recreate"] ∨
      later.1.operation = "wake" ∧ later.1.binding = none) :
    Follows b later.1 (exec (handle urlsplit boot later.1 later.2)
      ((history ++ [woke]).foldl (serve urlsplit boot) (booted boot snapshotFile lastGoodFile
        ⟨boot.principalId,boot.generation,false,[]⟩))) ↔
      b = boot ∧ CarriedOut urlsplit boot later.1 later.2 := by
  rw [List.foldl_append]
  generalize history.foldl (serve urlsplit boot) _ = s at hready ⊢
  show Follows b later.1 (exec _ (serve urlsplit boot s woke)) ↔ _
  obtain ⟨requestId,state,restored,hdone⟩ := hready
  have hs : Woken b (serve urlsplit boot s woke) :=
    woken_of_done hwoke hwake hb (Prod.ext hdone rfl)
  simp only [List.mem_cons,List.not_mem_nil,or_false] at hop
  rcases hop with (hop | hop | hop) | ⟨hop,hbinding⟩
  · exact follows_suspend hs hlater hop
  · exact follows_stop hs hlater hop
  · exact follows_recreate hs hlater hop
  · exact follows_wake hs hlater hop hbinding

theorem obliging_obliges : Obliges obliging :=
  ⟨rfl,by simp [obliging,Probe.isOwn],rfl,rfl,rfl,rfl,fun _ => rfl,rfl,⟨_,rfl⟩⟩

def wakeFor (binding : BrowserBinding) : Served :=
  (⟨"wake","request-1",some binding⟩,obliging)

def later (operation : String) : Served :=
  (⟨operation,"request-2",none⟩,obliging)

theorem wakeFor_ready (binding : BrowserBinding) (hb : binding ∈ [aliceBinding,bobBinding]) :
    AnsweredReady (exec (handle oneSite aliceBinding (wakeFor binding).1 (wakeFor binding).2)
      aliceSlot).1 := by
  simp only [List.mem_cons,List.not_mem_nil,or_false] at hb
  rcases hb with rfl | rfl
  · exact ⟨"request-1","ready",0,by decide +kernel⟩
  · exact ⟨"request-1","ready",0,by decide +kernel⟩

theorem follows_boot : Follows aliceBinding (later "suspend").1
    (exec (handle oneSite aliceBinding (later "suspend").1 (later "suspend").2)
      (([] ++ [wakeFor aliceBinding]).foldl (serve oneSite aliceBinding) aliceSlot)) :=
  (follows_iff_boot oneSite aliceBinding aliceBinding none none [] (wakeFor aliceBinding)
    (later "suspend") obliging_obliges rfl rfl (wakeFor_ready _ (by simp)) obliging_obliges
    (by simp [later])).mpr ⟨rfl,rfl,by decide +kernel,rfl,rfl⟩

/-- Bob takes over from alice, the boot owner; the stop that follows is refused. -/
theorem adopted_not_followed : ¬∀ (urlsplit : String → Except Unit SplitResult)
    (boot b : BrowserBinding) (snapshotFile lastGoodFile : Option LifecycleSnapshot)
    (history : List Served) (woke later : Served), (∀ served ∈ history, Obliges served.2) →
    Obliges woke.2 → woke.1.operation = "wake" → woke.1.binding = some b →
    AnsweredReady (exec (handle urlsplit boot woke.1 woke.2)
      (history.foldl (serve urlsplit boot) (booted boot snapshotFile lastGoodFile
        ⟨boot.principalId,boot.generation,false,[]⟩))).1 →
    Obliges later.2 →
    later.1.operation ∈ ["suspend","stop","recreate"] ∨
      later.1.operation = "wake" ∧ later.1.binding = none →
    Follows b later.1 (exec (handle urlsplit boot later.1 later.2)
      ((history ++ [woke]).foldl (serve urlsplit boot) (booted boot snapshotFile lastGoodFile
        ⟨boot.principalId,boot.generation,false,[]⟩))) := by
  intro h
  have hfollows := h oneSite aliceBinding bobBinding none none [] (wakeFor bobBinding)
    (later "stop") (fun _ hmem => nomatch hmem) obliging_obliges rfl rfl
    (wakeFor_ready _ (by simp)) obliging_obliges (by simp [later])
  exact absurd hfollows.state (by decide +kernel)

end ControlApi
end CloudBrowser
