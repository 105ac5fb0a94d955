import CloudBrowser.AgentRelay
import CloudBrowser.ControlReplies
import CloudBrowser.LifecycleHistory
import CloudBrowser.StateFile

/-! The commands that the router passes on to the supervisor of a slot, and the slots together
with the router. -/
namespace CloudBrowser
namespace SlotCommands

open Stateful SlotSupervisor BindingPush ControlApi
open LifecycleHistory (Call Calm after calm_after leaves_stop)
open AgentControl (SplitResult)
open RouterSessions (Router SessionTable)

/-- The slots that the router is configured with, and the binding that the control API of each
was started with. -/
structure Deployment where
  knownSlots : List String
  boot : String → BrowserBinding

/-- `_OP_SET`, which the client of the supervisors has too. -/
def opSet : List String := ["wake","suspend","recreate"]

/-- What becomes of a post: it may reach the supervisor, and then its answer the router. -/
inductive Delivery
  | unreachable
  | reached (a : Answers) (answered : Bool)

inductive SupervisorError
  | client
  | unavailable
  deriving DecidableEq

inductive CommandReply
  | failed (requestId errorCode : String)
  | done (requestId status state : String) (restoredCount : ℕ)
  deriving DecidableEq

/-- What the HTTP handler sends for an outcome of the API; with no answer the connection ends. -/
def sent : Except SlotError Response → Except SupervisorError Response
  | .ok response => .ok response
  | .error e =>
    if e.isValueError then .ok (.failed "" "failed" "invalid_request") else .error .unavailable

/-- `_coerce_str`. -/
def coerceStr (value default : String) : String :=
  if value ≠ "" ∧ value.length ≤ 64 then value else default

def relayed (requestId : String) : Response → CommandReply
  | .failed _ status _ => .done requestId (coerceStr status "unknown") "unknown" 0
  | .done _ status state restored =>
    .done requestId (coerceStr status "unknown") (coerceStr state "unknown") restored

section Commands

variable (urlsplit : String → Except Unit SplitResult) (d : Deployment)
  (slotId operation requestId : String) (delivery : Delivery) (slots : String → Slot)

/-- `SupervisorClient.post_control`, without a binding. -/
def postControl : Except SupervisorError Response × (String → Slot) :=
  if !Text.bounded String.length 64 slotId ∨ operation ∉ opSet ∨
      !Text.bounded String.length 128 requestId then (.error .client,slots)
  else if slotId ∉ d.knownSlots then (.error .client,slots)
  else match delivery with
    | .unreachable => (.error .unavailable,slots)
    | .reached a answered =>
      let r := exec (handle urlsplit (d.boot slotId) ⟨operation,requestId,none⟩ a) (slots slotId)
      (if answered then sent r.1 else .error .unavailable,Function.update slots slotId r.2)

/-- The command of a caller that the identity service knows as this principal, or not at all. -/
def slotCommand (resolved : Option String) : (ℕ × CommandReply) × (String → Slot) :=
  match resolved with
  | none => ((401,.failed requestId "unauthorized"),slots)
  | some _ =>
    if !RouterApi.validSlotId slotId then ((200,.failed requestId "invalid_request"),slots)
    else if operation ∉ opSet then ((200,.failed requestId "operation_not_supported"),slots)
    else if slotId ∉ d.knownSlots then ((200,.failed requestId "unknown_slot"),slots)
    else match postControl urlsplit d slotId operation requestId delivery slots with
      | (.ok response,slots') => ((200,relayed requestId response),slots')
      | (.error .unavailable,slots') => ((200,.failed requestId "supervisor_unavailable"),slots')
      | (.error .client,slots') => ((200,.failed requestId "invalid_request"),slots')

/-- The command passes every check, and the supervisor gets it. -/
structure Arrives (a : Answers) : Prop where
  slot : RouterApi.validSlotId slotId = true
  bounded : Text.bounded String.length 64 slotId = true
  operation : operation ∈ opSet
  known : slotId ∈ d.knownSlots
  request : Text.bounded String.length 128 requestId = true
  reached : ∃ answered, delivery = .reached a answered

/-! ### The router and the slots -/

structure Joint where
  router : Router
  slots : String → Slot

/-- What happens: to the router and its sessions, or to a slot, whose control API is sent a
request, whose supervisor is restarted, or whose browser turns on its own into another state. -/
inductive JointEvent
  | router (e : RouterSessions.Event)
  | command (resolved : Option String) (slotId operation requestId : String) (delivery : Delivery)
  | control (slotId : String) (served : Served)
  | restart (slotId : String)
  | browser (slotId : String) (b : Browser)

def Joint.next (j : Joint) : JointEvent → Joint
  | .router e => { j with router := j.router.next e }
  | .command resolved slotId operation requestId delivery =>
    { j with
      slots := (slotCommand urlsplit d slotId operation requestId delivery j.slots resolved).2 }
  | .control slotId served =>
    { j with
      slots := Function.update j.slots slotId
        (serve urlsplit (d.boot slotId) (j.slots slotId) served) }
  | .restart slotId =>
    { j with
      slots := Function.update j.slots slotId
        (BindingPush.next urlsplit (d.boot slotId) (j.slots slotId) .restart) }
  | .browser slotId b =>
    { j with slots := Function.update j.slots slotId ({ j.slots slotId with browser := b }) }

/-- The router has not run, and every supervisor has come up beside its browser. -/
def Joint.initial (snapshotFile lastGoodFile : String → Option LifecycleSnapshot)
    (browser : String → Browser) : Joint where
  router := .initial
  slots slotId :=
    booted (d.boot slotId) (snapshotFile slotId) (lastGoodFile slotId) (browser slotId)

def Joint.run (j : Joint) (es : List JointEvent) : Joint := es.foldl (Joint.next urlsplit d) j

end Commands

/-- The principal holds no offer of the slot, and does not have it. -/
def Stranger (sessions : SessionTable) (principalId slotId : String) : Prop :=
  ∀ r ∈ sessions, r.principalId = principalId → r.slotId = some slotId →
    r.status ≠ .offered ∧ r.status ≠ .active

/-- Both browsers run or do not, with the same pages. -/
def SameBrowser (b b' : Browser) : Prop := b'.running = b.running ∧ b'.pages = b.pages

/-- The slot stays its owner's, in the same state and with the same pages. -/
structure Kept (s t : Slot) : Prop where
  binding : t.lifecycle.binding = s.lifecycle.binding
  state : t.lifecycle.state = s.lifecycle.state
  browser : SameBrowser s.browser t.browser

/-! ### What an operation leaves of the binding -/

section Bindings

variable {urlsplit : String → Except Unit SplitResult} {a : Answers} {binding : BrowserBinding}
  {s : Slot} {timeoutS pollS : ℚ}

theorem binding_wake (h : Calm s) :
    (exec (wake urlsplit a binding timeoutS pollS) s).2.lifecycle.binding =
      s.lifecycle.binding := by
  cases htime : requirePositiveTimeout timeoutS pollS with
  | error e => rw [exec_wake_untimed urlsplit a s htime]
  | ok _ =>
    by_cases hb : binding = s.lifecycle.binding
    · subst hb
      rcases h.cases with hready | hstart
      · rw [exec_wake_ready urlsplit a s htime hready]
      · rw [exec_wake_start urlsplit a s htime hstart]
        rcases launch urlsplit a s with ⟨e | _,browser⟩ <;> rfl
    · obtain ⟨e,he⟩ := exec_wake_refused urlsplit a s htime fun hown => absurd hown hb
      rw [he]

theorem binding_stop :
    (exec (stop a binding) s).2.lifecycle.binding = s.lifecycle.binding := by
  rw [exec_stop]
  cases probeOwner s.transport s.browser binding a.owner with
  | error e => rfl
  | ok _ =>
    cases a.stop.outcome with
    | error e => rfl
    | ok _ =>
      dsimp only
      split_ifs <;> rfl

theorem binding_suspend :
    (exec (suspend urlsplit a binding) s).2.lifecycle.binding = s.lifecycle.binding := by
  rw [exec_suspend]
  cases capture urlsplit a s binding with
  | error e => rfl
  | ok captured =>
    have hbinding := writeTabs_binding a captured s.lifecycle
    dsimp only
    rcases hwrite : writeTabs a captured s.lifecycle with ⟨e | _,l⟩ <;> rw [hwrite] at hbinding
    · exact hbinding
    · cases a.stop.outcome <;> exact hbinding

theorem binding_recreate (h : Calm s) :
    (exec (recreate urlsplit a binding timeoutS pollS) s).2.lifecycle.binding =
      s.lifecycle.binding := by
  have hstop := @binding_stop a binding s
  have hcalm := (@leaves_stop a binding s).calm h (by simp)
  rw [recreate,exec_bind]
  rcases hrun : exec (stop a binding) s with ⟨e | result,t⟩ <;> rw [hrun] at hstop hcalm
  · exact hstop
  · exact (binding_wake hcalm).trans hstop

/-- An adoption takes a binding of the same browser only. -/
theorem browserId_adoptBinding :
    (exec (adoptBinding a binding) s).2.lifecycle.binding.browserId =
      s.lifecycle.binding.browserId := by
  rw [exec_adoptBinding]
  split_ifs with hother hstopped
  · rfl
  · rw [rebind]
    cases a.push.outcome with
    | error e => rfl
    | ok _ => exact not_not.mp hother
  · cases a.stop.outcome with
    | error e => rfl
    | ok _ =>
      dsimp only
      rw [rebind]
      cases a.push.outcome with
      | error e => rfl
      | ok _ => exact not_not.mp hother

end Bindings

/-! ### Reachable slots -/

section Reachable

variable {urlsplit : String → Except Unit SplitResult} {boot : BrowserBinding} {s : Slot}

/-- A slot between two requests: settled, and bound to the browser that it was started for. -/
structure Sane (boot : BrowserBinding) (s : Slot) : Prop where
  calm : Calm s
  browserId : s.lifecycle.binding.browserId = boot.browserId

theorem Sane.after (h : Sane boot s) (c : Call) : Sane boot (after urlsplit s c) := by
  refine ⟨calm_after h.calm c,Eq.trans ?_ h.browserId⟩
  cases c with
  | wake binding timeoutS pollS a => exact congrArg BrowserBinding.browserId (binding_wake h.calm)
  | suspend binding a => exact congrArg BrowserBinding.browserId binding_suspend
  | stop binding a => exact congrArg BrowserBinding.browserId binding_stop
  | adoptBinding binding a => exact browserId_adoptBinding
  | recreate binding timeoutS pollS a =>
    exact congrArg BrowserBinding.browserId (binding_recreate h.calm)

theorem Sane.operate {request : ControlRequest} {a : Answers} {binding : BrowserBinding}
    {operation : Operation OrchestrationResult} (h : Sane boot s)
    (hop : operate urlsplit boot request a binding = some operation) :
    Sane boot (exec operation s).2 := by
  unfold ControlApi.operate at hop
  split at hop
  · cases hop
    exact h.after (.wake binding 30 (1/10) a)
  · cases hop
    exact h.after (.suspend boot a)
  · cases hop
    exact @Sane.after urlsplit boot s h (.stop boot a)
  · cases hop
    exact h.after (.recreate boot 30 (1/10) a)
  · cases hop

theorem Sane.takeOver {request : ControlRequest} {a : Answers} {binding : BrowserBinding}
    (h : Sane boot s) : Sane boot (exec (takeOver request a binding) s).2 := by
  have hadopt : Sane boot (exec (adoptBinding a binding) s).2 :=
    @Sane.after (fun _ => .error ()) boot s h (.adoptBinding binding a)
  rw [ControlApi.takeOver,exec_bind,exec_get]
  dsimp only
  split_ifs
  · rw [exec_tryCatch,exec_bind]
    rcases hrun : exec (adoptBinding a binding) s with ⟨e | result,t⟩ <;> rw [hrun] at hadopt
    · cases hv : e.isValueError <;> simpa [hv] using hadopt
    · exact hadopt
  · exact h

theorem Sane.serve (h : Sane boot s) (served : Served) :
    Sane boot (serve urlsplit boot s served) := by
  rw [ControlApi.serve,handle]
  cases validate boot served.1 with
  | error code => exact h
  | ok _ =>
    have htake := @Sane.takeOver boot s served.1 served.2 (wakeBinding boot served.1) h
    dsimp only
    rw [exec_bind]
    rcases hrun : exec (ControlApi.takeOver served.1 served.2 (wakeBinding boot served.1)) s with
      ⟨e | _ | _,t⟩ <;> rw [hrun] at htake
    · exact htake
    · exact htake
    · dsimp only
      rw [if_pos rfl]
      cases hop : ControlApi.operate urlsplit boot served.1 served.2
        (wakeBinding boot served.1) with
      | none => exact htake
      | some operation =>
        have hdone := Sane.operate htake hop
        dsimp only
        rw [exec_tryCatch,exec_bind]
        rcases hdo : exec operation t with ⟨e | result,t'⟩ <;> rw [hdo] at hdone <;> exact hdone

end Reachable

section Runs

variable {urlsplit : String → Except Unit SplitResult} {d : Deployment}
  {slotId operation requestId : String} {delivery : Delivery} {slots : String → Slot} {a : Answers}

/-- A command that the supervisor gets is a request without a binding. -/
theorem slotCommand_arrives (h : Arrives d slotId operation requestId delivery a)
    (principalId : String) :
    (slotCommand urlsplit d slotId operation requestId delivery slots (some principalId)).2 =
      Function.update slots slotId
        (serve urlsplit (d.boot slotId) (slots slotId) (⟨operation,requestId,none⟩,a)) := by
  obtain ⟨answered,rfl⟩ := h.reached
  have hclient : ¬((!Text.bounded String.length 64 slotId) = true ∨ operation ∉ opSet ∨
      (!Text.bounded String.length 128 requestId) = true) := by
    simp [h.bounded,h.operation,h.request]
  have hpost : (postControl urlsplit d slotId operation requestId (.reached a answered) slots).2 =
      Function.update slots slotId
        (serve urlsplit (d.boot slotId) (slots slotId) (⟨operation,requestId,none⟩,a)) := by
    rw [postControl,if_neg hclient,if_neg (not_not_intro h.known)]
    rfl
  rw [slotCommand,if_neg (by simp [h.slot]),if_neg (not_not_intro h.operation),
    if_neg (not_not_intro h.known),← hpost]
  rcases postControl urlsplit d slotId operation requestId (.reached a answered) slots with
    ⟨e | response,slots'⟩
  · cases e <;> rfl
  · rfl

/-- A command that it does not get changes nothing. -/
theorem slotCommand_refused (h : ∀ a, ¬Arrives d slotId operation requestId delivery a)
    (resolved : Option String) :
    (slotCommand urlsplit d slotId operation requestId delivery slots resolved).2 = slots := by
  cases resolved with
  | none => rfl
  | some principalId =>
    have hpost : RouterApi.validSlotId slotId = true → operation ∈ opSet → slotId ∈ d.knownSlots →
        (postControl urlsplit d slotId operation requestId delivery slots).2 = slots := by
      intro hslot hoperation hknown
      unfold postControl
      split_ifs with hclient
      · rfl
      · cases delivery with
        | unreachable => rfl
        | reached a answered =>
          simp only [not_or,Bool.not_eq_true',Bool.not_eq_false] at hclient
          exact absurd ⟨hslot,hclient.1,hoperation,hknown,hclient.2.2,answered,rfl⟩ (h a)
    rw [slotCommand]
    split_ifs with hslot hoperation hknown
    · rfl
    · have hkept := hpost (by simpa using hslot) hoperation hknown
      rcases hrun : postControl urlsplit d slotId operation requestId delivery slots with
        ⟨e | response,slots'⟩ <;> rw [hrun] at hkept
      · cases e <;> exact hkept
      · exact hkept
    · rfl
    · rfl

theorem sane_update (h : ∀ id, Sane (d.boot id) (slots id)) {s : Slot}
    (hs : Sane (d.boot slotId) s) (id : String) :
    Sane (d.boot id) (Function.update slots slotId s id) := by
  by_cases hid : id = slotId
  · subst hid
    rwa [Function.update_self]
  · rw [Function.update_of_ne hid]
    exact h id

theorem Joint.sane_next {j : Joint} (h : ∀ id, Sane (d.boot id) (j.slots id)) (e : JointEvent) :
    ∀ id, Sane (d.boot id) ((j.next urlsplit d e).slots id) := by
  cases e with
  | router e => exact h
  | command resolved slotId operation requestId delivery =>
    by_cases harrives : ∃ a, Arrives d slotId operation requestId delivery a
    · obtain ⟨a,harrives⟩ := harrives
      cases resolved with
      | none => exact h
      | some principalId =>
        rw [Joint.next,slotCommand_arrives harrives]
        exact sane_update h ((h slotId).serve _)
    · rw [Joint.next,slotCommand_refused (not_exists.mp harrives)]
      exact h
  | control slotId served => exact sane_update h ((h slotId).serve served)
  | restart slotId => exact sane_update h ⟨List.mem_cons_self,rfl⟩
  | browser slotId b => exact sane_update h ⟨(h slotId).calm,(h slotId).browserId⟩

theorem Joint.sane_run (snapshotFile lastGoodFile : String → Option LifecycleSnapshot)
    (browser : String → Browser) (es : List JointEvent) (id : String) : Sane (d.boot id)
      (((Joint.initial d snapshotFile lastGoodFile browser).run urlsplit d es).slots id) := by
  have hrun : ∀ j : Joint, (∀ id, Sane (d.boot id) (j.slots id)) →
      ∀ id, Sane (d.boot id) ((j.run urlsplit d es).slots id) := by
    induction es with
    | nil => exact fun j h => h
    | cons e es ih => exact fun j h => ih _ (Joint.sane_next h e)
  exact hrun _ (fun id => ⟨List.mem_cons_self,rfl⟩) id

end Runs

end SlotCommands
end CloudBrowser
