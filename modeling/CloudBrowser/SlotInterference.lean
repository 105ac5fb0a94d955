import CloudBrowser.RouterRuns
import CloudBrowser.SlotCommands
import Mathlib.Data.Fintype.EquivFin

/-! Commands of a principal that has no session on the slot: which of them leave the slot to its
owner as it was. -/
namespace CloudBrowser
namespace SlotCommands

open Stateful SlotSupervisor BindingPush ControlApi
open LifecycleHistory (Calm)
open AgentControl (SplitResult)
open RouterSessions (SessionTable)

section Conditions

variable (urlsplit : String → Except Unit SplitResult) (boot : BrowserBinding) (a : Answers)
  (s : Slot)

/-- Nothing runs, and nothing is open. -/
def Blank (b : Browser) : Prop := b.running = false ∧ b.pages = []

/-- The stop fails, and if it has an effect, there was nothing to stop. -/
def StopHarmless (b : Browser) : Prop :=
  a.stop ≠ .acknowledged ∧ (a.stop.effective = true → Blank b)

/-- The slot's browser fails to come up, and what of the commands took effect, the clean-up
included, leaves it like `b`. -/
def FailsLike (b : Browser) : Prop :=
  ¬ComesUp urlsplit a s ∧
    SameBrowser b (a.cleanup.on Browser.stopped (launch urlsplit a s).2)

/-- A wake under the boot binding: of a slot that has it, and is ready, or is stopped and fails to
start; or the takeover of another's fails before it changes anything. -/
def WakeHarmless : Prop :=
  if s.lifecycle.binding = boot then
    s.lifecycle.state = .ready ∨
      s.lifecycle.state = .stopped ∧ FailsLike urlsplit a s s.browser
  else if s.lifecycle.state = .stopped then a.push ≠ .acknowledged
  else StopHarmless a s.browser

/-- A suspend under the boot binding does not come to an effective stop. -/
def SuspendHarmless : Prop :=
  (capture urlsplit a s boot).isOk = true → a.snapshotWrite = .acknowledged →
    a.lastGoodWrite = .acknowledged → StopHarmless a s.browser

/-- The slot once it has been stopped. -/
def halted : Slot := { s.inState .stopped with browser := s.browser.stopped }

/-- A recreate under the boot binding is refused or does not stop anything, or else what it starts
again, or fails to, is like what there was. -/
def RecreateHarmless : Prop :=
  (probeOwner s.transport s.browser boot a.owner).isOk = true → StopHarmless a s.browser ∨
    a.stop = .acknowledged ∧
    if s.lifecycle.binding = boot then
      s.lifecycle.state = .ready ∧ ComesUp urlsplit a s ∧ s.browser.running = true ∧
        s.browser.pages = (a.fresh ++ s.lifecycle.savedTabs urlsplit).filter
          (· ∉ ["about:blank","chrome://newtab/"]) ∨
      s.lifecycle.state = .stopped ∧ FailsLike urlsplit a (halted s) s.browser
    else Blank s.browser

/-- What a command that the supervisor gets must not do. -/
def CommandHarmless (operation : String) : Prop :=
  match operation with
  | "wake" => WakeHarmless urlsplit boot a s
  | "suspend" => SuspendHarmless urlsplit boot a s
  | _ => RecreateHarmless urlsplit boot a s

end Conditions

section Steps

variable {urlsplit : String → Except Unit SplitResult} {boot : BrowserBinding} {a : Answers}
  {s t : Slot} {b : Browser} {operation requestId : String}

theorem sameBrowser_on_stopped {reply : Reply} :
    SameBrowser b (reply.on Browser.stopped b) ↔ (reply.effective = true → Blank b) := by
  cases heffective : reply.effective with
  | false => simp [SameBrowser,Reply.on,heffective]
  | true =>
    rw [Reply.on,heffective,if_pos rfl]
    exact ⟨fun h _ => ⟨h.1.symm,h.2.symm⟩,fun h => ⟨(h rfl).1.symm,(h rfl).2.symm⟩⟩

/-- Nothing but the browser has changed. -/
theorem kept_browser : Kept s { s with browser := b } ↔ SameBrowser s.browser b :=
  ⟨fun h => h.browser,fun h => ⟨rfl,rfl,h⟩⟩

theorem kept_refl : Kept s s := ⟨rfl,rfl,rfl,rfl⟩

theorem serve_operation {request : ControlRequest} {operation : Operation OrchestrationResult}
    (hvalid : validate boot request = .ok ())
    (htake : exec (takeOver request a (wakeBinding boot request)) s = (.ok true,t))
    (hop : operate urlsplit boot request a (wakeBinding boot request) = some operation) :
    serve urlsplit boot s (request,a) = (exec operation t).2 := by
  rw [serve,exec_handle hvalid htake hop]
  rcases exec operation t with ⟨e | result,t'⟩ <;> rfl

theorem validate_command (h : Text.bounded String.length 128 requestId = true) :
    validate boot ⟨operation,requestId,none⟩ = .ok () := by
  simp only [Text.bounded,Bool.and_eq_true,decide_eq_true_eq] at h
  have hbounds : ¬(requestId = "" ∨ 128 < requestId.length) := by
    rw [not_or]
    exact ⟨h.1.1,Nat.not_lt.mpr h.1.2⟩
  rw [validate,if_neg hbounds]
  rfl

/-! ### A wake -/

/-- A start leaves a slot like another in one of two ways. -/
theorem kept_start (hbinding : t.lifecycle.binding = s.lifecycle.binding)
    (hstate : t.lifecycle.state ∈ [.stopped,.suspended,.failed]) :
    Kept s (exec (wake urlsplit a s.lifecycle.binding) t).2 ↔
      s.lifecycle.state = .ready ∧ ComesUp urlsplit a t ∧
        SameBrowser s.browser (launch urlsplit a t).2 ∨
      s.lifecycle.state = .stopped ∧ FailsLike urlsplit a t s.browser := by
  rw [← hbinding,exec_wake_start urlsplit a t defaultTimeout_positive hstate]
  have hup := launch_ok urlsplit a t
  unfold FailsLike
  rcases hlaunch : launch urlsplit a t with ⟨e | _,browser⟩ <;> rw [hlaunch] at hup
  · have hdown : ¬ComesUp urlsplit a t := fun h => nomatch hup.mpr h
    constructor
    · rintro ⟨-,hkept,hbrowser⟩
      exact Or.inr ⟨hkept.symm,hdown,hbrowser⟩
    · rintro (⟨-,hcomes,-⟩ | ⟨hstopped,-,hbrowser⟩)
      · exact absurd hcomes hdown
      · exact ⟨hbinding,hstopped.symm,hbrowser⟩
  · have hcomes : ComesUp urlsplit a t := hup.mp rfl
    constructor
    · rintro ⟨-,hkept,hbrowser⟩
      exact Or.inl ⟨hkept.symm,hcomes,hbrowser⟩
    · rintro (⟨hready,-,hbrowser⟩ | ⟨-,hdown,-⟩)
      · exact ⟨hbinding,hready.symm,hbrowser⟩
      · exact absurd hcomes hdown

theorem halted_comesUp : ComesUp urlsplit a (halted s) ↔ ComesUp urlsplit a s :=
  comesUp_stopped urlsplit a s .stopped

theorem calm_start (h : Calm s) (hready : s.lifecycle.state ≠ .ready) :
    s.lifecycle.state ∈ [.stopped,.suspended,.failed] :=
  h.cases.resolve_left hready

/-- A wake of the slot's own binding. -/
theorem kept_wake_own (h : Calm s) (hown : s.lifecycle.binding = boot) :
    Kept s (exec (wake urlsplit a boot) s).2 ↔ WakeHarmless urlsplit boot a s := by
  subst hown
  rw [WakeHarmless,if_pos rfl]
  by_cases hready : s.lifecycle.state = .ready
  · rw [exec_wake_ready urlsplit a s defaultTimeout_positive hready]
    exact ⟨fun _ => Or.inl hready,fun _ => kept_refl⟩
  · rw [kept_start rfl (calm_start h hready)]
    simp only [hready,false_and,false_or]

/-! ### A takeover -/

theorem serve_refused {e : SlotError} (h : TakesOver boot ⟨"wake",requestId,none⟩ s)
    (hadopt : exec (adoptBinding a boot) s = (.error e,t)) :
    serve urlsplit boot s (⟨"wake",requestId,none⟩,a) = t := by
  have htake := exec_takeOver (a:=a) h
  rw [show wakeBinding boot ⟨"wake",requestId,none⟩ = boot from rfl,hadopt] at htake
  rw [serve]
  cases hv : e.isValueError with
  | true =>
    simp only [hv,if_true] at htake
    rw [exec_handle_turnedDown h.valid htake]
  | false =>
    simp only [hv,Bool.false_eq_true,if_false] at htake
    rw [exec_handle_raised h.valid htake]

/-- A slot that has been taken over stays so. -/
theorem serve_adopted {result : OrchestrationResult} (hs : Calm s)
    (h : TakesOver boot ⟨"wake",requestId,none⟩ s)
    (hadopt : exec (adoptBinding a boot) s = (.ok result,t)) :
    (serve urlsplit boot s (⟨"wake",requestId,none⟩,a)).lifecycle.binding = boot := by
  have htake := exec_takeOver (a:=a) h
  rw [show wakeBinding boot ⟨"wake",requestId,none⟩ = boot from rfl,hadopt] at htake
  have hcalm : Calm t := by
    have hrun := @LifecycleHistory.calm_adoptBinding a boot s hs
    rwa [hadopt] at hrun
  rw [serve_operation h.valid htake rfl]
  exact (binding_wake hcalm).trans (adoptBinding_ok hadopt)

theorem not_kept_adopted {result : OrchestrationResult} (hs : Calm s)
    (h : TakesOver boot ⟨"wake",requestId,none⟩ s)
    (hadopt : exec (adoptBinding a boot) s = (.ok result,t)) :
    ¬Kept s (serve urlsplit boot s (⟨"wake",requestId,none⟩,a)) := fun hkept =>
  h.other ((serve_adopted hs h hadopt).symm.trans hkept.binding)

/-- The push of a binding leaves what runs and is open. -/
theorem sameBrowser_rebound {reply : Reply} {binding : BrowserBinding} :
    SameBrowser b (reply.on (·.rebound binding) b) :=
  ⟨@Reply.on_same _ _ Browser.running (·.rebound binding) (fun _ => rfl) reply b,
    @Reply.on_same _ _ Browser.pages (·.rebound binding) (fun _ => rfl) reply b⟩

/-- The takeover from another owner, before the wake. -/
theorem kept_takeOver (h : Sane boot s) (htakes : TakesOver boot ⟨"wake",requestId,none⟩ s) :
    Kept s (serve urlsplit boot s (⟨"wake",requestId,none⟩,a)) ↔
      WakeHarmless urlsplit boot a s := by
  have hother : boot ≠ s.lifecycle.binding := htakes.other
  have hadopt := exec_adoptBinding a s boot
  rw [if_neg (not_not_intro h.browserId.symm)] at hadopt
  rw [WakeHarmless,if_neg (Ne.symm hother)]
  by_cases hstopped : s.lifecycle.state = .stopped
  · rw [if_pos hstopped]
    rw [if_pos hstopped,rebind] at hadopt
    cases hpush : a.push with
    | acknowledged =>
      rw [hpush] at hadopt
      exact iff_of_false (not_kept_adopted h.calm htakes hadopt) (by simp)
    | failed e effective =>
      rw [hpush] at hadopt
      rw [serve_refused htakes hadopt]
      exact iff_of_true ⟨rfl,rfl,sameBrowser_rebound⟩ (by simp)
  · rw [if_neg hstopped]
    rw [if_neg hstopped] at hadopt
    unfold StopHarmless
    cases hstop : a.stop with
    | acknowledged =>
      rw [hstop] at hadopt
      refine iff_of_false ?_ (by simp)
      simp only [Reply.outcome_acknowledged,rebind] at hadopt
      cases hpush : a.push with
      | acknowledged =>
        rw [hpush] at hadopt
        exact not_kept_adopted h.calm htakes hadopt
      | failed e effective =>
        rw [hpush] at hadopt
        rw [serve_refused htakes hadopt]
        exact fun hkept => hstopped hkept.state.symm
    | failed e effective =>
      rw [hstop] at hadopt
      rw [serve_refused htakes hadopt,kept_browser,sameBrowser_on_stopped]
      simp

theorem kept_wake (h : Sane boot s)
    (hrequest : Text.bounded String.length 128 requestId = true) :
    Kept s (serve urlsplit boot s (⟨"wake",requestId,none⟩,a)) ↔
      WakeHarmless urlsplit boot a s := by
  have hvalid := @validate_command boot "wake" requestId hrequest
  by_cases hown : boot = s.lifecycle.binding
  · have htake : exec (takeOver ⟨"wake",requestId,none⟩ a boot) s = (.ok true,s) :=
      exec_takeOver_own fun _ => hown
    rw [serve_operation hvalid htake rfl]
    exact kept_wake_own h.calm hown.symm
  · exact kept_takeOver h ⟨hvalid,rfl,hown⟩

/-! ### A suspend -/

theorem capture_ready {captured : LifecycleSnapshot}
    (h : capture urlsplit a s boot = .ok captured) : s.lifecycle.state = .ready := by
  obtain ⟨-,-,h⟩ := bind_ok h
  obtain ⟨urls,-,h⟩ := bind_ok h
  exact (s.lifecycle.captureTabs_ok boot h).2

theorem serve_own {operation : Operation OrchestrationResult} {request : ControlRequest}
    (hvalid : validate boot request = .ok ()) (hwake : request.operation ≠ "wake")
    (hop : operate urlsplit boot request a boot = some operation) :
    serve urlsplit boot s (request,a) = (exec operation s).2 := by
  have hbinding : wakeBinding boot request = boot := if_neg hwake
  apply serve_operation hvalid
  · exact exec_takeOver_own fun h => absurd h hwake
  · rw [hbinding]
    exact hop

theorem kept_suspend (hrequest : Text.bounded String.length 128 requestId = true) :
    Kept s (serve urlsplit boot s (⟨"suspend",requestId,none⟩,a)) ↔
      SuspendHarmless urlsplit boot a s := by
  rw [serve_own (validate_command hrequest) (by simp) rfl,exec_suspend,SuspendHarmless]
  cases hcapture : capture urlsplit a s boot with
  | error e => exact iff_of_true kept_refl (fun h => nomatch h)
  | ok captured =>
    have hready := capture_ready hcapture
    have hbinding := writeTabs_binding a captured s.lifecycle
    have hstate := writeTabs_state a captured s.lifecycle
    have hwritten := writeTabs_ok a captured s.lifecycle
    dsimp only
    rcases hwrite : writeTabs a captured s.lifecycle with ⟨e | _,l⟩ <;>
      rw [hwrite] at hbinding hstate hwritten
    · refine iff_of_true ⟨hbinding,hstate,rfl,rfl⟩ fun _ hsnapshot hlastGood => ?_
      exact nomatch hwritten.mpr ⟨hsnapshot,hlastGood⟩
    · have hok : (Except.ok captured : Except SlotError LifecycleSnapshot).isOk = true := rfl
      obtain ⟨hsnapshot,hlastGood⟩ := hwritten.mp rfl
      simp only [hok,hsnapshot,hlastGood,true_implies,StopHarmless]
      cases hstop : a.stop with
      | acknowledged =>
        refine iff_of_false (fun hkept => ?_) (by simp)
        have hsuspended := hkept.state
        rw [hready] at hsuspended
        cases hsuspended
      | failed e effective =>
        rw [← sameBrowser_on_stopped]
        exact ⟨fun hkept => ⟨nofun,hkept.browser⟩,fun h => ⟨hbinding,hstate,h.2⟩⟩

/-! ### A recreate -/

/-- A running browser opens all the pages that it is acknowledged to open. -/
theorem openAll_acknowledged {urls : List String}
    (hurls : ∀ url ∈ urls, isPageUrl urlsplit url = .ok true) (n : ℕ) (b : Browser)
    (hrunning : b.running = true) (h : ∀ i < urls.length, a.opens (n+i) = .acknowledged) :
    openAll urlsplit a n urls b = (.ok (),{ b with pages := b.pages ++ urls }) := by
  induction urls generalizing n b with
  | nil => rw [openAll,List.append_nil]
  | cons url urls ih =>
    have hfirst : a.opens n = .acknowledged := h 0 (Nat.succ_pos _)
    have hopened : b.opened url = { b with pages := b.pages ++ [url] } := if_pos hrunning
    rw [openAll,hurls url List.mem_cons_self,hfirst,hopened]
    refine (ih (fun u hu => hurls u (List.mem_cons_of_mem _ hu)) (n+1)
      ({ b with pages := b.pages ++ [url] }) hrunning fun i hi => ?_).trans ?_
    · rw [Nat.add_assoc,Nat.add_comm 1]
      exact h (i+1) (Nat.succ_lt_succ hi)
    · rw [List.append_assoc]
      rfl

/-- What comes up again after a stop. -/
theorem launch_halted (h : ComesUp urlsplit a s) : (launch urlsplit a (halted s)).2 =
    ⟨s.browser.owner,s.browser.generation,true,
      (a.fresh ++ s.lifecycle.savedTabs urlsplit).filter
        (· ∉ ["about:blank","chrome://newtab/"])⟩ := by
  have hready := (halted_comesUp.mpr h).ready
  have hopens := openAll_acknowledged (savedTabs_pages s.lifecycle) 0
    ⟨s.browser.owner,s.browser.generation,true,a.fresh⟩ rfl
    (fun i hi => (Nat.zero_add i).symm ▸ h.opened i hi)
  have hstart : a.start.on (·.started a.fresh) (halted s).browser =
      ⟨s.browser.owner,s.browser.generation,true,a.fresh⟩ := by
    rw [h.started]
    rfl
  have hwait : waitReady (halted s).transport ⟨s.browser.owner,s.browser.generation,true,a.fresh⟩
      (halted s).lifecycle.binding a.probe a.probes = .ok () := by
    rw [← hready]
    apply waitReady_congr <;> rfl
  have htabs : (halted s).lifecycle.savedTabs urlsplit = s.lifecycle.savedTabs urlsplit := rfl
  rw [launch,hstart,h.started]
  dsimp only [Reply.outcome]
  rw [hwait]
  dsimp only
  rw [htabs,hopens,h.closed]
  rfl

theorem kept_halted (hown : boot = s.lifecycle.binding) :
    Kept s (exec (wake urlsplit a boot) (halted s)).2 ↔
      s.lifecycle.state = .ready ∧ ComesUp urlsplit a s ∧ s.browser.running = true ∧
        s.browser.pages = (a.fresh ++ s.lifecycle.savedTabs urlsplit).filter
          (· ∉ ["about:blank","chrome://newtab/"]) ∨
      s.lifecycle.state = .stopped ∧ FailsLike urlsplit a (halted s) s.browser := by
  subst hown
  rw [@kept_start urlsplit a s (halted s) rfl List.mem_cons_self,halted_comesUp]
  refine or_congr_left (and_congr_right fun _ => and_congr_right fun hup => ?_)
  rw [launch_halted hup,SameBrowser]
  exact and_congr eq_comm eq_comm

theorem kept_recreate (hrequest : Text.bounded String.length 128 requestId = true) :
    Kept s (serve urlsplit boot s (⟨"recreate",requestId,none⟩,a)) ↔
      RecreateHarmless urlsplit boot a s := by
  have hstop := exec_stop a s boot
  rw [serve_own (validate_command hrequest) (by simp) rfl,recreate,exec_bind,RecreateHarmless]
  cases howner : probeOwner s.transport s.browser boot a.owner with
  | error e =>
    rw [howner] at hstop
    rw [hstop]
    exact iff_of_true kept_refl fun h => by cases h
  | ok ready =>
    have hok : (Except.ok ready : Except SlotError BrowserReadiness).isOk = true := rfl
    rw [howner] at hstop
    simp only [hok,true_implies,StopHarmless]
    cases hreply : a.stop with
    | failed e effective =>
      rw [hreply] at hstop
      rw [hstop,← sameBrowser_on_stopped]
      refine (kept_browser (b:=(Reply.failed e effective).on Browser.stopped s.browser)).trans ?_
      simp
    | acknowledged =>
      rw [hreply] at hstop
      rw [hstop]
      by_cases hown : boot = s.lifecycle.binding
      · rw [if_pos hown,if_pos hown.symm]
        refine (kept_halted hown).trans ?_
        simp
      · rw [if_neg hown,if_neg (Ne.symm hown)]
        refine (kept_browser (b:=s.browser.stopped)).trans ?_
        simp only [ne_eq,not_true_eq_false,false_and,false_or,true_and]
        exact ⟨fun h => ⟨h.1.symm,h.2.symm⟩,fun h => ⟨h.1.symm,h.2.symm⟩⟩

theorem kept_command (h : Sane boot s) (hoperation : operation ∈ opSet)
    (hrequest : Text.bounded String.length 128 requestId = true) :
    Kept s (serve urlsplit boot s (⟨operation,requestId,none⟩,a)) ↔
      CommandHarmless urlsplit boot a s operation := by
  simp only [opSet,List.mem_cons,List.not_mem_nil,or_false] at hoperation
  rcases hoperation with rfl | rfl | rfl
  · exact kept_wake h hrequest
  · exact kept_suspend hrequest
  · exact kept_recreate hrequest

end Steps

/-! ### Commands of strangers -/

/-- Somebody has nothing to do with the slot. -/
theorem exists_stranger (sessions : SessionTable) (slotId : String) :
    ∃ principalId, Stranger sessions principalId slotId := by
  obtain ⟨principalId,hnew⟩ := Infinite.exists_notMem_finset
    (sessions.rows.map RouterSessions.RouterSession.principalId).toFinset
  rw [List.mem_toFinset] at hnew
  refine ⟨principalId,fun r hr hprincipal => absurd ?_ hnew⟩
  rw [← hprincipal]
  exact List.mem_map_of_mem (Keyed.Table.mem_rows.mpr hr)

/-- The command is refused, or does not get to the supervisor, or is harmless there. -/
def Harmless (urlsplit : String → Except Unit SplitResult) (d : Deployment)
    (slotId operation requestId : String) (delivery : Delivery) (s : Slot) : Prop :=
  ∀ a, Arrives d slotId operation requestId delivery a →
    CommandHarmless urlsplit (d.boot slotId) a s operation

/-- In every reachable state the commands of those who have no session on a slot leave it to its
owner exactly where they are harmless. -/
theorem undisturbed_iff (urlsplit : String → Except Unit SplitResult) (d : Deployment)
    (snapshotFile lastGoodFile : String → Option LifecycleSnapshot) (browser : String → Browser)
    (es : List JointEvent) (slotId operation requestId : String) (delivery : Delivery) :
    let j := (Joint.initial d snapshotFile lastGoodFile browser).run urlsplit d es
    (∀ principalId, Stranger j.router.sessions principalId slotId →
      Kept (j.slots slotId) ((slotCommand urlsplit d slotId operation requestId delivery j.slots
        (some principalId)).2 slotId)) ↔
      Harmless urlsplit d slotId operation requestId delivery (j.slots slotId) := by
  intro j
  have hsane : Sane (d.boot slotId) (j.slots slotId) :=
    Joint.sane_run snapshotFile lastGoodFile browser es slotId
  have hserved : ∀ a principalId, Arrives d slotId operation requestId delivery a →
      (Kept (j.slots slotId) ((slotCommand urlsplit d slotId operation requestId delivery j.slots
        (some principalId)).2 slotId) ↔
        CommandHarmless urlsplit (d.boot slotId) a (j.slots slotId) operation) := by
    intro a principalId harrives
    rw [slotCommand_arrives harrives,Function.update_self]
    exact kept_command hsane harrives.operation harrives.request
  constructor
  · intro h a harrives
    obtain ⟨principalId,hstranger⟩ := exists_stranger j.router.sessions slotId
    exact (hserved a principalId harrives).mp (h principalId hstranger)
  · intro h principalId _
    by_cases harrives : ∃ a, Arrives d slotId operation requestId delivery a
    · obtain ⟨a,harrives⟩ := harrives
      exact (hserved a principalId harrives).mpr (h a harrives)
    · rw [slotCommand_refused (not_exists.mp harrives)]
      exact kept_refl

/-- One slot, which was started for alice. -/
def aliceFirst : Deployment := ⟨["slot-1"],fun _ => aliceBinding⟩

/-- Bob's session on the slot is active, and the slot has been woken for him. -/
def bobsTurn : List JointEvent :=
  [.router (.construct RouterSessions.oneSlot (.still 0)),
    .router (.call (.enqueue "bob" "r1" none) (.still 0)),
    .router (.call (.activate "q-1") (.still 0)),
    .control "slot-1" (wakeFor bobBinding)]

/-- Carol has no session, and her wake puts alice's binding in the place of bob's. -/
theorem stranger_takes_slot : ¬∀ (es : List JointEvent) (principalId operation : String),
    operation ∈ opSet →
    let j := (Joint.initial aliceFirst (fun _ => none) (fun _ => none)
      fun _ => ⟨"alice","generation-a",false,[]⟩).run oneSite aliceFirst es
    Stranger j.router.sessions principalId "slot-1" →
      Kept (j.slots "slot-1") ((slotCommand oneSite aliceFirst "slot-1" operation "req-1"
        (.reached obliging true) j.slots (some principalId)).2 "slot-1") := by
  intro h
  have hrows : (((Joint.initial aliceFirst (fun _ => none) (fun _ => none)
      fun _ => ⟨"alice","generation-a",false,[]⟩).run oneSite
        aliceFirst bobsTurn).router.sessions.rows.all (·.principalId = "bob")) = true := by
    decide +kernel
  have hbob : ∀ r ∈ ((Joint.initial aliceFirst (fun _ => none) (fun _ => none)
      fun _ => ⟨"alice","generation-a",false,[]⟩).run oneSite aliceFirst bobsTurn).router.sessions,
      r.principalId ≠ "carol" := by
    intro r hr hcarol
    have hown := of_decide_eq_true (List.all_eq_true.mp hrows r (Keyed.Table.mem_rows.mpr hr))
    rw [hcarol] at hown
    exact absurd hown (by decide)
  have hkept := (h bobsTurn "carol" "wake" (by decide)
    fun r hr hcarol => absurd hcarol (hbob r hr)).binding
  revert hkept
  decide +kernel

end SlotCommands
end CloudBrowser
