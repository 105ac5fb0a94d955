import CloudBrowser.Runs
import CloudBrowser.SlotSteps

/-! Runs of a slot under its supervisor, whose process may be restarted while the browser goes
on running, and when a binding is pushed only to a stopped browser. -/
namespace CloudBrowser
namespace BindingPush

open Stateful SlotSupervisor
open AgentControl (SplitResult)

inductive SlotEvent
  | wake (binding : BrowserBinding) (timeoutS pollS : ℚ) (answers : Answers)
  | suspend (binding : BrowserBinding) (answers : Answers)
  | stop (binding : BrowserBinding) (answers : Answers)
  | recreate (binding : BrowserBinding) (timeoutS pollS : ℚ) (answers : Answers)
  | adopt (binding : BrowserBinding) (answers : Answers)
  | restart

/-- The slot when the supervisor has come up beside a browser. -/
def booted (boot : BrowserBinding) (snapshotFile lastGoodFile : Option LifecycleSnapshot)
    (browser : Browser) : Slot where
  lifecycle := ⟨boot,.stopped,snapshotFile,lastGoodFile⟩
  transport := ⟨boot.principalId,boot.generation⟩
  browser := browser

section Runs

variable (urlsplit : String → Except Unit SplitResult) (boot : BrowserBinding)

def next (s : Slot) : SlotEvent → Slot
  | .wake binding timeoutS pollS a => (exec (wake urlsplit a binding timeoutS pollS) s).2
  | .suspend binding a => (exec (suspend urlsplit a binding) s).2
  | .stop binding a => (exec (stop a binding) s).2
  | .recreate binding timeoutS pollS a => (exec (recreate urlsplit a binding timeoutS pollS) s).2
  | .adopt binding a => (exec (adoptBinding a binding) s).2
  | .restart =>
    { booted boot s.lifecycle.snapshotFile s.lifecycle.lastGoodFile s.browser with
      pushes := s.pushes }

/-- A wake with this binding comes to start the browser. -/
def Starts (s : Slot) (binding : BrowserBinding) (timeoutS pollS : ℚ) : Prop :=
  requirePositiveTimeout timeoutS pollS = .ok () ∧ binding = s.lifecycle.binding ∧
    s.lifecycle.state ∈ [.stopped,.suspended,.failed]

/-- A `stop` with this binding gets through. -/
def Stops (s : Slot) (binding : BrowserBinding) (a : Answers) : Prop :=
  (probeOwner s.transport s.browser binding a.owner).isOk ∧ a.stop = .acknowledged ∧
    binding = s.lifecycle.binding

/-- A start that takes effect either brings the browser up or is undone by the cleanup. -/
def CleanedUp (s : Slot) (a : Answers) : Prop :=
  a.start.effective = true → ComesUp urlsplit a s ∨ a.cleanup.effective = true

/-- The step leaves no browser running behind a stopped lifecycle. -/
def Sound (s : Slot) : SlotEvent → Prop
  | .wake binding timeoutS pollS a => Starts s binding timeoutS pollS → CleanedUp urlsplit s a
  | .recreate binding timeoutS pollS a => Stops s binding a →
      requirePositiveTimeout timeoutS pollS = .ok () → CleanedUp urlsplit s a
  | .restart => s.browser.running = false
  | _ => True

end Runs

/-- Every binding was pushed while the browser was not running. -/
def PushedStopped (s : Slot) : Prop :=
  ∀ p ∈ s.pushes, p.running = false

/-- The lifecycle of a slot whose browser runs is ready. -/
structure Coupled (s : Slot) : Prop where
  state : s.lifecycle.state = .ready ∨
    s.lifecycle.state ∈ [.stopped,.suspended] ∧ s.browser.running = false
  pushed : PushedStopped s

section Steps

variable {urlsplit : String → Except Unit SplitResult} {boot : BrowserBinding} {a : Answers}
  {s : Slot} {binding : BrowserBinding}

theorem Coupled.restart (hs : Coupled s) (h : s.browser.running = false) :
    Coupled (next urlsplit boot s .restart) :=
  ⟨.inr ⟨List.mem_cons_self,h⟩,hs.pushed⟩

theorem Coupled.stopping (hs : Coupled s) (reply : Reply) :
    Coupled { s with browser := reply.on Browser.stopped s.browser } := by
  refine ⟨?_,hs.pushed⟩
  rcases hs.state with hready | ⟨hstate,hrunning⟩
  · exact .inl hready
  · exact .inr ⟨hstate,by rw [on_stopped_running,hrunning,Bool.false_and]⟩

/-- A stopped slot is coupled to a browser that is not running. -/
theorem coupled_stopped {state : BrowserState} (hs : PushedStopped s)
    (hstate : state ∈ [.stopped,.suspended]) {browser : Browser} (h : browser.running = false) :
    Coupled { s.inState state with browser := browser } :=
  ⟨.inr ⟨hstate,h⟩,hs⟩

theorem Coupled.down (hs : Coupled s) (h : s.lifecycle.state ∈ [.stopped,.suspended,.failed]) :
    s.browser.running = false := by
  rcases hs.state with hready | ⟨-,hrunning⟩
  · simp [hready] at h
  · exact hrunning

/-- A wake that starts the browser keeps the two coupled exactly if it cleans up. -/
theorem coupled_wake_start (hs : Coupled s) {timeoutS pollS : ℚ}
    (htime : requirePositiveTimeout timeoutS pollS = .ok ())
    (hstate : s.lifecycle.state ∈ [.stopped,.suspended,.failed]) :
    Coupled (exec (wake urlsplit a s.lifecycle.binding timeoutS pollS) s).2 ↔
      CleanedUp urlsplit s a := by
  have hok := launch_ok urlsplit a s
  have hrunning := launch_running urlsplit a s
  rw [hs.down hstate,Bool.false_or] at hrunning
  rw [exec_wake_start urlsplit a s htime hstate]
  rcases hl : launch urlsplit a s with ⟨e | _,browser⟩ <;> rw [hl] at hok hrunning
  · have hdown : ¬ComesUp urlsplit a s := fun h => nomatch hok.mpr h
    change browser.running = a.start.effective at hrunning
    constructor
    · intro h hstart
      have hstopped := h.down List.mem_cons_self
      simp only [on_stopped_running,hrunning,hstart,Bool.true_and] at hstopped
      exact .inr (by simpa using hstopped)
    · intro h
      refine ⟨.inr ⟨List.mem_cons_self,?_⟩,hs.pushed⟩
      simp only [on_stopped_running,hrunning]
      by_cases hstart : a.start.effective = true
      · simp [(h hstart).resolve_left hdown]
      · simp [hstart]
  · exact ⟨fun _ _ => .inl (hok.mp rfl),fun _ => ⟨.inl rfl,hs.pushed⟩⟩

theorem coupled_wake (hs : Coupled s) (timeoutS pollS : ℚ) :
    Coupled (exec (wake urlsplit a binding timeoutS pollS) s).2 ↔
      (Starts s binding timeoutS pollS → CleanedUp urlsplit s a) := by
  cases htime : requirePositiveTimeout timeoutS pollS with
  | error e =>
    rw [exec_wake_untimed urlsplit a s htime]
    simp [Starts,htime,hs]
  | ok _ =>
    by_cases hb : binding = s.lifecycle.binding
    · subst hb
      rcases hs.state with hready | ⟨hstate,-⟩
      · rw [exec_wake_ready urlsplit a s htime hready]
        simp [Starts,hready,hs]
      · have hstart : s.lifecycle.state ∈ [.stopped,.suspended,.failed] := by
          simp only [List.mem_cons] at hstate ⊢
          tauto
        rw [coupled_wake_start hs htime hstart]
        simp [Starts,htime,hstart]
    · obtain ⟨e,he⟩ := exec_wake_refused urlsplit a s htime (fun h => absurd h hb)
      rw [he]
      simp [Starts,hb,hs]

theorem coupled_stop (hs : Coupled s) : Coupled (exec (stop a binding) s).2 := by
  rw [exec_stop]
  cases probeOwner s.transport s.browser binding a.owner with
  | error e => exact hs
  | ok _ =>
    cases h : a.stop with
    | failed e effective => exact hs.stopping _
    | acknowledged =>
      by_cases hb : binding = s.lifecycle.binding
      · simp only [Reply.outcome_acknowledged,hb,if_true]
        exact coupled_stopped hs.pushed (by simp) rfl
      · simp only [Reply.outcome_acknowledged,hb,if_false]
        exact hs.stopping .acknowledged

theorem coupled_suspend (hs : Coupled s) : Coupled (exec (suspend urlsplit a binding) s).2 := by
  rw [exec_suspend]
  cases capture urlsplit a s binding with
  | error e => exact hs
  | ok captured =>
    have hsaved : Coupled { s with lifecycle := (writeTabs a captured s.lifecycle).2 } :=
      ⟨by simpa using hs.state,hs.pushed⟩
    dsimp only
    rcases hw : writeTabs a captured s.lifecycle with ⟨e | _,l⟩ <;> rw [hw] at hsaved
    · exact hsaved
    · cases a.stop with
      | failed e effective => exact hsaved.stopping _
      | acknowledged => exact ⟨.inr ⟨by simp,rfl⟩,hs.pushed⟩

theorem coupled_rebind (hs : PushedStopped s) (hstate : s.lifecycle.state = .stopped)
    (hdown : s.browser.running = false) : Coupled (rebind a s binding).2 := by
  have hrebound : (a.push.on (·.rebound binding) s.browser).running = false :=
    (Reply.on_same (g:=Browser.running) (·.rebound_running binding) _ _).trans hdown
  refine ⟨.inr ⟨?_,hrebound⟩,?_⟩
  · simp only [rebind]
    cases a.push.outcome <;> simp [hstate]
  · intro p hp
    rcases List.mem_append.mp hp with hp | hp
    · exact hs p hp
    · rw [List.mem_singleton.mp hp]
      exact hdown

theorem coupled_adopt (hs : Coupled s) : Coupled (exec (adoptBinding a binding) s).2 := by
  rw [exec_adoptBinding]
  split_ifs with hslot hstate
  · exact hs
  · exact coupled_rebind hs.pushed hstate (hs.down (by simp [hstate]))
  · cases a.stop with
    | failed e effective => exact hs.stopping _
    | acknowledged => exact coupled_rebind hs.pushed rfl rfl

theorem coupled_recreate (hs : Coupled s) (timeoutS pollS : ℚ) :
    Coupled (exec (recreate urlsplit a binding timeoutS pollS) s).2 ↔
      (Stops s binding a → requirePositiveTimeout timeoutS pollS = .ok () →
        CleanedUp urlsplit s a) := by
  rw [recreate,exec_bind,exec_stop]
  cases ho : probeOwner s.transport s.browser binding a.owner with
  | error e =>
    refine iff_of_true hs fun hstops => ?_
    have hok := hstops.1
    rw [ho] at hok
    cases hok
  | ok _ =>
    cases h : a.stop with
    | failed e effective =>
      refine iff_of_true (hs.stopping _) fun hstops => ?_
      cases h.symm.trans hstops.2.1
    | acknowledged =>
      simp only [Reply.outcome_acknowledged,Reply.on_acknowledged]
      by_cases hb : binding = s.lifecycle.binding
      · subst hb
        have hstopped : Coupled { s.inState .stopped with browser := s.browser.stopped } :=
          coupled_stopped hs.pushed (by simp) rfl
        rw [if_pos rfl]
        refine (coupled_wake hstopped timeoutS pollS).trans ⟨?_,?_⟩
        · intro hc _ htime hstart
          rw [← comesUp_stopped urlsplit a s .stopped]
          exact hc ⟨htime,rfl,List.mem_cons_self⟩ hstart
        · intro hc hstarts hstart
          rw [comesUp_stopped]
          exact hc ⟨by rw [ho]; rfl,h,rfl⟩ hstarts.1 hstart
      · rw [if_neg hb]
        exact iff_of_true (hs.stopping .acknowledged) fun hstops => absurd hstops.2.2 hb

/-- One step keeps the lifecycle and the browser coupled exactly if it is sound. -/
theorem coupled_next (hs : Coupled s) (e : SlotEvent) :
    Coupled (next urlsplit boot s e) ↔ Sound urlsplit s e := by
  cases e with
  | wake binding timeoutS pollS a => exact coupled_wake hs timeoutS pollS
  | suspend binding a => exact iff_of_true (coupled_suspend hs) trivial
  | stop binding a => exact iff_of_true (coupled_stop hs) trivial
  | recreate binding timeoutS pollS a => exact coupled_recreate hs timeoutS pollS
  | adopt binding a => exact iff_of_true (coupled_adopt hs) trivial
  | restart => exact ⟨fun h => h.down List.mem_cons_self,fun h => hs.restart h⟩

theorem coupled_booted (boot : BrowserBinding) (snapshotFile lastGoodFile : Option LifecycleSnapshot)
    (owner generation : String) :
    Coupled (booted boot snapshotFile lastGoodFile ⟨owner,generation,false,[]⟩) :=
  ⟨.inr ⟨List.mem_cons_self,rfl⟩,nofun⟩

end Steps

section Examples

def aliceBinding : BrowserBinding := ⟨"profile-alice","alice","browser-1","generation-a"⟩

def bobBinding : BrowserBinding := ⟨"profile-bob","bob","browser-1","generation-b"⟩

/-- A transport that does as it is told. -/
def obliging : Answers where
  owner := .own true
  probe := .own true
  probes := []
  start := .acknowledged
  fresh := ["about:blank"]
  stop := .acknowledged
  cleanup := .acknowledged
  opens _ := .acknowledged
  closeEmpty := .acknowledged
  listing := .ok ["https://site/"]
  push := .acknowledged
  snapshotWrite := .acknowledged
  lastGoodWrite := .acknowledged

/-- The browser starts and never gets ready, and then cannot be stopped. -/
def stuck : Answers :=
  { obliging with
    probe := .own false
    cleanup := .failed (.browserUnavailable "browser API is unavailable") false }

def oneSite (_ : String) : Except Unit SplitResult :=
  .ok ⟨"https","site","/","","",none,none⟩

def aliceSlot : Slot := booted aliceBinding none none ⟨"alice","generation-a",false,[]⟩

end Examples

/-- Where no step leaves a browser running behind a stopped lifecycle, every binding of the run
is pushed to a stopped browser. -/
theorem pushedStopped_always (urlsplit : String → Except Unit SplitResult) (boot : BrowserBinding)
    (snapshotFile lastGoodFile : Option LifecycleSnapshot) (owner generation : String)
    (es : List SlotEvent)
    (h : Runs.Each (next urlsplit boot) (Sound urlsplit)
      (booted boot snapshotFile lastGoodFile ⟨owner,generation,false,[]⟩) es) :
    Runs.Always (next urlsplit boot) PushedStopped
      (booted boot snapshotFile lastGoodFile ⟨owner,generation,false,[]⟩) es :=
  (Runs.always_of_each (coupled_booted boot snapshotFile lastGoodFile owner generation)
    (fun _ e hs he => (coupled_next hs e).mpr he) h).mono fun _ hs => hs.pushed

theorem pushedStopped_takeover : Runs.Always (next oneSite aliceBinding) PushedStopped aliceSlot
    [.wake aliceBinding 30 (1/10) obliging,.suspend aliceBinding obliging,.restart,
      .adopt bobBinding obliging,.recreate bobBinding 30 (1/10) obliging] := by
  refine pushedStopped_always oneSite aliceBinding none none "alice" "generation-a" _
    ⟨fun _ _ => .inr rfl,trivial,?_,trivial,fun _ _ _ => .inr rfl,trivial⟩
  show Browser.running _ = false
  decide +kernel

/-- The cleanup stop of a failed wake fails too; the slot counts as stopped, and the next
binding is pushed to the running browser. -/
theorem pushed_running : ¬∀ (urlsplit : String → Except Unit SplitResult) (boot : BrowserBinding)
    (snapshotFile lastGoodFile : Option LifecycleSnapshot) (owner generation : String)
    (es : List SlotEvent), Runs.Always (next urlsplit boot) PushedStopped
      (booted boot snapshotFile lastGoodFile ⟨owner,generation,false,[]⟩) es := by
  intro h
  have hrun := (h oneSite aliceBinding none none "alice" "generation-a"
    [.wake aliceBinding 30 (1/10) stuck,.adopt bobBinding obliging]).last
  have hpush := hrun ⟨bobBinding,true⟩ (by decide +kernel)
  cases hpush

end BindingPush
end CloudBrowser
