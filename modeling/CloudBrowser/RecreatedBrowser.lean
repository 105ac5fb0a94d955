import CloudBrowser.ControlApi

/-! What a recreate recovers, with the browser sidecar behind the transport. -/
namespace CloudBrowser
namespace BindingPush

open Stateful SlotSupervisor
open AgentControl (SplitResult)

/-- What `HttpBrowserTransport` gets for a readiness probe: the sidecar answers 503 for a browser
that does not run, whether it was stopped or has crashed. -/
def sidecarProbe (b : Browser) : Probe :=
  if b.running then .own true else .failed (.browserUnavailable "browser API is unavailable")

/-- The transport carries out a start and a stop, and reports the current binding of the slot, with
a ready browser, wherever one runs. -/
structure Dependable (a : Answers) (s : Slot) : Prop where
  agree : Agree s.transport s.browser s.lifecycle.binding
  owner : a.owner = sidecarProbe s.browser
  start : a.start = .acknowledged
  stop : a.stop = .acknowledged
  probe : a.probe = .own true

/-- The restored pages are opened, and the empty ones closed. -/
def Restores (urlsplit : String → Except Unit SplitResult) (a : Answers) (s : Slot) : Prop :=
  (∀ i < (s.lifecycle.savedTabs urlsplit).length, a.opens i = .acknowledged) ∧
    a.closeEmpty = .acknowledged

/-- A recreate has returned, and the browser runs, ready under the binding. -/
structure Recovered (binding : BrowserBinding) (out : Except SlotError OrchestrationResult × Slot) :
    Prop where
  returned : ∃ result, out.1 = .ok result ∧ result.state = .ready
  state : out.2.lifecycle.state = .ready
  binding : out.2.lifecycle.binding = binding
  running : out.2.browser.running = true

section Recreate

variable {urlsplit : String → Except Unit SplitResult} {a : Answers} {s : Slot}

theorem waitReady_at_once {transport : HttpBrowserTransport} {b : Browser}
    {binding : BrowserBinding} (h : Agree transport b binding) (ps : List Probe) :
    waitReady transport b binding (.own true) ps = .ok () := by
  cases ps <;>
    simp [SlotSupervisor.waitReady,h.probeOwner,bind,Except.bind,pure,Except.pure]

theorem comesUp_iff (h : Dependable a s) : ComesUp urlsplit a s ↔ Restores urlsplit a s := by
  have hready : waitReady s.transport s.browser s.lifecycle.binding a.probe a.probes = .ok () := by
    rw [h.probe]
    exact waitReady_at_once h.agree a.probes
  constructor
  · intro hup
    exact ⟨hup.opened,hup.closed⟩
  · intro hrestores
    exact ⟨h.start,hready,hrestores.1,hrestores.2⟩

/-- A browser that does not run is not found ready, and the stop before the wake is refused. -/
theorem recreate_down (urlsplit : String → Except Unit SplitResult) (h : Dependable a s) (hrunning : s.browser.running = false)
    (timeoutS pollS : ℚ) : ∃ e, exec (recreate urlsplit a s.lifecycle.binding timeoutS pollS) s =
      (.error e,s) := by
  have howner : probeOwner s.transport s.browser s.lifecycle.binding a.owner =
      .error (.browserUnavailable "browser API is unavailable") := by
    simp [h.owner,sidecarProbe,hrunning,probeOwner,readiness,report,bind,Except.bind]
  rw [recreate,exec_bind,exec_stop,howner]
  exact ⟨_,rfl⟩

theorem recreate_up (h : Dependable a s) (hrunning : s.browser.running = true) :
    exec (recreate urlsplit a s.lifecycle.binding) s =
      exec (wake urlsplit a s.lifecycle.binding)
        { s.inState .stopped with browser := s.browser.stopped } := by
  have howner : probeOwner s.transport s.browser s.lifecycle.binding a.owner =
      .ok ⟨s.browser.owner,s.browser.generation,true⟩ := by
    rw [h.owner,sidecarProbe,if_pos hrunning]
    exact h.agree.probeOwner true
  rw [recreate,exec_bind,exec_stop,howner,h.stop]
  simp

/-- A recreate under the current binding recovers the browser exactly if it was running, and its
pages can be restored. -/
theorem recovered_iff (urlsplit : String → Except Unit SplitResult) (a : Answers) (s : Slot)
    (h : Dependable a s) :
    Recovered s.lifecycle.binding (exec (recreate urlsplit a s.lifecycle.binding) s) ↔
      s.browser.running = true ∧ Restores urlsplit a s := by
  cases hrunning : s.browser.running with
  | false =>
    obtain ⟨e,hrun⟩ := recreate_down urlsplit h hrunning 30 (1/10)
    constructor
    · intro hrecovered
      obtain ⟨result,hresult,-⟩ := hrecovered.returned
      rw [hrun] at hresult
      cases hresult
    · intro hup
      cases hup.1
  | true =>
    -- the wake that follows starts from a stopped slot
    have hwake := exec_wake_start urlsplit a
      { s.inState .stopped with browser := s.browser.stopped } ControlApi.defaultTimeout_positive
      List.mem_cons_self
    have hlaunch := launch_ok urlsplit a { s.inState .stopped with browser := s.browser.stopped }
    have hruns := launch_running urlsplit a { s.inState .stopped with browser := s.browser.stopped }
    rw [comesUp_stopped,comesUp_iff h] at hlaunch
    rw [h.start] at hruns
    rw [recreate_up h hrunning,eq_self,true_and,← hlaunch]
    rcases hl : launch urlsplit a { s.inState .stopped with browser := s.browser.stopped }
      with ⟨e | _,browser⟩
    · rw [hl] at hwake
      constructor
      · intro hrecovered
        have hready := hrecovered.state
        rw [show exec (wake urlsplit a s.lifecycle.binding) _ = _ from hwake] at hready
        cases hready
      · intro hok
        cases hok
    · rw [hl] at hwake hruns
      constructor
      · intro _
        rfl
      · intro _
        rw [show exec (wake urlsplit a s.lifecycle.binding) _ = _ from hwake]
        exact ⟨⟨_,rfl,rfl⟩,rfl,rfl,by simpa using hruns⟩

end Recreate

/-- What comes back for a recreate from the sidecar. -/
def dependable (s : Slot) : Answers :=
  { obliging with owner := sidecarProbe s.browser }

/-- alice's slot after a wake. -/
def awake : Slot := next oneSite aliceBinding aliceSlot (.wake aliceBinding 30 (1/10) obliging)

theorem recovered_alice : Recovered awake.lifecycle.binding
    (exec (recreate oneSite (dependable awake) awake.lifecycle.binding) awake) :=
  (recovered_iff oneSite (dependable awake) awake
    ⟨⟨by decide +kernel,by decide +kernel,by decide +kernel⟩,rfl,rfl,rfl,rfl⟩).mpr
    ⟨by decide +kernel,fun _ _ => rfl,rfl⟩

/-- A suspended slot is not recovered: its browser does not run, so that the owner check of the
stop is refused. -/
theorem suspended_not_recovered : ¬∀ (urlsplit : String → Except Unit SplitResult)
    (boot : BrowserBinding) (snapshotFile lastGoodFile : Option LifecycleSnapshot)
    (es : List SlotEvent) (s : Slot), s = es.foldl (next urlsplit boot)
      (booted boot snapshotFile lastGoodFile ⟨boot.principalId,boot.generation,false,[]⟩) →
    s.lifecycle.state ∈ [.ready,.suspended,.stopped] → ∀ a, Dependable a s → Restores urlsplit a s →
      Recovered s.lifecycle.binding (exec (recreate urlsplit a s.lifecycle.binding) s) := by
  intro h
  have hrun := h oneSite aliceBinding none none
    [.wake aliceBinding 30 (1/10) obliging,.suspend aliceBinding obliging] _ rfl (by decide +kernel)
    (dependable (next oneSite aliceBinding awake (.suspend aliceBinding obliging)))
    ⟨⟨by decide +kernel,by decide +kernel,by decide +kernel⟩,rfl,rfl,rfl,rfl⟩ ⟨fun _ _ => rfl,rfl⟩
  exact absurd hrun.running (by decide +kernel)

end BindingPush
end CloudBrowser
