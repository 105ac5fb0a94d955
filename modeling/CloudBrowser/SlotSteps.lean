import CloudBrowser.SlotSupervisor

/-! What each operation of the slot supervisor returns, and the slot that it leaves. -/
namespace CloudBrowser
namespace SlotSupervisor
open Stateful
open AgentControl (SplitResult)

namespace OwnerBoundLifecycle

variable (l : OwnerBoundLifecycle) (binding : BrowserBinding)

def mismatch : SlotError := .lifecycleError "owner or browser binding mismatch"

theorem requireBinding_bind {α : Type} (f : Unit → Except SlotError α) :
    (l.requireBinding binding >>= f) =
      if binding = l.binding then f () else .error mismatch := by
  by_cases h : binding = l.binding <;> simp [requireBinding,h,mismatch,bind,Except.bind]

@[simp] theorem stop_own : l.stop l.binding = .ok { l with state := .stopped } := by
  rw [stop,requireBinding_bind,if_pos rfl]
  rfl

theorem stop_foreign (h : binding ≠ l.binding) : l.stop binding = .error mismatch := by
  rw [stop,requireBinding_bind,if_neg h]

theorem start_own (h : l.state ∈ [.stopped,.suspended,.failed]) :
    l.start l.binding = .ok { l with state := .starting } := by
  rw [start,requireBinding_bind,if_pos rfl,if_pos h]
  rfl

theorem start_refused (h : binding = l.binding → l.state ∉ [.stopped,.suspended,.failed]) :
    ∃ e, l.start binding = .error e := by
  rw [start,requireBinding_bind]
  by_cases hb : binding = l.binding
  · rw [if_pos hb,if_neg (h hb)]
    exact ⟨_,rfl⟩
  · rw [if_neg hb]
    exact ⟨_,rfl⟩

@[simp] theorem markReady_own (h : l.state = .starting) :
    l.markReady l.binding = .ok { l with state := .ready } := by
  rw [markReady,requireBinding_bind,if_pos rfl,if_pos h]
  rfl

theorem suspend_own (h : l.state = .ready) :
    l.suspend l.binding = .ok { l with state := .suspended } := by
  rw [suspend,requireBinding_bind,if_pos rfl,if_pos (by simp [h])]
  rfl

theorem captureTabs_ok {urlsplit : String → Except Unit SplitResult} {urls : List String}
    {captured : LifecycleSnapshot} (h : l.captureTabs urlsplit binding urls = .ok captured) :
    binding = l.binding ∧ l.state = .ready := by
  rw [captureTabs,requireBinding_bind] at h
  by_cases hb : binding = l.binding
  · by_cases hready : l.state = .ready
    · exact ⟨hb,hready⟩
    · rw [if_pos hb,if_neg hready] at h
      cases h
  · rw [if_neg hb] at h
    cases h

/-- The tabs that a wake restores. -/
def savedTabs (urlsplit : String → Except Unit SplitResult) : List String :=
  (readSnapshot urlsplit l.binding l.snapshotFile).getD
    ((readSnapshot urlsplit l.binding l.lastGoodFile).getD [])

@[simp] theorem loadTabs_own (urlsplit : String → Except Unit SplitResult) :
    l.loadTabs urlsplit l.binding = .ok (l.savedTabs urlsplit) := by
  rw [loadTabs,requireBinding_bind,if_pos rfl,savedTabs]
  cases readSnapshot urlsplit l.binding l.snapshotFile <;> rfl

end OwnerBoundLifecycle

section Slots

variable (s : Slot) (state state' : BrowserState) (urlsplit : String → Except Unit SplitResult)

@[simp] theorem inState_transport : (s.inState state).transport = s.transport := rfl

@[simp] theorem inState_browser : (s.inState state).browser = s.browser := rfl

@[simp] theorem inState_pushes : (s.inState state).pushes = s.pushes := rfl

@[simp] theorem inState_state : (s.inState state).lifecycle.state = state := rfl

@[simp] theorem inState_binding : (s.inState state).lifecycle.binding = s.lifecycle.binding := rfl

@[simp] theorem inState_savedTabs :
    (s.inState state).lifecycle.savedTabs urlsplit = s.lifecycle.savedTabs urlsplit := rfl

@[simp] theorem inState_loadTabs : (s.inState state).lifecycle.loadTabs urlsplit s.lifecycle.binding =
    .ok (s.lifecycle.savedTabs urlsplit) :=
  OwnerBoundLifecycle.loadTabs_own _ _

@[simp] theorem inState_inState : (s.inState state).inState state' = s.inState state' := rfl

end Slots

section Steps

variable (urlsplit : String → Except Unit SplitResult) (a : Answers) (s : Slot)
  (binding : BrowserBinding)

@[simp] theorem exec_command (reply : Reply) (effect : Browser → Browser) :
    exec (command reply effect) s = (reply.outcome,{ s with browser := reply.on effect s.browser }) := by
  simp [command,exec_bind]

@[simp] theorem exec_writeSnapshot (reply : Reply)
    (put : OwnerBoundLifecycle → OwnerBoundLifecycle) : exec (writeSnapshot reply put) s =
      (reply.outcome,{ s with lifecycle := reply.on put s.lifecycle }) := by
  simp [writeSnapshot,exec_bind]

theorem exec_onLifecycle (method : OwnerBoundLifecycle → Except SlotError OwnerBoundLifecycle) :
    exec (onLifecycle method) s = match method s.lifecycle with
      | .ok l => (.ok (),{ s with lifecycle := l })
      | .error e => (.error e,s) := by
  simp only [onLifecycle,exec_update]
  cases method s.lifecycle <;> rfl

/-- What `openPages` returns, and what it makes of the browser. -/
def openAll : ℕ → List String → Browser → Except SlotError Unit × Browser
  | _, [], b => (.ok (),b)
  | n, url::urls, b =>
    match isPageUrl urlsplit url with
    | .error e => (.error e,b)
    | .ok false => (.error (.valueError "only absolute HTTP(S) page URLs are allowed"),b)
    | .ok true => match a.opens n with
      | .acknowledged => openAll (n+1) urls (b.opened url)
      | .failed e _ => (.error e,(a.opens n).on (·.opened url) b)

theorem exec_openPages (n : ℕ) (urls : List String) : exec (openPages urlsplit a n urls) s =
    ((openAll urlsplit a n urls s.browser).1,
      { s with browser := (openAll urlsplit a n urls s.browser).2 }) := by
  induction urls generalizing n s with
  | nil => rfl
  | cons url urls ih =>
    simp only [openPages,openAll,openPage,exec_bind,exec_check]
    rcases isPageUrl urlsplit url with e | _ | _
    · rfl
    · rfl
    · cases h : a.opens n <;> simp [Reply.outcome,ih]

/-- How `bringUp` ends for the binding of the slot, and the browser that it leaves. -/
def launch : Except SlotError Unit × Browser :=
  let browser := a.start.on (·.started a.fresh) s.browser
  match a.start.outcome with
  | .error e => (.error e,browser)
  | .ok _ =>
    match waitReady s.transport browser s.lifecycle.binding a.probe a.probes with
    | .error e => (.error e,browser)
    | .ok _ =>
      match openAll urlsplit a 0 (s.lifecycle.savedTabs urlsplit) browser with
      | (.error e,browser) => (.error e,browser)
      | (.ok _,browser) => (a.closeEmpty.outcome,a.closeEmpty.on Browser.emptyClosed browser)

theorem exec_safeStop : exec (safeStop a binding) s = (a.cleanup.outcome,
    { s with
      browser := a.cleanup.on Browser.stopped s.browser
      lifecycle := if s.lifecycle.binding = binding then { s.lifecycle with state := .stopped }
        else s.lifecycle }) := by
  rw [safeStop,exec_ensuring,exec_command]
  by_cases h : s.lifecycle.binding = binding
  · subst h
    simp [exec_bind,exec_onLifecycle]
  · simp [exec_bind,h]

theorem exec_safeStop_own (state : BrowserState) (browser : Browser) :
    exec (safeStop a s.lifecycle.binding) { s.inState state with browser := browser } =
      (a.cleanup.outcome,
        { s.inState .stopped with browser := a.cleanup.on Browser.stopped browser }) := by
  rw [exec_safeStop]
  simp [Slot.inState]

theorem exec_markReady (browser : Browser) :
    exec (onLifecycle (·.markReady s.lifecycle.binding))
      { s.inState .starting with browser := browser } =
      (.ok (),{ s.inState .ready with browser := browser }) := by
  have h := (s.inState .starting).lifecycle.markReady_own rfl
  rw [inState_binding] at h
  rw [exec_onLifecycle,h]
  rfl

theorem exec_bringUp : ∃ state,
    exec (bringUp urlsplit a s.lifecycle.binding) (s.inState .starting) =
      ((launch urlsplit a s).1.map fun _ => ⟨"ready",.ready,s.lifecycle.savedTabs urlsplit⟩,
        { s.inState state with browser := (launch urlsplit a s).2 }) ∧
      ((launch urlsplit a s).1 = .ok () → state = .ready) := by
  simp only [launch]
  rw [bringUp,exec_bind,exec_command]
  cases hstart : a.start.outcome with
  | error e => exact ⟨.starting,rfl,nofun⟩
  | ok _ =>
    simp only [exec_bind,exec_inspect,inState_browser]
    cases hwait : waitReady s.transport (a.start.on (·.started a.fresh) s.browser)
      s.lifecycle.binding a.probe a.probes with
    | error e =>
      rw [← inState_transport s .starting] at hwait
      exact ⟨.starting,by rw [hwait]; rfl,nofun⟩
    | ok _ =>
      rw [← inState_transport s .starting] at hwait
      refine ⟨.ready,?_,fun _ => rfl⟩
      simp only [hwait,exec_markReady,inState_loadTabs,exec_openPages]
      rcases openAll urlsplit a 0 (s.lifecycle.savedTabs urlsplit)
        (a.start.on (·.started a.fresh) s.browser) with ⟨e | _,browser⟩
      · rfl
      · cases h : a.closeEmpty.outcome <;> simp [h,Except.map]

theorem exec_requireTransportOwner : exec (requireTransportOwner a binding) s =
    ((probeOwner s.transport s.browser binding a.owner).map fun _ => (),s) := by
  show exec (inspect _ >>= fun _ => pure ()) s = _
  rw [exec_bind,exec_inspect]
  cases probeOwner s.transport s.browser binding a.owner <;> rfl

theorem exec_stop : exec (stop a binding) s =
    match probeOwner s.transport s.browser binding a.owner,a.stop.outcome with
    | .error e,_ => (.error e,s)
    | .ok _,.error e => (.error e,{ s with browser := a.stop.on Browser.stopped s.browser })
    | .ok _,.ok _ => if binding = s.lifecycle.binding then
        (.ok ⟨"stopped",.stopped,[]⟩,
          { s.inState .stopped with browser := a.stop.on Browser.stopped s.browser })
      else (.error OwnerBoundLifecycle.mismatch,
        { s with browser := a.stop.on Browser.stopped s.browser }) := by
  rw [stop,exec_bind,exec_requireTransportOwner]
  cases probeOwner s.transport s.browser binding a.owner with
  | error e => rfl
  | ok _ =>
    simp only [Except.map,exec_bind,exec_command]
    cases a.stop.outcome with
    | error e => rfl
    | ok _ =>
      by_cases hb : binding = s.lifecycle.binding
      · subst hb
        simp [exec_onLifecycle,Slot.inState]
      · simp [exec_onLifecycle,OwnerBoundLifecycle.stop_foreign _ _ hb,hb]

theorem exec_pushBinding : exec (pushBinding a binding) s = (a.push.outcome,
    { s with
      pushes := s.pushes ++ [⟨binding,s.browser.running⟩]
      browser := a.push.on (·.rebound binding) s.browser
      transport := match a.push.outcome with
        | .ok _ => ⟨binding.principalId,binding.generation⟩
        | .error _ => s.transport }) := by
  rw [pushBinding,exec_bind,exec_modify]
  simp only [exec_bind,exec_command,exec_modify]
  cases a.push.outcome <;> rfl

/-- What a stopped slot makes of a new binding. -/
def rebind : Except SlotError OrchestrationResult × Slot :=
  (a.push.outcome.map fun _ => ⟨"adopted",.stopped,[]⟩,
    { s with
      pushes := s.pushes ++ [⟨binding,s.browser.running⟩]
      browser := a.push.on (·.rebound binding) s.browser
      transport := match a.push.outcome with
        | .ok _ => ⟨binding.principalId,binding.generation⟩
        | .error _ => s.transport
      lifecycle := match a.push.outcome with
        | .ok _ => { s.lifecycle with binding := binding }
        | .error _ => s.lifecycle })

theorem exec_rebind (h : s.lifecycle.state = .stopped) :
    exec (do
      pushBinding a binding
      tryCatch (onLifecycle (·.adoptBinding binding)) fun e => throw e.plain
      return ⟨"adopted",(← get).lifecycle.state,[]⟩) s = rebind a s binding := by
  rw [exec_bind,exec_pushBinding,rebind]
  cases a.push.outcome with
  | error e => rfl
  | ok _ =>
    simp [-bind_pure_comp,exec_bind,exec_tryCatch,exec_onLifecycle,
      OwnerBoundLifecycle.adoptBinding,h,Except.map]

theorem exec_adoptBinding : exec (adoptBinding a binding) s =
    if binding.browserId ≠ s.lifecycle.binding.browserId then
      (.error (.valueError "binding names a different browser slot"),s)
    else if s.lifecycle.state = .stopped then rebind a s binding
    else match a.stop.outcome with
      | .error e => (.error e,{ s with browser := a.stop.on Browser.stopped s.browser })
      | .ok _ => rebind a
        { s.inState .stopped with browser := a.stop.on Browser.stopped s.browser } binding := by
  rw [adoptBinding,exec_bind,exec_get]
  by_cases hb : binding.browserId = s.lifecycle.binding.browserId
  · by_cases hs : s.lifecycle.state = .stopped
    · simp [hb,hs,exec_bind,← exec_rebind]
    · simp only [hb,ne_eq,not_true,if_false]
      rw [exec_bind,exec_get]
      simp only [hs,not_false_iff,if_true,if_false]
      rw [exec_bind,exec_command]
      cases a.stop.outcome with
      | error e => rfl
      | ok _ =>
        show exec (onLifecycle (·.stop s.lifecycle.binding) >>= _) _ = _
        rw [exec_bind,exec_onLifecycle,OwnerBoundLifecycle.stop_own,← exec_rebind]
        · rfl
        · rfl
  · simp [hb]

/-- The two writes of `record_tabs`. -/
def writeTabs (captured : LifecycleSnapshot) (l : OwnerBoundLifecycle) :
    Except SlotError Unit × OwnerBoundLifecycle :=
  let l := a.snapshotWrite.on ({ · with snapshotFile := some captured }) l
  match a.snapshotWrite.outcome with
  | .error e => (.error e,l)
  | .ok _ => (a.lastGoodWrite.outcome,
      a.lastGoodWrite.on ({ · with lastGoodFile := some captured }) l)

theorem writeTabs_same {β : Type} {g : OwnerBoundLifecycle → β} (captured : LifecycleSnapshot)
    (l : OwnerBoundLifecycle)
    (hs : ∀ l : OwnerBoundLifecycle, g { l with snapshotFile := some captured } = g l)
    (hg : ∀ l : OwnerBoundLifecycle, g { l with lastGoodFile := some captured } = g l) :
    g (writeTabs a captured l).2 = g l := by
  simp only [writeTabs]
  cases a.snapshotWrite.outcome with
  | error e => exact Reply.on_same hs _ _
  | ok _ => exact (Reply.on_same hg _ _).trans (Reply.on_same hs _ _)

@[simp] theorem writeTabs_binding (captured : LifecycleSnapshot) (l : OwnerBoundLifecycle) :
    (writeTabs a captured l).2.binding = l.binding :=
  writeTabs_same a captured l (fun _ => rfl) (fun _ => rfl)

@[simp] theorem writeTabs_state (captured : LifecycleSnapshot) (l : OwnerBoundLifecycle) :
    (writeTabs a captured l).2.state = l.state :=
  writeTabs_same a captured l (fun _ => rfl) (fun _ => rfl)

theorem writeTabs_ok (captured : LifecycleSnapshot) (l : OwnerBoundLifecycle) :
    (writeTabs a captured l).1 = .ok () ↔
      a.snapshotWrite = .acknowledged ∧ a.lastGoodWrite = .acknowledged := by
  cases hs : a.snapshotWrite <;> cases hg : a.lastGoodWrite <;>
    simp [writeTabs,hs,hg,Reply.outcome]

theorem exec_recordTabs (urls : List String) : exec (recordTabs urlsplit a binding urls) s =
    match s.lifecycle.captureTabs urlsplit binding urls with
    | .error e => (.error e,s)
    | .ok captured => ((writeTabs a captured s.lifecycle).1.map fun _ => captured,
        { s with lifecycle := (writeTabs a captured s.lifecycle).2 }) := by
  rw [recordTabs,exec_bind,exec_inspect]
  cases s.lifecycle.captureTabs urlsplit binding urls with
  | error e => rfl
  | ok captured =>
    simp only [writeTabs,exec_bind,exec_writeSnapshot]
    cases a.snapshotWrite.outcome with
    | error e => rfl
    | ok _ => cases h : a.lastGoodWrite.outcome <;> simp [Except.map]

/-- What `suspend` is about to write, once the owner is checked and the pages are listed. -/
def capture : Except SlotError LifecycleSnapshot := do
  let _ ← probeOwner s.transport s.browser binding a.owner
  s.lifecycle.captureTabs urlsplit binding (← a.listing)

theorem exec_suspend : exec (suspend urlsplit a binding) s =
    match capture urlsplit a s binding with
    | .error e => (.error e,s)
    | .ok captured => match writeTabs a captured s.lifecycle,a.stop.outcome with
      | (.error e,l),_ => (.error e,{ s with lifecycle := l })
      | (.ok _,l),.error e =>
        (.error e,{ s with lifecycle := l, browser := a.stop.on Browser.stopped s.browser })
      | (.ok _,l),.ok _ => (.ok ⟨"suspended",.suspended,captured.urls⟩,
          { s with
            lifecycle := { l with state := .suspended }
            browser := a.stop.on Browser.stopped s.browser }) := by
  rw [suspend,exec_bind,exec_requireTransportOwner,capture]
  cases probeOwner s.transport s.browser binding a.owner with
  | error e => rfl
  | ok _ =>
    simp only [Except.map,exec_bind,exec_check,exec_recordTabs]
    cases a.listing with
    | error e => rfl
    | ok urls =>
      cases hc : s.lifecycle.captureTabs urlsplit binding urls with
      | error e => simp [hc,bind,Except.bind]
      | ok captured =>
        obtain ⟨rfl,hready⟩ := s.lifecycle.captureTabs_ok _ hc
        simp only [hc,bind,Except.bind]
        rcases hw : writeTabs a captured s.lifecycle with ⟨e | _,l⟩
        · rfl
        · have hb := writeTabs_binding a captured s.lifecycle
          have hs := writeTabs_state a captured s.lifecycle
          have hsuspend := l.suspend_own (by rw [← hready,← hs,hw])
          simp only [hw] at hb
          rw [hb] at hsuspend
          simp only [exec_command]
          cases a.stop.outcome with
          | error e => rfl
          | ok _ => simp [-bind_pure_comp,exec_onLifecycle,hsuspend,hb]

variable {timeoutS pollS : ℚ} {binding}

theorem exec_wake_untimed {e : SlotError} (h : requirePositiveTimeout timeoutS pollS = .error e) :
    exec (wake urlsplit a binding timeoutS pollS) s = (.error e,s) := by
  rw [wake,exec_bind,h]
  rfl

/-- A wake of the binding that is up already only looks. -/
theorem exec_wake_ready (h : requirePositiveTimeout timeoutS pollS = .ok ())
    (hready : s.lifecycle.state = .ready) :
    exec (wake urlsplit a s.lifecycle.binding timeoutS pollS) s =
      ((waitReady s.transport s.browser s.lifecycle.binding a.probe a.probes).map
        fun _ => ⟨"ready",.ready,s.lifecycle.savedTabs urlsplit⟩,s) := by
  rw [wake,exec_bind,h]
  simp only [exec_check,exec_bind,exec_get,hready,and_self,if_true,exec_inspect]
  cases waitReady s.transport s.browser s.lifecycle.binding a.probe a.probes <;>
    simp [hready,Except.map]

theorem exec_wake_refused (h : requirePositiveTimeout timeoutS pollS = .ok ())
    (hrefused : binding = s.lifecycle.binding → s.lifecycle.state = .starting) :
    ∃ e, exec (wake urlsplit a binding timeoutS pollS) s = (.error e,s) := by
  obtain ⟨e,he⟩ := s.lifecycle.start_refused binding (fun hb => by simp [hrefused hb])
  have hbusy : ¬(s.lifecycle.state = .ready ∧ s.lifecycle.binding = binding) := by
    rintro ⟨hready,hb⟩
    simp [hrefused hb.symm] at hready
  rw [wake,exec_bind,h]
  simp only [exec_check,exec_bind,exec_get,hbusy,if_false,exec_onLifecycle,he]
  exact ⟨e,rfl⟩

/-- A wake that starts the browser: it comes up, or it is cleaned up after. -/
theorem exec_wake_start (h : requirePositiveTimeout timeoutS pollS = .ok ())
    (hstate : s.lifecycle.state ∈ [.stopped,.suspended,.failed]) :
    exec (wake urlsplit a s.lifecycle.binding timeoutS pollS) s = match launch urlsplit a s with
      | (.ok _,browser) => (.ok ⟨"ready",.ready,s.lifecycle.savedTabs urlsplit⟩,
          { s.inState .ready with browser := browser })
      | (.error e,browser) => (a.cleanup.outcome.bind fun _ => .error e,
          { s.inState .stopped with browser := a.cleanup.on Browser.stopped browser }) := by
  have hbusy : ¬(s.lifecycle.state = .ready ∧ s.lifecycle.binding = s.lifecycle.binding) := by
    rintro ⟨hready,_⟩
    simp [hready] at hstate
  have hstart : exec (onLifecycle (·.start s.lifecycle.binding)) s = (.ok (),s.inState .starting) := by
    rw [exec_onLifecycle,OwnerBoundLifecycle.start_own _ hstate]
    rfl
  obtain ⟨state,hrun,hready⟩ := exec_bringUp urlsplit a s
  rw [wake,exec_bind,h,exec_check]
  show exec (get >>= _) s = _
  rw [exec_bind,exec_get]
  show exec (ite (s.lifecycle.state = .ready ∧ s.lifecycle.binding = s.lifecycle.binding) _ _) s = _
  rw [if_neg hbusy,exec_bind,hstart]
  show exec (tryCatch _ _) _ = _
  rw [exec_tryCatch,hrun]
  rcases hl : launch urlsplit a s with ⟨e | _,browser⟩
  · simp only [Except.map,exec_bind,exec_safeStop_own]
    cases a.cleanup.outcome <;> rfl
  · rw [hready (by rw [hl])]
    rfl

end Steps

section Launch

variable {urlsplit : String → Except Unit SplitResult} {a : Answers} {s : Slot}

theorem readiness_congr {b b' : Browser} (howner : b.owner = b'.owner)
    (hgeneration : b.generation = b'.generation) (transport : HttpBrowserTransport) (p : Probe) :
    readiness transport b p = readiness transport b' p := by
  cases p <;> simp [readiness,report,howner,hgeneration]

/-- The readiness of a browser is a matter of the identity that it reports. -/
theorem waitReady_congr {b b' : Browser} (howner : b.owner = b'.owner)
    (hgeneration : b.generation = b'.generation) (transport : HttpBrowserTransport)
    (binding : BrowserBinding) (p : Probe) (ps : List Probe) :
    waitReady transport b binding p ps = waitReady transport b' binding p ps := by
  induction ps generalizing p with
  | nil => simp only [waitReady,probeOwner,readiness_congr howner hgeneration]
  | cons p' ps ih => simp only [waitReady,probeOwner,readiness_congr howner hgeneration,ih]

theorem waitReady_stopped (transport : HttpBrowserTransport) (b : Browser)
    (binding : BrowserBinding) (p : Probe) (ps : List Probe) :
    waitReady transport b.stopped binding p ps = waitReady transport b binding p ps := by
  apply waitReady_congr <;> rfl

theorem normalizeFrom_pages {limit : ℕ} {result urls tabs : List String}
    (hresult : ∀ url ∈ result, isPageUrl urlsplit url = .ok true)
    (h : normalizeFrom urlsplit limit result urls = .ok tabs) :
    ∀ url ∈ tabs, isPageUrl urlsplit url = .ok true := by
  induction urls generalizing result with
  | nil =>
    cases h
    exact hresult
  | cons url urls ih =>
    rw [normalizeFrom] at h
    obtain ⟨page,hpage,h⟩ := bind_ok h
    have hlonger : page = true → ∀ u ∈ result ++ [url], isPageUrl urlsplit u = .ok true := by
      rintro rfl u hu
      rcases List.mem_append.mp hu with hu | hu
      · exact hresult u hu
      · rw [List.mem_singleton.mp hu,hpage]
    split_ifs at h with hskip hfull
    · exact ih hresult h
    · cases h
      exact hlonger (by simpa using hskip : page = true ∧ url ∉ result).1
    · exact ih (hlonger (by simpa using hskip : page = true ∧ url ∉ result).1) h

theorem readSnapshot_pages {binding : BrowserBinding} {file : Option LifecycleSnapshot}
    {urls : List String} (h : readSnapshot urlsplit binding file = some urls) :
    ∀ url ∈ urls, isPageUrl urlsplit url = .ok true := by
  obtain ⟨raw,-,h⟩ := Option.bind_eq_some_iff.mp h
  split_ifs at h
  cases hurls : normalizeUrls urlsplit raw.urls with
  | error e =>
    rw [hurls] at h
    cases h
  | ok tabs =>
    rw [hurls] at h
    cases h
    exact normalizeFrom_pages (by simp) hurls

/-- What is restored can be opened. -/
theorem savedTabs_pages (l : OwnerBoundLifecycle) :
    ∀ url ∈ l.savedTabs urlsplit, isPageUrl urlsplit url = .ok true := by
  rw [OwnerBoundLifecycle.savedTabs]
  cases hfile : readSnapshot urlsplit l.binding l.snapshotFile with
  | some urls => exact readSnapshot_pages hfile
  | none =>
    cases hgood : readSnapshot urlsplit l.binding l.lastGoodFile with
    | some urls => exact readSnapshot_pages hgood
    | none => simp

theorem on_stopped_running (reply : Reply) (b : Browser) :
    (reply.on Browser.stopped b).running = (b.running && !reply.effective) := by
  cases h : reply.effective <;> simp [Reply.on,h]

section Ends

variable (urlsplit a)

variable {P : Browser → Prop} (hopen : ∀ b url, P b → P (b.opened url))

include hopen in
theorem openAll_ind (n : ℕ) (urls : List String) (b : Browser) (hb : P b) :
    P (openAll urlsplit a n urls b).2 := by
  induction urls generalizing n b with
  | nil => exact hb
  | cons url urls ih =>
    rw [openAll]
    rcases isPageUrl urlsplit url with e | _ | _
    · exact hb
    · exact hb
    · cases h : a.opens n with
      | acknowledged => exact ih _ _ (hopen b url hb)
      | failed e effective => exact Reply.on_ind (fun b => hopen b url) _ hb

include hopen in
/-- What the commands of `bringUp` keep holds of the browser that it leaves. -/
theorem launch_ind (s : Slot) (hstart : P (a.start.on (·.started a.fresh) s.browser))
    (hempty : ∀ b, P b → P b.emptyClosed) : P (launch urlsplit a s).2 := by
  have hall := openAll_ind urlsplit a hopen 0 (s.lifecycle.savedTabs urlsplit) _ hstart
  simp only [launch]
  cases a.start.outcome with
  | error e => exact hstart
  | ok _ =>
    cases waitReady s.transport (a.start.on (·.started a.fresh) s.browser) s.lifecycle.binding
      a.probe a.probes with
    | error e => exact hstart
    | ok _ =>
      rcases ho : openAll urlsplit a 0 (s.lifecycle.savedTabs urlsplit)
        (a.start.on (·.started a.fresh) s.browser) with ⟨e | _,browser⟩ <;> rw [ho] at hall
      · exact hall
      · exact Reply.on_ind hempty _ hall

theorem launch_running (s : Slot) :
    (launch urlsplit a s).2.running = (s.browser.running || a.start.effective) := by
  apply launch_ind urlsplit a (P:=fun b => b.running = (s.browser.running || a.start.effective))
  · intro b url hb
    rw [b.opened_running,hb]
  · cases h : a.start.effective <;> simp [Reply.on,h]
  · exact fun _ hb => hb

/-- The commands to the browser do not change whom it reports. -/
theorem launch_identity (s : Slot) : (launch urlsplit a s).2.owner = s.browser.owner ∧
    (launch urlsplit a s).2.generation = s.browser.generation := by
  apply launch_ind urlsplit a
    (P:=fun b => b.owner = s.browser.owner ∧ b.generation = s.browser.generation)
  · intro b url hb
    by_cases h : b.running = true <;> simpa [Browser.opened,h] using hb
  · cases h : a.start.effective <;> simp [Reply.on,h]
  · exact fun _ hb => hb

theorem openAll_ok {urls : List String} (hurls : ∀ url ∈ urls, isPageUrl urlsplit url = .ok true)
    (n : ℕ) (b : Browser) : (openAll urlsplit a n urls b).1 = .ok () ↔
      ∀ i < urls.length, a.opens (n+i) = .acknowledged := by
  induction urls generalizing n b with
  | nil => simp [openAll]
  | cons url urls ih =>
    have htail := ih (fun u hu => hurls u (List.mem_cons_of_mem _ hu)) (n+1) (b.opened url)
    rw [openAll,hurls url List.mem_cons_self]
    cases h : a.opens n with
    | acknowledged =>
      rw [htail,List.length_cons,Nat.forall_lt_succ_left]
      simp only [Nat.add_zero,h,true_and,Nat.add_assoc,Nat.add_comm 1]
    | failed e effective =>
      constructor
      · exact nofun
      · intro hall
        have hhead := hall 0 (by simp)
        simp [h] at hhead

/-- The browser is started and gets all the way to its restored tabs. -/
structure ComesUp (s : Slot) : Prop where
  started : a.start = .acknowledged
  ready : waitReady s.transport s.browser s.lifecycle.binding a.probe a.probes = .ok ()
  opened : ∀ i < (s.lifecycle.savedTabs urlsplit).length, a.opens i = .acknowledged
  closed : a.closeEmpty = .acknowledged

/-- Stopping the browser before does not matter. -/
theorem comesUp_stopped (s : Slot) (state : BrowserState) :
    ComesUp urlsplit a { s.inState state with browser := s.browser.stopped } ↔
      ComesUp urlsplit a s := by
  have hready := waitReady_stopped s.transport s.browser s.lifecycle.binding a.probe a.probes
  exact ⟨fun h => ⟨h.started,hready.symm.trans h.ready,h.opened,h.closed⟩,
    fun h => ⟨h.started,hready.trans h.ready,h.opened,h.closed⟩⟩

theorem launch_ok (s : Slot) : (launch urlsplit a s).1 = .ok () ↔ ComesUp urlsplit a s := by
  have hopens := openAll_ok urlsplit a (savedTabs_pages s.lifecycle) 0
    (a.start.on (·.started a.fresh) s.browser)
  have hready : waitReady s.transport (a.start.on (·.started a.fresh) s.browser)
      s.lifecycle.binding a.probe a.probes =
      waitReady s.transport s.browser s.lifecycle.binding a.probe a.probes :=
    waitReady_congr (Reply.on_same (g:=Browser.owner) (·.started_owner a.fresh) _ _)
      (Reply.on_same (g:=Browser.generation) (·.started_generation a.fresh) _ _) _ _ _ _
  simp only [Nat.zero_add] at hopens
  simp only [launch,hready]
  rcases ho : openAll urlsplit a 0 (s.lifecycle.savedTabs urlsplit)
    (a.start.on (·.started a.fresh) s.browser) with ⟨r,browser⟩
  rw [ho] at hopens
  constructor
  · intro h
    cases hs : a.start with
    | failed e effective =>
      simp [hs,Reply.outcome] at h
    | acknowledged =>
      cases hw : waitReady s.transport s.browser s.lifecycle.binding a.probe a.probes with
      | error e => simp [hs,hw] at h
      | ok _ =>
        cases r with
        | error e => simp [hs,hw] at h
        | ok _ => exact ⟨hs,hw,hopens.mp rfl,Reply.outcome_eq_ok.mp (by simpa [hs,hw] using h)⟩
  · intro h
    cases hopens.mpr h.opened
    simp [h.started,h.ready,h.closed]

end Ends
end Launch
section Answers

variable {transport : HttpBrowserTransport} {b : Browser} {binding : BrowserBinding} {p : Probe}
  {ps : List Probe}

/-- A probe that the browser answers itself. -/
def Probe.isOwn : Probe → Bool
  | .own _ => true
  | _ => false

/-- The transport, the browser and the binding agree on the identity. -/
structure Agree (transport : HttpBrowserTransport) (b : Browser) (binding : BrowserBinding) : Prop where
  transport : transport = ⟨binding.principalId,binding.generation⟩
  owner : b.owner = binding.principalId
  generation : b.generation = binding.generation

theorem probeOwner_own (h : p.isOwn = true) {ready : BrowserReadiness}
    (hp : probeOwner transport b binding p = .ok ready) : Agree transport b binding := by
  cases p with
  | own cdpOk =>
    obtain ⟨ready,hr,hp⟩ := bind_ok hp
    split_ifs at hp with hb
    obtain ⟨_,hx,hr⟩ := bind_ok hr
    split_ifs at hr with ht
    cases hx
    cases hr
    refine ⟨?_,hb.1,hb.2⟩
    rw [← hb.1,← hb.2]
    cases transport
    simp only [HttpBrowserTransport.mk.injEq]
    exact ⟨ht.1.symm,ht.2.symm⟩
  | _ => cases h

theorem Agree.probeOwner (h : Agree transport b binding) (cdpOk : Bool) :
    probeOwner transport b binding (.own cdpOk) = .ok ⟨b.owner,b.generation,cdpOk⟩ := by
  obtain ⟨rfl,howner,hgeneration⟩ := h
  simp [SlotSupervisor.probeOwner,readiness,report,howner,hgeneration,bind,Except.bind,pure,
    Except.pure]

/-- A browser that answers for itself is waited for until it says that it is up. -/
theorem Agree.waitReady (h : Agree transport b binding) (hown : ∀ q ∈ p::ps, q.isOwn = true) :
    waitReady transport b binding p ps = .ok () ↔ .own true ∈ p::ps := by
  induction ps generalizing p with
  | nil =>
    cases p with
    | own cdpOk =>
      cases cdpOk <;> simp [SlotSupervisor.waitReady,h.probeOwner,bind,Except.bind,pure,Except.pure,throw,throwThe,MonadExceptOf.throw]
    | _ => simp [Probe.isOwn] at hown
  | cons p' ps ih =>
    have htail := ih (p:=p') (fun q hq => hown q (List.mem_cons_of_mem _ hq))
    cases p with
    | own cdpOk =>
      cases cdpOk
      · rw [List.mem_cons]
        simp [SlotSupervisor.waitReady,h.probeOwner,bind,Except.bind,htail]
      · simp [SlotSupervisor.waitReady,h.probeOwner,bind,Except.bind,pure,Except.pure]
    | _ => simp [Probe.isOwn] at hown

theorem waitReady_agree (hown : ∀ q ∈ p::ps, q.isOwn = true)
    (h : waitReady transport b binding p ps = .ok ()) : Agree transport b binding := by
  cases ps <;>
  · obtain ⟨ready,hp,-⟩ := bind_ok h
    exact probeOwner_own (hown p List.mem_cons_self) hp

end Answers

section Wake

variable {urlsplit : String → Except Unit SplitResult} {a : Answers} {s s' : Slot}
  {binding : BrowserBinding} {timeoutS pollS : ℚ} {result : OrchestrationResult}

/-- A wake that returns has found the browser ready under the binding. -/
theorem wake_ok (h : exec (wake urlsplit a binding timeoutS pollS) s = (.ok result,s')) :
    s'.lifecycle.state = .ready ∧ s'.lifecycle.binding = binding ∧ s'.transport = s.transport ∧
      s'.browser.owner = s.browser.owner ∧ s'.browser.generation = s.browser.generation ∧
      waitReady s.transport s.browser binding a.probe a.probes = .ok () := by
  cases htime : requirePositiveTimeout timeoutS pollS with
  | error e =>
    rw [exec_wake_untimed urlsplit a s htime] at h
    cases h
  | ok _ =>
    by_cases hb : binding = s.lifecycle.binding ∧ s.lifecycle.state ≠ .starting
    · obtain ⟨rfl,hbusy⟩ := hb
      by_cases hready : s.lifecycle.state = .ready
      · rw [exec_wake_ready urlsplit a s htime hready] at h
        cases hw : waitReady s.transport s.browser s.lifecycle.binding a.probe a.probes with
        | error e =>
          rw [hw] at h
          cases h
        | ok _ =>
          rw [hw] at h
          cases h
          exact ⟨hready,rfl,rfl,rfl,rfl,rfl⟩
      · have hstate : s.lifecycle.state ∈ [.stopped,.suspended,.failed] := by
          cases hs : s.lifecycle.state <;> simp_all
        have hup := launch_ok urlsplit a s
        have hsame := launch_identity urlsplit a s
        rw [exec_wake_start urlsplit a s htime hstate] at h
        rcases hl : launch urlsplit a s with ⟨e | _,browser⟩ <;> rw [hl] at h hup hsame
        · cases hc : a.cleanup.outcome <;> simp [hc,Except.bind] at h
        · cases h
          exact ⟨rfl,rfl,rfl,hsame.1,hsame.2,(hup.mp rfl).ready⟩
    · obtain ⟨e,he⟩ := exec_wake_refused urlsplit a s htime
        (fun h => by simpa using fun hne => hb ⟨h,hne⟩)
      rw [he] at h
      cases h

end Wake
section Foreign

variable {urlsplit : String → Except Unit SplitResult} {a : Answers} {s : Slot}
  {binding : BrowserBinding} (h : binding ≠ s.lifecycle.binding)

include h

/-- Under another binding than its own, a slot is not stopped, suspended or recreated. -/
theorem stop_foreign : ∃ e, (exec (stop a binding) s).1 = .error e := by
  rw [exec_stop]
  cases probeOwner s.transport s.browser binding a.owner with
  | error e => exact ⟨e,rfl⟩
  | ok _ =>
    cases a.stop.outcome with
    | error e => exact ⟨e,rfl⟩
    | ok _ => exact ⟨OwnerBoundLifecycle.mismatch,by simp only [h,if_false]⟩

theorem suspend_foreign : ∃ e, (exec (suspend urlsplit a binding) s).1 = .error e := by
  rw [exec_suspend]
  cases hc : capture urlsplit a s binding with
  | error e => exact ⟨e,rfl⟩
  | ok captured =>
    obtain ⟨_,_,hc⟩ := bind_ok hc
    obtain ⟨urls,_,hc⟩ := bind_ok hc
    exact absurd (s.lifecycle.captureTabs_ok binding hc).1 h

theorem recreate_foreign (timeoutS pollS : ℚ) :
    ∃ e, (exec (recreate urlsplit a binding timeoutS pollS) s).1 = .error e := by
  obtain ⟨e,he⟩ := stop_foreign (a:=a) h
  refine ⟨e,?_⟩
  rw [recreate,exec_bind]
  rcases hs : exec (stop a binding) s with ⟨r,s'⟩
  rw [hs] at he
  cases he
  rfl

end Foreign
end SlotSupervisor
end CloudBrowser
