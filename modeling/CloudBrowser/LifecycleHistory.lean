import CloudBrowser.BindingPush
import CloudBrowser.Logged

/-! The lifecycle of a slot between the calls of its supervisor, and the way it takes during
each of them. -/
namespace CloudBrowser
namespace LifecycleHistory

open Stateful SlotSupervisor BindingPush
open AgentControl (SplitResult)

/-- A call of the supervisor. -/
inductive Call
  | wake (binding : BrowserBinding) (timeoutS pollS : ℚ) (answers : Answers)
  | suspend (binding : BrowserBinding) (answers : Answers)
  | stop (binding : BrowserBinding) (answers : Answers)
  | adoptBinding (binding : BrowserBinding) (answers : Answers)
  | recreate (binding : BrowserBinding) (timeoutS pollS : ℚ) (answers : Answers)

/-- The supervisor, with a log of the lifecycle as each call of it leaves it. -/
abbrev Observed := Op SlotError (Logged Slot OwnerBoundLifecycle)

/-- A call of the lifecycle. -/
def calling {α : Type} (m : Operation α) : Observed α := watching Slot.lifecycle m

section Operations

variable (urlsplit : String → Except Unit SplitResult) (a : Answers) (binding : BrowserBinding)

def bringUp : Observed OrchestrationResult := do
  silently (command a.start (·.started a.fresh))
  silently (inspect fun s => waitReady s.transport s.browser binding a.probe a.probes)
  calling (onLifecycle (·.markReady binding))
  let urls ← silently (inspect fun s => s.lifecycle.loadTabs urlsplit binding)
  silently (openPages urlsplit a 0 urls)
  silently (command a.closeEmpty Browser.emptyClosed)
  return ⟨"ready",(← silently get).lifecycle.state,urls⟩

def wake (timeoutS pollS : ℚ) : Observed OrchestrationResult := do
  check (requirePositiveTimeout timeoutS pollS)
  let s ← silently get
  if s.lifecycle.state = .ready ∧ s.lifecycle.binding = binding then
    silently (inspect fun s => waitReady s.transport s.browser binding a.probe a.probes)
    let urls ← silently (inspect fun s => s.lifecycle.loadTabs urlsplit binding)
    return ⟨"ready",(← silently get).lifecycle.state,urls⟩
  else
    calling (onLifecycle (·.start binding))
    tryCatch (bringUp urlsplit a binding) fun e => do
      calling (safeStop a binding)
      throw e

def suspend : Observed OrchestrationResult := do
  silently (requireTransportOwner a binding)
  let urls ← check a.listing
  let captured ← calling (recordTabs urlsplit a binding urls)
  silently (command a.stop Browser.stopped)
  calling (onLifecycle (·.suspend binding))
  return ⟨"suspended",(← silently get).lifecycle.state,captured.urls⟩

def stop : Observed OrchestrationResult := do
  silently (requireTransportOwner a binding)
  silently (command a.stop Browser.stopped)
  calling (onLifecycle (·.stop binding))
  return ⟨"stopped",(← silently get).lifecycle.state,[]⟩

def adoptBinding : Observed OrchestrationResult := do
  let current := (← silently get).lifecycle.binding
  if binding.browserId ≠ current.browserId then
    throw (.valueError "binding names a different browser slot")
  if (← silently get).lifecycle.state ≠ .stopped then
    silently (command a.stop Browser.stopped)
    calling (onLifecycle (·.stop current))
  silently (pushBinding a binding)
  calling (tryCatch (onLifecycle (·.adoptBinding binding)) fun e => throw e.plain)
  return ⟨"adopted",(← silently get).lifecycle.state,[]⟩

def recreate (timeoutS pollS : ℚ) : Observed OrchestrationResult := do
  let _ ← stop a binding
  wake urlsplit a binding timeoutS pollS

end Operations

namespace Call

variable (urlsplit : String → Except Unit SplitResult)

def run : Call → Operation OrchestrationResult
  | wake binding timeoutS pollS a => SlotSupervisor.wake urlsplit a binding timeoutS pollS
  | suspend binding a => SlotSupervisor.suspend urlsplit a binding
  | stop binding a => SlotSupervisor.stop a binding
  | adoptBinding binding a => SlotSupervisor.adoptBinding a binding
  | recreate binding timeoutS pollS a => SlotSupervisor.recreate urlsplit a binding timeoutS pollS

def observe : Call → Observed OrchestrationResult
  | wake binding timeoutS pollS a => LifecycleHistory.wake urlsplit a binding timeoutS pollS
  | suspend binding a => LifecycleHistory.suspend urlsplit a binding
  | stop binding a => LifecycleHistory.stop a binding
  | adoptBinding binding a => LifecycleHistory.adoptBinding a binding
  | recreate binding timeoutS pollS a => LifecycleHistory.recreate urlsplit a binding timeoutS pollS

end Call

section Unobserved

variable {urlsplit : String → Except Unit SplitResult} {a : Answers} {binding : BrowserBinding}

theorem bringUp_projects : Projects Logged.state (bringUp urlsplit a binding)
    (SlotSupervisor.bringUp urlsplit a binding) :=
  (Projects.silently _).bind fun _ => (Projects.silently _).bind fun _ =>
    (Projects.watching _ _).bind fun _ => (Projects.silently _).bind fun _ =>
      (Projects.silently _).bind fun _ => (Projects.silently _).bind fun _ =>
        (Projects.silently _).bind fun _ => Projects.pure _

theorem wake_projects (timeoutS pollS : ℚ) : Projects Logged.state
    (wake urlsplit a binding timeoutS pollS)
    (SlotSupervisor.wake urlsplit a binding timeoutS pollS) := by
  apply (Projects.check _).bind
  intro _
  apply (Projects.silently _).bind
  intro s
  apply Projects.ite
  · exact (Projects.silently _).bind fun _ => (Projects.silently _).bind fun _ =>
      (Projects.silently _).bind fun _ => Projects.pure _
  · apply (Projects.watching _ _).bind
    intro _
    apply bringUp_projects.tryCatch
    exact fun e => (Projects.watching _ _).bind fun _ => Projects.throw e

theorem suspend_projects : Projects Logged.state (suspend urlsplit a binding)
    (SlotSupervisor.suspend urlsplit a binding) :=
  (Projects.silently _).bind fun _ => (Projects.check _).bind fun _ =>
    (Projects.watching _ _).bind fun _ => (Projects.silently _).bind fun _ =>
      (Projects.watching _ _).bind fun _ => (Projects.silently _).bind fun _ => Projects.pure _

theorem stop_projects : Projects Logged.state (stop a binding) (SlotSupervisor.stop a binding) :=
  (Projects.silently _).bind fun _ => (Projects.silently _).bind fun _ =>
    (Projects.watching _ _).bind fun _ => (Projects.silently _).bind fun _ => Projects.pure _

theorem adoptBinding_projects : Projects Logged.state (adoptBinding a binding)
    (SlotSupervisor.adoptBinding a binding) := by
  have hrebind : Projects Logged.state (do
      silently (pushBinding a binding)
      calling (tryCatch (onLifecycle (·.adoptBinding binding)) fun e => throw e.plain)
      return ⟨"adopted",(← silently get).lifecycle.state,[]⟩ : Observed OrchestrationResult)
      (do
        pushBinding a binding
        tryCatch (onLifecycle (·.adoptBinding binding)) fun e => throw e.plain
        return ⟨"adopted",(← get).lifecycle.state,[]⟩) :=
    (Projects.silently _).bind fun _ => (Projects.watching _ _).bind fun _ =>
      (Projects.silently _).bind fun _ => Projects.pure _
  apply (Projects.silently _).bind
  intro s
  apply Projects.ite
  · exact Projects.throw_bind _
  · apply (Projects.silently _).bind
    intro s'
    apply Projects.ite
    · exact (Projects.silently _).bind fun _ => (Projects.watching _ _).bind fun _ => hrebind
    · exact hrebind

theorem recreate_projects (timeoutS pollS : ℚ) : Projects Logged.state
    (recreate urlsplit a binding timeoutS pollS)
    (SlotSupervisor.recreate urlsplit a binding timeoutS pollS) :=
  stop_projects.bind fun _ => wake_projects timeoutS pollS

/-- Forgetting the log leaves the supervisor's own operation. -/
theorem observe_projects (c : Call) :
    Projects Logged.state (c.observe urlsplit) (c.run urlsplit) := by
  cases c with
  | wake binding timeoutS pollS a => exact wake_projects timeoutS pollS
  | suspend binding a => exact suspend_projects
  | stop binding a => exact stop_projects
  | adoptBinding binding a => exact adoptBinding_projects
  | recreate binding timeoutS pollS a => exact recreate_projects timeoutS pollS

end Unobserved

/-- From one call of the lifecycle to the next the binding stays, save that an adoption may
change that of a stopped one. -/
def Step (c : Call) (l l' : OwnerBoundLifecycle) : Prop :=
  l'.binding = l.binding ∨
    (∃ binding a, c = .adoptBinding binding a) ∧ l.state = .stopped ∧ l'.state = .stopped

/-- The binding stays from one call to the next. -/
def SameBinding (l l' : OwnerBoundLifecycle) : Prop := l'.binding = l.binding

section Bindings

variable {l l' : OwnerBoundLifecycle} {binding : BrowserBinding}
  {method : OwnerBoundLifecycle → Except SlotError OwnerBoundLifecycle}

theorem start_binding (h : l.start binding = .ok l') : l'.binding = l.binding := by
  obtain ⟨-,-,h⟩ := bind_ok h
  split_ifs at h
  cases h
  rfl

theorem markReady_binding (h : l.markReady binding = .ok l') : l'.binding = l.binding := by
  obtain ⟨-,-,h⟩ := bind_ok h
  split_ifs at h
  cases h
  rfl

theorem suspend_binding (h : l.suspend binding = .ok l') : l'.binding = l.binding := by
  obtain ⟨-,-,h⟩ := bind_ok h
  split_ifs at h
  cases h
  rfl

theorem stop_binding (h : l.stop binding = .ok l') : l'.binding = l.binding := by
  obtain ⟨-,-,h⟩ := bind_ok h
  cases h
  rfl

theorem onLifecycle_binding (h : ∀ l l', method l = .ok l' → l'.binding = l.binding) (s : Slot) :
    SameBinding s.lifecycle (exec (onLifecycle method) s).2.lifecycle := by
  rw [exec_onLifecycle]
  cases hm : method s.lifecycle with
  | error e => rfl
  | ok l => exact h _ _ hm

end Bindings

section Histories

variable {urlsplit : String → Except Unit SplitResult} {a : Answers} {binding : BrowserBinding}
  {R : OwnerBoundLifecycle → OwnerBoundLifecycle → Prop} {start : OwnerBoundLifecycle}

theorem followed_silently {α : Type} {m : Operation α}
    (h : ∀ s, (exec m s).2.lifecycle = s.lifecycle) :
    Keeps (Followed Slot.lifecycle R start) (silently m) := Followed.silently h

theorem followed_inspect {α : Type} (f : Slot → Except SlotError α) :
    Keeps (Followed Slot.lifecycle R start) (silently (inspect f)) := by
  apply followed_silently
  intro s
  rw [exec_inspect]

theorem followed_command (reply : Reply) (effect : Browser → Browser) :
    Keeps (Followed Slot.lifecycle R start) (silently (command reply effect)) := by
  apply followed_silently
  intro s
  rw [exec_command]

/-- An operation ends with the state it reports, which it only reads. -/
theorem followed_report (f : Slot → OrchestrationResult) :
    Keeps (Followed Slot.lifecycle R start)
      ((silently get : Observed Slot) >>= fun s => pure (f s)) := by
  apply Keeps.bind
  · exact followed_silently fun _ => rfl
  · exact fun s l hl => hl

theorem followed_requireTransportOwner :
    Keeps (Followed Slot.lifecycle R start) (silently (requireTransportOwner a binding)) := by
  apply followed_silently
  intro s
  rw [exec_requireTransportOwner]

theorem followed_onLifecycle
    {method : OwnerBoundLifecycle → Except SlotError OwnerBoundLifecycle}
    (h : ∀ l l', method l = .ok l' → l'.binding = l.binding) :
    Keeps (Followed Slot.lifecycle SameBinding start) (calling (onLifecycle method)) :=
  Followed.watching (onLifecycle_binding h)

theorem followed_safeStop :
    Keeps (Followed Slot.lifecycle SameBinding start) (calling (safeStop a binding)) := by
  apply Followed.watching
  intro s
  rw [exec_safeStop]
  dsimp only [SameBinding]
  split_ifs
  · rfl
  · rfl

theorem followed_recordTabs (urls : List String) : Keeps (Followed Slot.lifecycle SameBinding start)
    (calling (recordTabs urlsplit a binding urls)) := by
  apply Followed.watching
  intro s
  rw [exec_recordTabs]
  cases s.lifecycle.captureTabs urlsplit binding urls with
  | error e => rfl
  | ok captured => exact writeTabs_binding a captured s.lifecycle

theorem followed_bringUp : Keeps (Followed Slot.lifecycle SameBinding start)
    (bringUp urlsplit a binding) := by
  refine (followed_command _ _).bind fun _ => (followed_inspect _).bind fun _ =>
    (followed_onLifecycle fun _ _ h => markReady_binding h).bind fun _ =>
      (followed_inspect _).bind fun urls => Keeps.bind ?_ fun _ => (followed_command _ _).bind
        fun _ => followed_report _
  apply followed_silently
  intro s
  rw [exec_openPages]

theorem followed_wake (timeoutS pollS : ℚ) : Keeps (Followed Slot.lifecycle SameBinding start)
    (wake urlsplit a binding timeoutS pollS) := by
  apply (Keeps.check _).bind
  intro _
  apply (followed_silently fun _ => rfl).bind
  intro s
  apply Keeps.ite
  · exact (followed_inspect _).bind fun _ => (followed_inspect _).bind fun _ => followed_report _
  · apply (followed_onLifecycle fun _ _ h => start_binding h).bind
    intro _
    apply followed_bringUp.tryCatch
    exact fun e => followed_safeStop.bind fun _ _ hl => hl

theorem followed_suspend : Keeps (Followed Slot.lifecycle SameBinding start)
    (suspend urlsplit a binding) :=
  followed_requireTransportOwner.bind fun _ => (Keeps.check _).bind fun urls =>
    (followed_recordTabs urls).bind fun _ => (followed_command _ _).bind fun _ =>
      (followed_onLifecycle fun _ _ h => suspend_binding h).bind fun _ => followed_report _

theorem followed_stop : Keeps (Followed Slot.lifecycle SameBinding start) (stop a binding) :=
  followed_requireTransportOwner.bind fun _ => (followed_command _ _).bind fun _ =>
    (followed_onLifecycle fun _ _ h => stop_binding h).bind fun _ => followed_report _

theorem followed_recreate (timeoutS pollS : ℚ) : Keeps (Followed Slot.lifecycle SameBinding start)
    (recreate urlsplit a binding timeoutS pollS) :=
  followed_stop.bind fun _ => followed_wake timeoutS pollS

/-- An adoption takes the binding of a stopped lifecycle only. -/
theorem followed_adoptBinding :
    Keeps (Followed Slot.lifecycle (Step (.adoptBinding binding a)) start)
      (adoptBinding a binding) := by
  have hadopt : ∀ s : Slot, Step (.adoptBinding binding a) s.lifecycle
      (exec (tryCatch (onLifecycle (·.adoptBinding binding)) fun e => throw e.plain)
        s).2.lifecycle := by
    intro s
    rw [exec_tryCatch,exec_onLifecycle,OwnerBoundLifecycle.adoptBinding]
    split_ifs with hstopped
    · exact .inr ⟨⟨_,_,rfl⟩,hstopped,hstopped⟩
    · exact .inl rfl
  have hrebind : Keeps (Followed Slot.lifecycle (Step (.adoptBinding binding a)) start) (do
      silently (pushBinding a binding)
      calling (tryCatch (onLifecycle (·.adoptBinding binding)) fun e => throw e.plain)
      return ⟨"adopted",(← silently get).lifecycle.state,[]⟩ : Observed OrchestrationResult) := by
    refine Keeps.bind ?_ fun _ => (Followed.watching hadopt).bind fun _ => followed_report _
    apply followed_silently
    intro s
    rw [exec_pushBinding]
  apply (followed_silently fun _ => rfl).bind
  intro s
  apply Keeps.ite
  · exact fun l hl => hl
  · apply (followed_silently fun _ => rfl).bind
    intro s'
    apply Keeps.ite
    · refine (followed_command _ _).bind fun _ => Keeps.bind ?_ fun _ => hrebind
      apply Followed.watching
      exact fun t => .inl (onLifecycle_binding (fun _ _ h => stop_binding h) t)
    · exact hrebind

end Histories

section Runs

variable (urlsplit : String → Except Unit SplitResult) (s : Slot) (c : Call)

/-- What a call leaves, whether it returns or raises. -/
def after : Slot := (exec (c.run urlsplit) s).2

/-- The lifecycle before a call, and as each of its own calls during that one leaves it. -/
def history : List OwnerBoundLifecycle :=
  (exec (c.observe urlsplit) ⟨s,[s.lifecycle]⟩).2.log

/-- The readiness check or the stop that the call comes to is refused. -/
def Call.Refused : Call → Prop
  | suspend binding a | stop binding a =>
    (∃ e, probeOwner s.transport s.browser binding a.owner = .error e) ∨ a.stop ≠ .acknowledged
  | adoptBinding _ a => a.stop ≠ .acknowledged
  | _ => False

/-- What holds of a call, whatever the transport answers. -/
structure Settled : Prop where
  state : (after urlsplit s c).lifecycle.state ∈ [.stopped,.ready,.suspended]
  failedStart : ∀ e, (exec (c.run urlsplit) s).1 = .error e →
    (∃ l ∈ history urlsplit s c, l.state = .starting) →
    (after urlsplit s c).lifecycle.state = .stopped
  refused : ∀ e, (exec (c.run urlsplit) s).1 = .error e → c.Refused s →
    (after urlsplit s c).lifecycle.state = s.lifecycle.state ∧
      (after urlsplit s c).lifecycle.binding = s.lifecycle.binding
  first : (history urlsplit s c).head? = some s.lifecycle
  last : (history urlsplit s c).getLast? = some (after urlsplit s c).lifecycle
  bindings : (history urlsplit s c).IsChain (Step c)

end Runs

section Calls

variable {urlsplit : String → Except Unit SplitResult} {a : Answers} {binding : BrowserBinding}
  {s : Slot} {timeoutS pollS : ℚ}

/-- The states between two calls. -/
def Calm (s : Slot) : Prop := s.lifecycle.state ∈ [.stopped,.ready,.suspended]

theorem Calm.cases (h : Calm s) : s.lifecycle.state = .ready ∨
    s.lifecycle.state ∈ [.stopped,.suspended,.failed] := by
  simp only [Calm,List.mem_cons,List.not_mem_nil,or_false] at h ⊢
  tauto

theorem Calm.not_starting (h : Calm s) : s.lifecycle.state ≠ .starting := by
  intro hstarting
  rw [Calm,hstarting] at h
  simp at h

theorem calm_wake (h : Calm s) :
    Calm (exec (SlotSupervisor.wake urlsplit a binding timeoutS pollS) s).2 := by
  cases htime : requirePositiveTimeout timeoutS pollS with
  | error e =>
    rw [exec_wake_untimed urlsplit a s htime]
    exact h
  | ok _ =>
    by_cases hb : binding = s.lifecycle.binding
    · subst hb
      rcases h.cases with hready | hstart
      · rw [exec_wake_ready urlsplit a s htime hready]
        exact h
      · rw [exec_wake_start urlsplit a s htime hstart]
        rcases launch urlsplit a s with ⟨e | _,browser⟩ <;> simp [Calm]
    · obtain ⟨e,he⟩ := exec_wake_refused urlsplit a s htime fun hown => absurd hown hb
      rw [he]
      exact h

/-- The operation raises and leaves state and binding, or returns and leaves this state. -/
def LeavesOr (state : BrowserState) (s : Slot)
    (r : Except SlotError OrchestrationResult × Slot) : Prop :=
  (∃ e, r.1 = .error e) ∧ r.2.lifecycle.state = s.lifecycle.state ∧
      r.2.lifecycle.binding = s.lifecycle.binding ∨
    (∃ result, r.1 = .ok result) ∧ r.2.lifecycle.state = state

theorem LeavesOr.calm {state : BrowserState} {r : Except SlotError OrchestrationResult × Slot}
    (h : LeavesOr state s r) (hs : Calm s) (hstate : state ∈ [.stopped,.ready,.suspended]) :
    Calm r.2 := by
  rcases h with ⟨-,hsame,-⟩ | ⟨-,hstate'⟩
  · rwa [Calm,hsame]
  · rwa [Calm,hstate']

theorem LeavesOr.kept {state : BrowserState} {r : Except SlotError OrchestrationResult × Slot}
    {e : SlotError} (h : LeavesOr state s r) (he : r.1 = .error e) :
    r.2.lifecycle.state = s.lifecycle.state ∧ r.2.lifecycle.binding = s.lifecycle.binding := by
  rcases h with ⟨-,hsame⟩ | ⟨⟨result,hok⟩,-⟩
  · exact hsame
  · rw [he] at hok
    cases hok

theorem leaves_stop : LeavesOr .stopped s (exec (SlotSupervisor.stop a binding) s) := by
  rw [exec_stop]
  cases probeOwner s.transport s.browser binding a.owner with
  | error e => exact .inl ⟨⟨e,rfl⟩,rfl,rfl⟩
  | ok _ =>
    cases a.stop.outcome with
    | error e => exact .inl ⟨⟨e,rfl⟩,rfl,rfl⟩
    | ok _ =>
      dsimp only
      split_ifs
      · exact .inr ⟨⟨_,rfl⟩,rfl⟩
      · exact .inl ⟨⟨_,rfl⟩,rfl,rfl⟩

theorem leaves_suspend :
    LeavesOr .suspended s (exec (SlotSupervisor.suspend urlsplit a binding) s) := by
  rw [exec_suspend]
  cases capture urlsplit a s binding with
  | error e => exact .inl ⟨⟨e,rfl⟩,rfl,rfl⟩
  | ok captured =>
    have hstate := writeTabs_state a captured s.lifecycle
    have hbinding := writeTabs_binding a captured s.lifecycle
    dsimp only
    rcases hw : writeTabs a captured s.lifecycle with ⟨e | _,l⟩ <;> rw [hw] at hstate hbinding
    · exact .inl ⟨⟨e,rfl⟩,hstate,hbinding⟩
    · cases a.stop.outcome with
      | error e => exact .inl ⟨⟨e,rfl⟩,hstate,hbinding⟩
      | ok _ => exact .inr ⟨⟨_,rfl⟩,rfl⟩

theorem rebind_stopped {t : Slot} (h : t.lifecycle.state = .stopped) :
    (rebind a t binding).2.lifecycle.state = .stopped := by
  simp only [rebind]
  cases a.push.outcome with
  | error e => exact h
  | ok _ => exact h

theorem calm_adoptBinding (h : Calm s) :
    Calm (exec (SlotSupervisor.adoptBinding a binding) s).2 := by
  rw [exec_adoptBinding]
  split_ifs with hslot hstate
  · exact h
  · rw [Calm,rebind_stopped hstate]
    exact List.mem_cons_self
  · cases a.stop.outcome with
    | error e => exact h
    | ok _ =>
      dsimp only
      rw [Calm,rebind_stopped rfl]
      exact List.mem_cons_self

/-- A refused stop leaves an adoption that fails nothing to change. -/
theorem kept_adoptBinding {e : SlotError} (hstop : a.stop ≠ .acknowledged)
    (he : (exec (SlotSupervisor.adoptBinding a binding) s).1 = .error e) :
    (exec (SlotSupervisor.adoptBinding a binding) s).2.lifecycle.state = s.lifecycle.state ∧
      (exec (SlotSupervisor.adoptBinding a binding) s).2.lifecycle.binding =
        s.lifecycle.binding := by
  rw [exec_adoptBinding] at he ⊢
  split_ifs at he ⊢ with hslot hstate
  · exact ⟨rfl,rfl⟩
  · refine ⟨(rebind_stopped hstate).trans hstate.symm,?_⟩
    simp only [rebind] at he ⊢
    cases hpush : a.push.outcome with
    | error e => rfl
    | ok _ =>
      rw [hpush] at he
      cases he
  · cases hreply : a.stop with
    | acknowledged => exact absurd hreply hstop
    | failed error effective => exact ⟨rfl,rfl⟩

theorem calm_after (h : Calm s) (c : Call) : Calm (after urlsplit s c) := by
  cases c with
  | wake binding timeoutS pollS a => exact calm_wake h
  | suspend binding a => exact leaves_suspend.calm h (by simp)
  | stop binding a => exact leaves_stop.calm h (by simp)
  | adoptBinding binding a => exact calm_adoptBinding h
  | recreate binding timeoutS pollS a =>
    have hstop : Calm (exec (SlotSupervisor.stop a binding) s).2 := leaves_stop.calm h (by simp)
    rw [after,Call.run,SlotSupervisor.recreate,exec_bind]
    rcases hx : exec (SlotSupervisor.stop a binding) s with ⟨e | result,t⟩ <;> rw [hx] at hstop
    · exact hstop
    · exact calm_wake hstop

/-- No call so far has begun to start the browser. -/
def Unstarted (l : Logged Slot OwnerBoundLifecycle) : Prop :=
  (∀ x ∈ l.log, x.state ≠ .starting) ∧ l.state.lifecycle.state ≠ .starting

theorem unstarted_silently {α : Type} {m : Operation α}
    (h : ∀ s, (exec m s).2.lifecycle = s.lifecycle) : Keeps Unstarted (silently m) := by
  intro l hl
  rw [exec_silently]
  exact ⟨hl.1,by rw [h]; exact hl.2⟩

theorem unstarted_calling {α : Type} {m : Operation α}
    (h : ∀ s : Slot, s.lifecycle.state ≠ .starting → (exec m s).2.lifecycle.state ≠ .starting) :
    Keeps Unstarted (calling m) := by
  intro l hl
  rw [calling,exec_watching]
  refine ⟨?_,h l.state hl.2⟩
  intro x hx
  rcases List.mem_append.mp hx with hx | hx
  · exact hl.1 x hx
  · rw [List.mem_singleton.mp hx]
    exact h l.state hl.2

theorem unstarted_command (reply : Reply) (effect : Browser → Browser) :
    Keeps Unstarted (silently (command reply effect)) := by
  apply unstarted_silently
  intro s
  rw [exec_command]

theorem unstarted_requireTransportOwner :
    Keeps Unstarted (silently (requireTransportOwner a binding)) := by
  apply unstarted_silently
  intro s
  rw [exec_requireTransportOwner]

theorem unstarted_report (f : Slot → OrchestrationResult) :
    Keeps Unstarted ((silently get : Observed Slot) >>= fun s => pure (f s)) :=
  (unstarted_silently fun _ => rfl).bind fun _ _ hl => hl

theorem unstarted_onLifecycle {method : OwnerBoundLifecycle → Except SlotError OwnerBoundLifecycle}
    (h : ∀ l l', method l = .ok l' → l'.state ≠ .starting) :
    Keeps Unstarted (calling (onLifecycle method)) := by
  apply unstarted_calling
  intro s hs
  rw [exec_onLifecycle]
  cases hm : method s.lifecycle with
  | error e => exact hs
  | ok l => exact h _ _ hm

theorem stop_state {l l' : OwnerBoundLifecycle} (h : l.stop binding = .ok l') :
    l'.state ≠ .starting := by
  obtain ⟨-,-,h⟩ := bind_ok h
  cases h
  simp

theorem suspend_state {l l' : OwnerBoundLifecycle} (h : l.suspend binding = .ok l') :
    l'.state ≠ .starting := by
  obtain ⟨-,-,h⟩ := bind_ok h
  split_ifs at h
  cases h
  simp

theorem unstarted_stop : Keeps Unstarted (stop a binding) :=
  unstarted_requireTransportOwner.bind fun _ => (unstarted_command _ _).bind fun _ =>
    (unstarted_onLifecycle fun _ _ h => stop_state h).bind fun _ => unstarted_report _

theorem unstarted_suspend : Keeps Unstarted (suspend urlsplit a binding) := by
  refine unstarted_requireTransportOwner.bind fun _ => (Keeps.check _).bind fun urls =>
    (unstarted_calling fun s hs => ?_).bind fun _ => (unstarted_command _ _).bind fun _ =>
      (unstarted_onLifecycle fun _ _ h => suspend_state h).bind fun _ => unstarted_report _
  rw [exec_recordTabs]
  cases s.lifecycle.captureTabs urlsplit binding urls with
  | error e => exact hs
  | ok captured =>
    dsimp only
    rwa [writeTabs_state]

theorem unstarted_adoptBinding : Keeps Unstarted (adoptBinding a binding) := by
  have hrebind : Keeps Unstarted (do
      silently (pushBinding a binding)
      calling (tryCatch (onLifecycle (·.adoptBinding binding)) fun e => throw e.plain)
      return ⟨"adopted",(← silently get).lifecycle.state,[]⟩ : Observed OrchestrationResult) := by
    refine (unstarted_silently fun s => ?_).bind fun _ => (unstarted_calling fun s hs => ?_).bind
      fun _ => unstarted_report _
    · rw [exec_pushBinding]
    · rw [exec_tryCatch,exec_onLifecycle,OwnerBoundLifecycle.adoptBinding]
      split_ifs
      · exact hs
      · exact hs
  refine Keeps.bind (fun l hl => hl) fun s => Keeps.ite _ (fun l hl => hl) ?_
  refine Keeps.bind (fun l hl => hl) fun s' => Keeps.ite _ ?_ hrebind
  exact (unstarted_command _ _).bind fun _ =>
    (unstarted_onLifecycle fun _ _ h => stop_state h).bind fun _ => hrebind

/-- The lifecycle is this one, and no call so far has begun to start the browser. -/
def StillUnstarted (lifecycle : OwnerBoundLifecycle) (l : Logged Slot OwnerBoundLifecycle) : Prop :=
  Unstarted l ∧ l.state.lifecycle = lifecycle

theorem still_inspect {α : Type} {lifecycle : OwnerBoundLifecycle}
    (f : Slot → Except SlotError α) : Keeps (StillUnstarted lifecycle) (silently (inspect f)) := by
  intro l hl
  have hkept := unstarted_silently (m:=inspect f) (fun s => by rw [exec_inspect]) l hl.1
  rw [exec_silently,exec_inspect] at hkept ⊢
  exact ⟨hkept,hl.2⟩

/-- A wake that may not start the browser does not begin to. -/
theorem refused_wake {lifecycle : OwnerBoundLifecycle}
    (h : binding = lifecycle.binding → lifecycle.state ∉ [.stopped,.suspended,.failed]) :
    Keeps (StillUnstarted lifecycle) (wake urlsplit a binding timeoutS pollS) := by
  apply (Keeps.check _).bind
  intro _
  refine Keeps.bind (fun l hl => hl) fun s => Keeps.ite _ ?_ ?_
  · exact (still_inspect _).bind fun _ => (still_inspect _).bind fun _ =>
      Keeps.bind (fun l hl => hl) fun _ l hl => hl
  · rintro l ⟨hl,rfl⟩
    obtain ⟨e,he⟩ := l.state.lifecycle.start_refused binding h
    have hcall : exec (calling (onLifecycle (·.start binding))) l =
        (.error e,⟨l.state,l.log ++ [l.state.lifecycle]⟩) := by
      rw [calling,exec_watching,exec_onLifecycle,he]
    have hkept : Unstarted ⟨l.state,l.log ++ [l.state.lifecycle]⟩ := by
      refine ⟨?_,hl.2⟩
      intro x hx
      rcases List.mem_append.mp hx with hx | hx
      · exact hl.1 x hx
      · rw [List.mem_singleton.mp hx]
        exact hl.2
    rw [exec_bind_error hcall]
    exact ⟨hkept,rfl⟩

/-- A wake that fails either has not begun to start the browser, or leaves the slot stopped. -/
theorem failedStart_wake {l : Logged Slot OwnerBoundLifecycle} (hl : Unstarted l)
    {e : SlotError}
    (he : (exec (wake urlsplit a binding timeoutS pollS) l).1 = .error e) :
    Unstarted (exec (wake urlsplit a binding timeoutS pollS) l).2 ∨
      (exec (wake urlsplit a binding timeoutS pollS) l).2.state.lifecycle.state = .stopped := by
  have hrun := @wake_projects urlsplit a binding timeoutS pollS l
  cases htime : requirePositiveTimeout timeoutS pollS with
  | error e =>
    left
    rw [wake,exec_bind,htime]
    exact hl
  | ok _ =>
    by_cases hown : binding = l.state.lifecycle.binding ∧
        l.state.lifecycle.state ∈ [.stopped,.suspended,.failed]
    · right
      obtain ⟨rfl,hstart⟩ := hown
      rw [exec_wake_start urlsplit a l.state htime hstart] at hrun
      rw [he] at hrun
      rcases hlaunch : launch urlsplit a l.state with ⟨e' | _,browser⟩ <;> rw [hlaunch] at hrun
      · rw [← (Prod.mk.inj hrun).2]
        rfl
      · cases (Prod.mk.inj hrun).1
    · left
      exact (refused_wake (fun hb hstart => hown ⟨hb,hstart⟩) l ⟨hl,rfl⟩).1

theorem unstarted_start (h : Calm s) : Unstarted ⟨s,[s.lifecycle]⟩ := by
  refine ⟨?_,h.not_starting⟩
  intro x hx
  rw [List.mem_singleton.mp hx]
  exact h.not_starting

/-- A call that fails after it has begun to start the browser leaves the slot stopped. -/
theorem failedStart_observe (h : Calm s) (c : Call) {e : SlotError}
    (he : (exec (c.observe urlsplit) ⟨s,[s.lifecycle]⟩).1 = .error e) :
    Unstarted (exec (c.observe urlsplit) ⟨s,[s.lifecycle]⟩).2 ∨
      (exec (c.observe urlsplit) ⟨s,[s.lifecycle]⟩).2.state.lifecycle.state = .stopped := by
  have hstart := unstarted_start h
  cases c with
  | wake binding timeoutS pollS a => exact failedStart_wake hstart he
  | suspend binding a => exact .inl (unstarted_suspend _ hstart)
  | stop binding a => exact .inl (unstarted_stop _ hstart)
  | adoptBinding binding a => exact .inl (unstarted_adoptBinding _ hstart)
  | recreate binding timeoutS pollS a =>
    have hstop := @unstarted_stop a binding _ hstart
    rw [Call.observe,recreate,exec_bind] at he ⊢
    rcases hx : exec (stop a binding) ⟨s,[s.lifecycle]⟩ with ⟨e' | result,l⟩ <;>
      rw [hx] at hstop he
    · exact .inl hstop
    · exact failedStart_wake hstop he

theorem followed_observe (s : Slot) (c : Call) : Followed Slot.lifecycle (Step c) s.lifecycle
    (exec (c.observe urlsplit) ⟨s,[s.lifecycle]⟩).2 := by
  have hstart := followed_start Slot.lifecycle SameBinding s
  have hsame : ∀ {l}, Followed Slot.lifecycle SameBinding s.lifecycle l →
      Followed Slot.lifecycle (Step c) s.lifecycle l :=
    fun h => ⟨h.first,h.last,h.chain.imp fun _ _ hstep => .inl hstep⟩
  cases c with
  | wake binding timeoutS pollS a => exact hsame (followed_wake timeoutS pollS _ hstart)
  | suspend binding a => exact hsame (followed_suspend _ hstart)
  | stop binding a => exact hsame (followed_stop _ hstart)
  | adoptBinding binding a => exact followed_adoptBinding _ (followed_start _ _ s)
  | recreate binding timeoutS pollS a => exact hsame (followed_recreate timeoutS pollS _ hstart)

theorem settled_of_calm (h : Calm s) (c : Call) : Settled urlsplit s c := by
  have hrun := @observe_projects urlsplit c ⟨s,[s.lifecycle]⟩
  have hfollowed := @followed_observe urlsplit s c
  have hafter : after urlsplit s c =
      (exec (c.observe urlsplit) ⟨s,[s.lifecycle]⟩).2.state := congrArg Prod.snd hrun
  refine ⟨calm_after h c,?_,?_,hfollowed.first,?_,hfollowed.chain⟩
  · rintro e he ⟨l,hl,hstarting⟩
    rw [hafter]
    rcases failedStart_observe h c ((congrArg Prod.fst hrun).symm.trans he) with hun | hstopped
    · exact absurd hstarting (hun.1 l hl)
    · exact hstopped
  · intro e he hrefused
    cases c with
    | suspend binding a => exact leaves_suspend.kept he
    | stop binding a => exact leaves_stop.kept he
    | adoptBinding binding a => exact kept_adoptBinding hrefused he
    | wake binding timeoutS pollS a => exact hrefused.elim
    | recreate binding timeoutS pollS a => exact hrefused.elim
  · rw [hafter]
    exact hfollowed.last

end Calls

theorem calm_run (urlsplit : String → Except Unit SplitResult) {s : Slot} (h : Calm s)
    (calls : List Call) : Calm (calls.foldl (after urlsplit) s) := by
  induction calls generalizing s with
  | nil => exact h
  | cons c calls ih => exact ih (calm_after h c)

/-- After any calls of a supervisor that has come up, and whatever the transport answers, the next
call leaves the lifecycle settled. -/
theorem lifecycle_settled (urlsplit : String → Except Unit SplitResult) (boot : BrowserBinding)
    (snapshotFile lastGoodFile : Option LifecycleSnapshot) (browser : Browser)
    (calls : List Call) (c : Call) :
    Settled urlsplit
      (calls.foldl (after urlsplit) (booted boot snapshotFile lastGoodFile browser)) c :=
  settled_of_calm (calm_run urlsplit List.mem_cons_self calls) c

end LifecycleHistory
end CloudBrowser
