import CloudBrowser.AgentControl
import CloudBrowser.Stateful

/-! One browser slot under its supervisor: the lifecycle state that the supervisor keeps, the
binding that its transport expects, and the browser itself. What comes back from the transport
during one operation is a record of answers, one for each call the operation may make. -/
namespace CloudBrowser

def BrowserState.value : BrowserState → String
  | .stopped => "stopped"
  | .starting => "starting"
  | .ready => "ready"
  | .suspended => "suspended"
  | .failed => "failed"

namespace SlotSupervisor

open Stateful
open AgentControl (SplitResult)

inductive SlotError
  | lifecycleError (message : String)
  | valueError (message : String)
  | browserUnavailable (message : String)
  | readinessTimeout (message : String)
  | browserOwnershipChanged (message : String)
  | osError
  | other
  deriving DecidableEq, Repr

/-- `LifecycleError` is a `ValueError`. -/
def SlotError.isValueError : SlotError → Bool
  | .lifecycleError _ => true
  | .valueError _ => true
  | _ => false

/-- `raise ValueError(str(exc))` for a `LifecycleError`. -/
def SlotError.plain : SlotError → SlotError
  | .lifecycleError message => .valueError message
  | e => e

structure LifecycleSnapshot extends BrowserBinding where
  state : BrowserState
  urls : List String := []
  deriving DecidableEq, Repr

/-- The lifecycle, with what its two snapshot files hold where they can be read. -/
structure OwnerBoundLifecycle where
  binding : BrowserBinding
  state : BrowserState := .stopped
  snapshotFile : Option LifecycleSnapshot := none
  lastGoodFile : Option LifecycleSnapshot := none
  deriving DecidableEq

section Tabs

-- the standard library's `urlsplit`
variable (urlsplit : String → Except Unit SplitResult)

/-- An absolute HTTP(S) URL. -/
def isPageUrl (url : String) : Except SlotError Bool :=
  match urlsplit url with
  | .error _ => .error (.valueError "urlsplit")
  | .ok parsed => .ok (["http","https"].contains parsed.scheme && parsed.netloc ≠ "")

/-- The loop of `normalize_urls`, which stops at `limit` URLs. -/
def normalizeFrom (limit : ℕ) : List String → List String → Except SlotError (List String)
  | result, [] => .ok result
  | result, url::urls => do
    if !(← isPageUrl urlsplit url) || result.contains url then
      normalizeFrom limit result urls
    else if (result ++ [url]).length = limit then
      return result ++ [url]
    else
      normalizeFrom limit (result ++ [url]) urls

def normalizeUrls (urls : List String) : Except SlotError (List String) :=
  normalizeFrom urlsplit 10 [] urls

/-- `read_snapshot`: nothing where the file is of another binding or cannot be read. -/
def readSnapshot (binding : BrowserBinding) (file : Option LifecycleSnapshot) :
    Option (List String) :=
  file.bind fun raw =>
    if raw.toBrowserBinding = binding then (normalizeUrls urlsplit raw.urls).toOption
    else none

namespace OwnerBoundLifecycle

variable (l : OwnerBoundLifecycle) (binding : BrowserBinding)

def requireBinding : Except SlotError Unit :=
  if binding = l.binding then .ok ()
  else .error (.lifecycleError "owner or browser binding mismatch")

def adoptBinding : Except SlotError OwnerBoundLifecycle :=
  if l.state = .stopped then .ok { l with binding := binding }
  else .error (.lifecycleError
    ("cannot adopt a new binding from " ++ l.state.value ++ "; stop first"))

def start : Except SlotError OwnerBoundLifecycle := do
  l.requireBinding binding
  if l.state ∈ [.stopped,.suspended,.failed] then return { l with state := .starting }
  else throw (.lifecycleError ("cannot start from " ++ l.state.value))

def markReady : Except SlotError OwnerBoundLifecycle := do
  l.requireBinding binding
  if l.state = .starting then return { l with state := .ready }
  else throw (.lifecycleError ("cannot mark ready from " ++ l.state.value))

def suspend : Except SlotError OwnerBoundLifecycle := do
  l.requireBinding binding
  if l.state ∈ [.ready,.failed] then return { l with state := .suspended }
  else throw (.lifecycleError ("cannot suspend from " ++ l.state.value))

def stop : Except SlotError OwnerBoundLifecycle := do
  l.requireBinding binding
  return { l with state := .stopped }

/-- What `record_tabs` is about to write. -/
def captureTabs (urls : List String) : Except SlotError LifecycleSnapshot := do
  l.requireBinding binding
  if l.state = .ready then
    return ⟨l.binding,l.state,← normalizeUrls urlsplit urls⟩
  else throw (.lifecycleError "tabs can only be recorded while ready")

def loadTabs : Except SlotError (List String) := do
  l.requireBinding binding
  match readSnapshot urlsplit l.binding l.snapshotFile with
  | some urls => return urls
  | none => return (readSnapshot urlsplit l.binding l.lastGoodFile).getD []

end OwnerBoundLifecycle
end Tabs

/-- The browser behind the transport, with the identity that it reports. -/
structure Browser where
  owner : String
  generation : String
  running : Bool := false
  pages : List String := []
  deriving DecidableEq

namespace Browser

variable (b : Browser)

/-- A running browser is left alone. -/
def started (fresh : List String) : Browser :=
  if b.running then b else { b with running := true, pages := fresh }

def stopped : Browser := { b with running := false, pages := [] }

def opened (url : String) : Browser :=
  if b.running then { b with pages := b.pages ++ [url] } else b

def emptyClosed : Browser :=
  { b with pages := b.pages.filter fun url => url ∉ ["about:blank","chrome://newtab/"] }

def rebound (binding : BrowserBinding) : Browser :=
  { b with owner := binding.principalId, generation := binding.generation }

@[simp] theorem started_running (fresh : List String) : (b.started fresh).running = true := by
  by_cases h : b.running = true <;> simp [started,h]

@[simp] theorem started_owner (fresh : List String) : (b.started fresh).owner = b.owner := by
  by_cases h : b.running = true <;> simp [started,h]

@[simp] theorem started_generation (fresh : List String) :
    (b.started fresh).generation = b.generation := by
  by_cases h : b.running = true <;> simp [started,h]

@[simp] theorem stopped_running : b.stopped.running = false := rfl

@[simp] theorem opened_running (url : String) : (b.opened url).running = b.running := by
  by_cases h : b.running = true <;> simp [opened,h]

@[simp] theorem emptyClosed_running : b.emptyClosed.running = b.running := rfl

@[simp] theorem rebound_running (binding : BrowserBinding) :
    (b.rebound binding).running = b.running := rfl

end Browser

/-- A push of a binding, and whether the browser was running then. -/
structure Push where
  binding : BrowserBinding
  running : Bool
  deriving DecidableEq

/-- What the transport expects of a readiness report. -/
structure HttpBrowserTransport where
  expectedOwner : String
  expectedGeneration : String
  deriving DecidableEq

structure Slot where
  lifecycle : OwnerBoundLifecycle
  transport : HttpBrowserTransport
  browser : Browser
  pushes : List Push := []
  deriving DecidableEq

def Slot.inState (s : Slot) (state : BrowserState) : Slot :=
  { s with lifecycle := { s.lifecycle with state := state } }

/-- What comes back for a command: a command that fails may have taken effect. -/
inductive Reply
  | acknowledged
  | failed (error : SlotError) (effective : Bool)
  deriving DecidableEq

namespace Reply

def outcome : Reply → Except SlotError Unit
  | .acknowledged => .ok ()
  | .failed error _ => .error error

def effective : Reply → Bool
  | .acknowledged => true
  | .failed _ effective => effective

/-- What the command leaves of what it acts on. -/
def on {α : Type} (reply : Reply) (effect : α → α) (x : α) : α :=
  if reply.effective then effect x else x

@[simp] theorem effective_acknowledged : effective .acknowledged = true := rfl

@[simp] theorem outcome_acknowledged : outcome .acknowledged = .ok () := rfl

@[simp] theorem on_acknowledged {α : Type} (effect : α → α) (x : α) :
    on .acknowledged effect x = effect x := rfl

/-- What the effect of a command keeps, the command keeps. -/
theorem on_ind {α : Type} {P : α → Prop} {effect : α → α} (h : ∀ x, P x → P (effect x))
    (reply : Reply) {x : α} (hx : P x) : P (reply.on effect x) := by
  by_cases he : reply.effective = true
  · simpa [on,he] using h x hx
  · simpa [on,he] using hx

theorem on_same {α β : Type} {g : α → β} {effect : α → α} (h : ∀ x, g (effect x) = g x)
    (reply : Reply) (x : α) : g (reply.on effect x) = g x :=
  on_ind (P:=fun y => g y = g x) (fun y hy => (h y).trans hy) reply rfl

theorem outcome_eq_ok {reply : Reply} : reply.outcome = .ok () ↔ reply = .acknowledged := by
  cases reply <;> simp [outcome]

end Reply

/-- What comes back for a readiness probe: the browser's own identity, or some other one. -/
inductive Probe
  | failed (error : SlotError)
  | own (cdpOk : Bool)
  | stray (readiness : BrowserReadiness)
  deriving DecidableEq

/-- The answers of the transport and of the disk during one operation. The readiness deadline
passes after the last of the `probes`. -/
structure Answers where
  owner : Probe
  probe : Probe
  probes : List Probe
  start : Reply
  fresh : List String
  stop : Reply
  cleanup : Reply
  opens : ℕ → Reply
  closeEmpty : Reply
  listing : Except SlotError (List String)
  push : Reply
  snapshotWrite : Reply
  lastGoodWrite : Reply

structure OrchestrationResult where
  status : String
  state : BrowserState
  restoredUrls : List String := []
  deriving DecidableEq

abbrev Operation := Op SlotError Slot

section Readiness

variable (transport : HttpBrowserTransport) (b : Browser) (binding : BrowserBinding)

def report : Probe → Except SlotError BrowserReadiness
  | .failed e => .error e
  | .own cdpOk => .ok ⟨b.owner,b.generation,cdpOk⟩
  | .stray ready => .ok ready

def readiness (p : Probe) : Except SlotError BrowserReadiness := do
  let ready ← report b p
  if ready.owner = transport.expectedOwner ∧ ready.generation = transport.expectedGeneration then
    return ready
  else throw (.browserUnavailable "browser readiness binding mismatch")

/-- One probe, refused when it reports another owner than that of the binding. -/
def probeOwner (p : Probe) : Except SlotError BrowserReadiness := do
  let ready ← readiness transport b p
  if ready.owner = binding.principalId ∧ ready.generation = binding.generation then
    return ready
  else throw (.browserOwnershipChanged "browser owner or generation changed")

def waitReady (p : Probe) : List Probe → Except SlotError Unit
  | [] => do
    if (← probeOwner transport b binding p).cdpOk then return ()
    else throw (.readinessTimeout "browser readiness deadline exceeded")
  | p'::ps => do
    if (← probeOwner transport b binding p).cdpOk then return ()
    else waitReady p' ps

end Readiness

/-- Apply a method of the lifecycle. -/
def onLifecycle (method : OwnerBoundLifecycle → Except SlotError OwnerBoundLifecycle) :
    Operation Unit :=
  update fun s => (method s.lifecycle).map fun l => { s with lifecycle := l }

/-- Send the browser a command. -/
def command (reply : Reply) (effect : Browser → Browser) : Operation Unit := do
  modify fun s => { s with browser := reply.on effect s.browser }
  check reply.outcome

/-- `write_snapshot` to one of the two files. -/
def writeSnapshot (reply : Reply) (put : OwnerBoundLifecycle → OwnerBoundLifecycle) :
    Operation Unit := do
  modify fun s => { s with lifecycle := reply.on put s.lifecycle }
  check reply.outcome

section Operations

variable (urlsplit : String → Except Unit SplitResult) (a : Answers)

def requireTransportOwner (binding : BrowserBinding) : Operation Unit :=
  discard (inspect fun s => probeOwner s.transport s.browser binding a.owner)

def requirePositiveTimeout (timeoutS pollS : ℚ) : Except SlotError Unit :=
  if timeoutS ≤ 0 ∨ pollS ≤ 0 then
    .error (.valueError "timeout_s and poll_s must be positive")
  else .ok ()

/-- `HttpBrowserTransport.push_binding`: once it is acknowledged, the transport expects the
new owner. -/
def pushBinding (binding : BrowserBinding) : Operation Unit := do
  modify fun s => { s with pushes := s.pushes ++ [⟨binding,s.browser.running⟩] }
  command a.push (·.rebound binding)
  modify fun s => { s with transport := ⟨binding.principalId,binding.generation⟩ }

def openPage (reply : Reply) (url : String) : Operation Unit := do
  if ← check (isPageUrl urlsplit url) then
    command reply (·.opened url)
  else throw (.valueError "only absolute HTTP(S) page URLs are allowed")

/-- Open the restored pages one after the other; `n` of them have been opened before. -/
def openPages (n : ℕ) : List String → Operation Unit
  | [] => return ()
  | url::urls => do
    openPage urlsplit (a.opens n) url
    openPages (n+1) urls

/-- `_safe_stop`: the lifecycle is stopped even where the browser is not. -/
def safeStop (binding : BrowserBinding) : Operation Unit :=
  ensuring (command a.cleanup Browser.stopped) do
    if (← get).lifecycle.binding = binding then
      onLifecycle (·.stop binding)

/-- The part of `wake` that is cleaned up after. -/
def bringUp (binding : BrowserBinding) : Operation OrchestrationResult := do
  command a.start (·.started a.fresh)
  inspect fun s => waitReady s.transport s.browser binding a.probe a.probes
  onLifecycle (·.markReady binding)
  let urls ← inspect fun s => s.lifecycle.loadTabs urlsplit binding
  openPages urlsplit a 0 urls
  command a.closeEmpty Browser.emptyClosed
  return ⟨"ready",(← get).lifecycle.state,urls⟩

def wake (binding : BrowserBinding) (timeoutS : ℚ := 30) (pollS : ℚ := 1/10) :
    Operation OrchestrationResult := do
  check (requirePositiveTimeout timeoutS pollS)
  let s ← get
  if s.lifecycle.state = .ready ∧ s.lifecycle.binding = binding then
    inspect fun s => waitReady s.transport s.browser binding a.probe a.probes
    let urls ← inspect fun s => s.lifecycle.loadTabs urlsplit binding
    return ⟨"ready",(← get).lifecycle.state,urls⟩
  else
    onLifecycle (·.start binding)
    tryCatch (bringUp urlsplit a binding) fun e => do
      safeStop a binding
      throw e

def recordTabs (binding : BrowserBinding) (urls : List String) : Operation LifecycleSnapshot := do
  let captured ← inspect fun s => s.lifecycle.captureTabs urlsplit binding urls
  writeSnapshot a.snapshotWrite ({ · with snapshotFile := some captured })
  writeSnapshot a.lastGoodWrite ({ · with lastGoodFile := some captured })
  return captured

def suspend (binding : BrowserBinding) : Operation OrchestrationResult := do
  requireTransportOwner a binding
  let urls ← check a.listing
  let captured ← recordTabs urlsplit a binding urls
  command a.stop Browser.stopped
  onLifecycle (·.suspend binding)
  return ⟨"suspended",(← get).lifecycle.state,captured.urls⟩

def stop (binding : BrowserBinding) : Operation OrchestrationResult := do
  requireTransportOwner a binding
  command a.stop Browser.stopped
  onLifecycle (·.stop binding)
  return ⟨"stopped",(← get).lifecycle.state,[]⟩

def adoptBinding (binding : BrowserBinding) : Operation OrchestrationResult := do
  let current := (← get).lifecycle.binding
  if binding.browserId ≠ current.browserId then
    throw (.valueError "binding names a different browser slot")
  -- the browser is stopped before the lifecycle, so that a refused stop changes nothing
  if (← get).lifecycle.state ≠ .stopped then
    command a.stop Browser.stopped
    onLifecycle (·.stop current)
  pushBinding a binding
  tryCatch (onLifecycle (·.adoptBinding binding)) fun e => throw e.plain
  return ⟨"adopted",(← get).lifecycle.state,[]⟩

def recreate (binding : BrowserBinding) (timeoutS : ℚ := 30) (pollS : ℚ := 1/10) :
    Operation OrchestrationResult := do
  let _ ← stop a binding
  wake urlsplit a binding timeoutS pollS

end Operations

end SlotSupervisor
end CloudBrowser
