import CloudBrowser.DownloadWatcher
import CloudBrowser.IngestPipeline
import CloudBrowser.Lifecycle

/-! The browser service: its browser, the binding pushes it adopts, and its download watchers. -/
namespace CloudBrowser
namespace Downloads

open CloudFiles
open Directories

/-- The variables that the service reads. -/
structure Environment where
  autostart : Option String := none
  routerSharedSecret : Option String := none
  downloadDir : Option String := none
  ingestUrl : Option String := none
  ingestSecret : Option String := none
  maxBytes : Option String := none
  principalId : Option String := none
  profileId : Option String := none
  browserId : Option String := none
  generation : Option String := none

namespace Environment

/-- The identity of the browser, placeholders where the environment has none. -/
def binding (env : Environment) : BrowserBinding where
  profileId := env.profileId.getD "profile-unassigned"
  principalId := env.principalId.getD "principal-unassigned"
  browserId := env.browserId.getD "browser-unassigned"
  generation := env.generation.getD "generation-0"

def unassigned (env : Environment) : Bool :=
  [env.binding.principalId,env.binding.profileId,env.binding.browserId,env.binding.generation].any
    ["principal-unassigned","profile-unassigned","browser-unassigned","generation-0"].contains

def autostartEnabled (env : Environment) : Bool :=
  ! List.contains ["0","false","no"] (env.autostart.getD "1")

end Environment

inductive BuildError
  | systemExit | valueError
  deriving DecidableEq, Repr

def principalOf (binding : BrowserBinding) : Option PrincipalBinding :=
  PrincipalBinding.build binding.principalId binding.profileId binding.browserId binding.generation ""

/-- `DownloadWatchConfig`, `IngestClient` and the watcher over them. -/
def newWatcher (downloadDir url secret : String) (maxBytes : ℤ) (binding : PrincipalBinding) :
    Except BuildError BrowserDownloadWatcher :=
  if hmax : 0 < maxBytes ∧ downloadDir.startsWith "/" then
    if hclient : (url.startsWith "http://" || url.startsWith "https://") = true ∧
        16 ≤ Text.utf8Length secret then
      .ok {
        config := ⟨binding,maxBytes.toNat,by omega⟩
        client := ⟨url,secret,hclient.1,hclient.2⟩ }
    else .error .valueError
  else .error .systemExit

/-- The binding that the watcher is built with: the adopted one, or that of the environment. -/
def watcherBinding (env : Environment) : Option PrincipalBinding →
    Except BuildError PrincipalBinding
  | some binding => .ok binding
  | none =>
    if env.unassigned then .error .systemExit
    else (principalOf env.binding).elim (.error .valueError) .ok

/-- Where downloads come from and go to, and the limit of their size. -/
def transport (env : Environment) : Except BuildError (Option (String × String × String × ℤ)) :=
  match env.downloadDir.getD "", env.ingestUrl.getD "", env.ingestSecret.getD "" with
  | "", _, _ => .ok none
  | _, "", _ => .ok none
  | _, _, "" => .ok none
  | downloadDir, url, secret =>
    match intOfText (env.maxBytes.getD "1073741824") with
    | none => .error .systemExit
    | some maxBytes => .ok (some (downloadDir,url,secret,maxBytes))

def buildDownloadWatcher (env : Environment) (binding : Option PrincipalBinding) :
    Except BuildError (Option BrowserDownloadWatcher) :=
  match transport env with
  | .error e => .error e
  | .ok none => .ok none
  | .ok (some (downloadDir,url,secret,maxBytes)) =>
    match watcherBinding env binding with
    | .error e => .error e
    | .ok binding => (newWatcher downloadDir url secret maxBytes binding).map some

/-- `DownloadWatcherRegistry.on_binding`: the watcher that the registry holds afterwards. -/
def onBinding (env : Environment) (registry : Option BrowserDownloadWatcher)
    (binding : BrowserBinding) : Except BuildError (Option BrowserDownloadWatcher) :=
  match principalOf binding with
  | none => .error .valueError
  | some principal =>
    match registry with
    | some watcher => .ok (some (watcher.updateBinding principal))
    | none => buildDownloadWatcher env (some principal)

def pushFields : List String := ["principal_id","profile_id","browser_id","generation"]

/-- What a push is answered with, where it is refused. -/
structure Refusal where
  code : ℕ
  errorCode : String
  deriving DecidableEq, Repr

def pushText (fields : List (String × Json)) (name : String) : Except Refusal String :=
  match Json.get fields name with
  | .str value =>
    if Text.bounded String.length 256 value then .ok value
    else .error ⟨400,"invalid_binding"⟩
  | _ => .error ⟨400,"invalid_binding"⟩

def parseBindingPush (env : Environment) (provided : Option String) (payload : Option Json) :
    Except Refusal BrowserBinding :=
  if env.routerSharedSecret.getD "" = "" ∨ provided.getD "" ≠ env.routerSharedSecret.getD "" then
    .error ⟨403,"binding_not_authorized"⟩
  else
    match payload with
    | some (.obj fields) =>
      if fields.any fun f => !pushFields.contains f.1 then .error ⟨400,"invalid_binding"⟩
      else do
        let browserId ← pushText fields "browser_id"
        let generation ← pushText fields "generation"
        let principalId ← pushText fields "principal_id"
        let profileId ← pushText fields "profile_id"
        return ⟨profileId,principalId,browserId,generation⟩
    | _ => .error ⟨400,"invalid_binding"⟩

/-- A submission that was begun: the owner under which its file was completed, if this service saw
that, and the binding that was last adopted by a push, unless one is under way. -/
structure Posted where
  event : BrowserDownloadCompleted
  owner : Option String
  adopted : Option BrowserBinding
  deriving DecidableEq

/-- The service: whether its browser is in another state than stopped, the binding of the browser,
the watcher that it started with, the one of the registry, and the push that is under way between
the rebinding and its listener. Under which owner the files were completed, and what the last
finished push adopted, is kept for what is said about the service. -/
structure Service where
  dir : Directory Node
  running : Bool
  binding : BrowserBinding
  boot : Option BrowserDownloadWatcher
  registry : Option BrowserDownloadWatcher := none
  pushing : Option BrowserBinding := none
  owners : ℕ → Option String := fun _ => none
  adopted : Option BrowserBinding := none
  submissions : List Posted := []

/-- `run_browser_service` up to serving, where it raises nothing. -/
def runBrowserService (env : Environment) (dir : Directory Node) : Option Service :=
  if env.autostartEnabled then
    match buildDownloadWatcher env none with
    | .ok watcher => some { dir := dir, running := true, binding := env.binding, boot := watcher }
    | .error _ => none
  else some { dir := dir, running := false, binding := env.binding, boot := none }

/-- The two places that hold a watcher: `run_browser_service`, and the registry. -/
inductive Holder
  | boot | registry
  deriving DecidableEq, Repr

inductive Event
  | browser (m : BrowserMove)
  | watcher (holder : Holder) (m : Move)
  | start
  | stop
  | push (secret : Option String) (payload : Option Json)
  | listen

/-- The owners of the files after a move of the browser that is bound to `owner`: a file is
completed when it gets a name that is not one of an unfinished download. -/
def completing (owner : String) (d : Directory Node) (owners : ℕ → Option String) :
    BrowserMove → ℕ → Option String
  | .create name _ =>
    Function.update owners d.fresh (if isPartial name then none else some owner)
  | .rename source target =>
    match d.lookup source with
    | some inode =>
      if isPartial target || (owners inode).isSome then owners
      else Function.update owners inode (some owner)
    | none => owners
  | _ => owners

namespace Service

def watcher (s : Service) : Holder → Option BrowserDownloadWatcher
  | .boot => s.boot
  | .registry => s.registry

def setWatcher (s : Service) (w : BrowserDownloadWatcher) : Holder → Service
  | .boot => { s with boot := some w }
  | .registry => { s with registry := some w }

def record (s : Service) : Option Effect → Service
  | some (.posted _ event) => { s with submissions := s.submissions ++
      [⟨event,s.owners event.source,if s.pushing = none then s.adopted else none⟩] }
  | _ => s

def rebind (s : Service) (binding : BrowserBinding) : Service :=
  { s with binding := binding, pushing := some binding }

@[simp] theorem watcher_rebind (s : Service) (binding : BrowserBinding) :
    (s.rebind binding).watcher = s.watcher := rfl

/-- The handler of a push, up to the rebinding; a second push waits for the first. -/
def handleBindingPush (env : Environment) (s : Service) (secret : Option String)
    (payload : Option Json) : Except Refusal Service :=
  match parseBindingPush env secret payload with
  | .error refusal => .error refusal
  | .ok binding =>
    if s.running then .error ⟨409,"browser_not_stopped"⟩
    else .ok (s.rebind binding)

/-- The listener of a push, whose exceptions are logged, and the answer. -/
def listen (env : Environment) (s : Service) (binding : BrowserBinding) : Service :=
  { s with
    registry := (onBinding env s.registry binding).toOption.getD s.registry
    pushing := none
    adopted := some binding }

def next (env : Environment) (s : Service) : Event → Service
  | .browser m =>
    if s.running then
      { s with dir := m.apply s.dir, owners := completing s.binding.principalId s.dir s.owners m }
    else s
  | .watcher holder m =>
    match s.watcher holder with
    | none => s
    | some w =>
      { s.setWatcher (step s.dir w m).1 holder with dir := (step s.dir w m).2.1 }.record
        (step s.dir w m).2.2
  | .start => { s with running := true }
  | .stop => { s with running := false }
  | .push secret payload =>
    if s.pushing = none then
      match s.handleBindingPush env secret payload with
      | .ok s' => s'
      | .error _ => s
    else s
  | .listen =>
    match s.pushing with
    | some binding => s.listen env binding
    | none => s

section Specifications

variable {s : Service} {w : BrowserDownloadWatcher} {holder holder' : Holder} {e : Option Effect}

@[simp] theorem watcher_setWatcher_self : (s.setWatcher w holder).watcher holder = some w := by
  cases holder <;> rfl

theorem watcher_setWatcher_of_ne (h : holder' ≠ holder) :
    (s.setWatcher w holder).watcher holder' = s.watcher holder' := by
  cases holder <;> cases holder' <;> first | rfl | exact absurd rfl h

/-- What stays the same when a watcher takes a step. -/
structure Watched (s s' : Service) : Prop where
  running : s'.running = s.running
  binding : s'.binding = s.binding
  pushing : s'.pushing = s.pushing
  owners : s'.owners = s.owners
  adopted : s'.adopted = s.adopted

theorem watched_step (d : Directory Node) :
    Watched s ({ s.setWatcher w holder with dir := d }.record e) := by
  unfold record
  split <;> cases holder <;> exact ⟨rfl,rfl,rfl,rfl,rfl⟩

@[simp] theorem watcher_record : (s.record e).watcher = s.watcher := by
  unfold record
  split <;> rfl

@[simp] theorem dir_record : (s.record e).dir = s.dir := by
  unfold record
  split <;> rfl

theorem mem_submissions_record {x : Posted} : x ∈ (s.record e).submissions ↔
    x ∈ s.submissions ∨ ∃ headers, e = some (.posted headers x.event) ∧
      x.owner = s.owners x.event.source ∧ x.adopted = if s.pushing = none then s.adopted else none := by
  unfold record
  split
  · rename_i headers event
    simp only [List.mem_append,List.mem_singleton,Option.some.injEq,Effect.posted.injEq]
    constructor
    · intro h
      apply h.imp_right
      intro hx
      exact ⟨headers,by simp [hx]⟩
    · intro h
      apply h.imp_right
      intro hx
      obtain ⟨headers',hevent,howner,hadopted⟩ := hx
      cases x
      simp_all
  · rename_i hnot
    constructor
    · exact Or.inl
    · intro h
      apply h.resolve_right
      intro hx
      obtain ⟨headers,he,-⟩ := hx
      exact hnot headers x.event he

end Specifications

end Service

theorem attribution_of_principalOf {binding : BrowserBinding} {principal : PrincipalBinding}
    (h : principalOf binding = some principal) : attribution principal = binding :=
  attribution_of_build h

/-- The transport is configured, and valid. -/
def Environment.Works (env : Environment) : Prop :=
  match transport env with
  | .ok (some (downloadDir,url,secret,maxBytes)) =>
    (0 < maxBytes ∧ downloadDir.startsWith "/") ∧
      (url.startsWith "http://" || url.startsWith "https://") = true ∧ 16 ≤ Text.utf8Length secret
  | _ => False

instance (env : Environment) : Decidable env.Works := by
  unfold Environment.Works
  split <;> infer_instance

theorem newWatcher_ok {downloadDir url secret : String} {maxBytes : ℤ} {binding : PrincipalBinding}
    {w : BrowserDownloadWatcher} (h : newWatcher downloadDir url secret maxBytes binding = .ok w) :
    ((0 < maxBytes ∧ downloadDir.startsWith "/") ∧
      (url.startsWith "http://" || url.startsWith "https://") = true ∧ 16 ≤ Text.utf8Length secret) ∧
    w.phase = .idle ∧ w.config.binding = binding := by
  unfold newWatcher at h
  split_ifs at h with hmax hclient
  cases h
  exact ⟨⟨hmax,hclient⟩,rfl,rfl⟩

theorem buildDownloadWatcher_ok {env : Environment} {binding : Option PrincipalBinding}
    {w : BrowserDownloadWatcher} (h : buildDownloadWatcher env binding = .ok (some w)) :
    env.Works ∧ w.phase = .idle ∧ watcherBinding env binding = .ok w.config.binding := by
  unfold buildDownloadWatcher at h
  split at h
  case h_3 downloadDir url secret maxBytes htransport =>
    cases hbinding : watcherBinding env binding with
    | error e => simp [hbinding] at h
    | ok principal =>
      cases hnew : newWatcher downloadDir url secret maxBytes principal with
      | error e => simp [hbinding,hnew,Except.map] at h
      | ok w' =>
        have hw : w' = w := by simpa [hbinding,hnew,Except.map] using h
        rw [← hw]
        obtain ⟨hvalid,hphase,hconfig⟩ := newWatcher_ok hnew
        have hworks : env.Works := by
          simp only [Environment.Works,htransport]
          exact hvalid
        exact ⟨hworks,hphase,by rw [hconfig]⟩
  all_goals cases h

theorem watcherBinding_none {env : Environment} {principal : PrincipalBinding}
    (h : watcherBinding env none = .ok principal) : attribution principal = env.binding := by
  unfold watcherBinding at h
  split_ifs at h
  cases hprincipal : principalOf env.binding with
  | none => simp [hprincipal] at h
  | some principal' =>
    have hsame : principal' = principal := by simpa [hprincipal] using h
    rw [← hsame]
    exact attribution_of_principalOf hprincipal

/-- The watcher that a registry has after it took a binding over is set to it. -/
theorem onBinding_ok {env : Environment} {registry : Option BrowserDownloadWatcher}
    {binding : BrowserBinding} {w : BrowserDownloadWatcher}
    (h : onBinding env registry binding = .ok (some w)) :
    attribution w.config.binding = binding ∧
      ((∃ w', registry = some w' ∧ w.phase = w'.phase) ∨
        registry = none ∧ w.phase = .idle ∧ env.Works) := by
  unfold onBinding at h
  cases hprincipal : principalOf binding with
  | none => simp [hprincipal] at h
  | some principal =>
    have hattribution := attribution_of_principalOf hprincipal
    cases registry with
    | some w' =>
      have hw : w'.updateBinding principal = w := by simpa [hprincipal] using h
      rw [← hw]
      exact ⟨hattribution,Or.inl ⟨w',rfl,rfl⟩⟩
    | none =>
      have hbuild := buildDownloadWatcher_ok (by simpa [hprincipal] using h)
      have hbinding : principal = w.config.binding := by simpa [watcherBinding] using hbuild.2.2
      rw [← hbinding]
      exact ⟨hattribution,Or.inr ⟨rfl,hbuild.2.1,hbuild.1⟩⟩

end Downloads
end CloudBrowser
