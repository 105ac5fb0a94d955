import CloudBrowser.AgentControl
import CloudBrowser.Interpretation

/-! The agent-control service as it is assembled. Its browser is the HTTP adapter of the browser
sidecar, which bounds what the sidecar answers; the restricted browser, which also redacts it,
is not part of the assembly. -/
namespace CloudBrowser
namespace AgentControl

open Interleave Stateful

/-! ### The HTTP adapter -/

/-- `raw.get(name, default)` is a string. -/
def optionalText (fields : List (String × Json)) (name : String) : Bool :=
  match fields.lookup name with
  | none => true
  | some (.str _) => true
  | some _ => false

def readinessPayload : Json → Except AgentError BrowserReadiness
  | .obj fields =>
    match Json.get fields "owner", Json.get fields "generation", Json.get fields "cdp_ok" with
    | .str owner, .str generation, .bool cdpOk =>
      if optionalText fields "profile_id" && optionalText fields "browser_id" then
        .ok ⟨owner,generation,cdpOk⟩
      else .error (.browserUnavailable "invalid agent browser readiness")
    | _, _, _ => .error (.browserUnavailable "invalid agent browser readiness")
  | _ => .error (.browserUnavailable "invalid agent browser readiness")

/-- `HttpAgentBrowserTransport.readiness`, under the owner and the generation it expects. -/
def httpReadiness (expected : String × String) (raw : Json) : Except AgentError BrowserReadiness := do
  let ready ← readinessPayload raw
  if ready.owner ≠ expected.1 ∨ ready.generation ≠ expected.2 then
    .error (.browserUnavailable "agent browser readiness binding mismatch")
  else .ok ready

def httpTab : Json → Except AgentError Tab
  | .obj fields =>
    match Json.get fields "tab_id", Json.get fields "url", Json.get fields "title" with
    | .str tabId, .str url, .str title =>
      if tabId = "" ∨ url = "" ∨ title = "" then
        .error (.browserUnavailable "invalid agent browser page")
      else if 256 < Text.utf8Length tabId ∨ 2048 < Text.utf8Length url ∨
          4096 < Text.utf8Length title then
        .error (.browserUnavailable "agent browser page is too large")
      else .ok ⟨tabId,url,title⟩
    | _, _, _ => .error (.browserUnavailable "invalid agent browser page")
  | _ => .error (.browserUnavailable "invalid agent browser page")

/-- `HttpAgentBrowserTransport.list_pages`. -/
def httpListPages : Json → Except AgentError (List Tab)
  | .obj fields =>
    match Json.get fields "pages" with
    | .arr pages =>
      if 32 < pages.length then
        .error (.browserUnavailable "invalid agent browser pages response")
      else pages.mapM httpTab
    | _ => .error (.browserUnavailable "invalid agent browser pages response")
  | _ => .error (.browserUnavailable "invalid agent browser pages response")

/-- `HttpAgentBrowserTransport.page_info`. -/
def httpPageInfo : Json → Except AgentError Page
  | .obj fields =>
    match Json.get fields "url", Json.get fields "title", Json.get fields "text" with
    | .str url, .str title, .str text =>
      if 2048 < Text.utf8Length url ∨ 4096 < Text.utf8Length title ∨ 4096 < Text.utf8Length text then
        .error (.browserUnavailable "agent page state is too large")
      else .ok (.state url title text)
    | _, _, _ => .error (.browserUnavailable "invalid agent page state")
  | _ => .error (.browserUnavailable "invalid agent page state")

/-- `_expect_ok`. -/
def expectOk : Json → Except AgentError Unit
  | .obj fields =>
    match Json.get fields "ok" with
    | .bool true => .ok ()
    | _ => .error (.browserUnavailable "agent browser operation was not acknowledged")
  | _ => .error (.browserUnavailable "agent browser operation was not acknowledged")

/-- `HttpAgentBrowser`: what a call gives for an answer of the sidecar. -/
def httpAgentBrowser : BrowserCall → Json → Except AgentError (Option Page)
  | .pageInfo _ _, raw => (httpPageInfo raw).map some
  | .listPages, raw => (httpListPages raw).map fun pages => some (.tabs pages)
  | .navigate _ _, raw => (expectOk raw).map fun _ => none
  | .click _ _, raw => (expectOk raw).map fun _ => none
  | .typeText _ _ _, raw => (expectOk raw).map fun _ => none

/-! ### The restricted browser -/

section Restricted
variable (urlsplit : String → Except Unit SplitResult)

def safeObservedUrl (url : String) : Except AgentError Bool :=
  match urlsplit url with
  | .error _ => .error (.valueError "urlsplit")
  | .ok parsed => (safeNavigationUrl urlsplit url).map fun safe => safe && parsed.query = ""

/-- `PageState(url, title, text)`. -/
def pageState (url title text : String) : Except AgentError Page := do
  let safe ← safeObservedUrl urlsplit url
  if !safe ∨ 2048 < Text.utf8Length url then .error (.valueError "page url is invalid")
  else if 4096 < Text.utf8Length title then .error (.valueError "page state is invalid")
  else if containsSensitiveMarker title then
    .error (.valueError "page state contains blocked sensitive content")
  else if 4096 < Text.utf8Length text then .error (.valueError "page state is invalid")
  else if containsSensitiveMarker text then
    .error (.valueError "page state contains blocked sensitive content")
  else .ok (.state url title text)

def restrictedTab (tab : Tab) : Except AgentError Tab :=
  if [tab.tabId,tab.url,tab.title].any fun value => value = "" || 4096 < Text.utf8Length value then
    .error (.browserUnavailable "page listing is invalid")
  else do
    let safe ← safeObservedUrl urlsplit tab.url
    if !safe || containsSensitiveMarker tab.title then
      .error (.browserUnavailable "page listing contains blocked content")
    else .ok tab

/-- `RestrictedAgentBrowser`: what a call gives for what the callback returns. -/
def restrictedAgentBrowser : Option Page → Except AgentError (Option Page)
  | none => .ok none
  | some (.state url title text) => (pageState urlsplit url title text).map some
  | some (.tabs pages) =>
    if 32 < pages.length then .error (.browserUnavailable "page listing is invalid")
    else (pages.mapM (restrictedTab urlsplit)).map fun pages => some (.tabs pages)

end Restricted

/-! ### One call of the service -/

/-- What one call meets, whatever happens beside it: the lease under the lock, the sidecar's
answers to the two probes with the binding that the transport expects at each, the lease that is
read after each, and the sidecar's answer to an operation. -/
structure Encounter where
  expected : Lease
  probe : ℕ → Except AgentError Json
  pinned : ℕ → String × String
  lease : ℕ → String × String
  request : BrowserCall → Except AgentError Json

/-- A browser, as the service is given one: what it makes of the sidecar's answers. -/
abbrev Browser := BrowserCall → Json → Except AgentError (Option Page)

section Assembly
variable (e : Encounter) (browser : Browser)

/-- The actions of a call; the state counts the probes. -/
def Encounter.act : (a : Action) → Op AgentError ℕ (Answer a)
  | .expected => pure e.expected
  | .readiness => do
    let n ← get
    set (n+1)
    check ((e.probe n).bind (httpReadiness (e.pinned n)))
  | .current => do
    let n ← get
    pure (e.lease n)
  | .browser c => check ((e.request c).bind (browser c))

/-- What `handle` returns. -/
def Encounter.reply (urlsplit : String → Except Unit SplitResult) (request : AgentControlRequest) :
    Except AgentError Reply :=
  (Stateful.exec ((handle urlsplit request).alone (e.act browser)) 0).1

end Assembly

/-- The URL has neither a query nor a fragment. -/
def PlainUrl (urlsplit : String → Except Unit SplitResult) (url : String) : Prop :=
  ∀ parsed, urlsplit url = .ok parsed → parsed.query = "" ∧ parsed.fragment = ""

/-- What `PageState` and the page listing of `RestrictedAgentBrowser` promise. -/
def Page.Clean (urlsplit : String → Except Unit SplitResult) : Page → Prop
  | .state url title text => PlainUrl urlsplit url ∧ containsSensitiveMarker title = false ∧
      containsSensitiveMarker text = false
  | .tabs pages => ∀ tab ∈ pages, PlainUrl urlsplit tab.url ∧ containsSensitiveMarker tab.title = false

/-- No `ok` response of the service carries a page that is not clean. -/
def Encounter.Redacted (e : Encounter) (browser : Browser)
    (urlsplit : String → Except Unit SplitResult) (request : AgentControlRequest) : Prop :=
  ∀ reply page, e.reply browser urlsplit request = .ok reply → reply.status = .ok →
    reply.page = some page → page.Clean urlsplit

/-- The operation that reads pages, under the parameters that it accepts. -/
def pageRead (operation : String) (params : List (String × Json)) : Option BrowserCall :=
  match operation with
  | "page_info" =>
    match Json.get params "target_tab_id" with
    | .str tab =>
      match requireTargetTabId tab with
      | .error _ => none
      | .ok () =>
        match Json.get params "selector" with
        | .null => some (.pageInfo tab none)
        | raw => (requireSelector raw).toOption.map fun selector => .pageInfo tab (some selector)
    | _ => none
  | "tabs_list" => some .listPages
  | _ => none

/-- A probe that lets a call go on. -/
def Encounter.Ready (e : Encounter) (n : ℕ) (ready : BrowserReadiness) : Prop :=
  (e.probe n).bind (httpReadiness (e.pinned n)) = .ok ready ∧
    readinessMatches ready (e.lease (n+1)).1 (e.lease (n+1)).2 = true

/-- A page read that goes through: the request has a bounded id and is addressed to the lease, it
reads pages under parameters that the service accepts, the browser is ready for the lease before
and after, its answer is well formed and within bounds, and the response is not too large. -/
structure Encounter.Passes (e : Encounter) (browser : Browser) (request : AgentControlRequest)
    (page : Page) : Prop where
  id : ∃ requestId, request.requestId = .str requestId ∧ requestId ≠ "" ∧ requestId.length ≤ 128 ∧
    okLength requestId (some page) ≤ 64*1024
  addressed : request.principalId = e.expected.principalId ∧
    request.browserId = e.expected.browserId ∧ request.generation = e.expected.generation
  before : ∃ ready, e.Ready 0 ready ∧ ready.cdpOk = true
  read : ∃ operation params c, request.operation = .str operation ∧ request.params = .obj params ∧
    pageRead operation params = some c ∧ (e.request c).bind (browser c) = .ok (some page)
  after : ∃ ready, e.Ready 1 ready

section Spec
variable {e : Encounter} {browser : Browser} {urlsplit : String → Except Unit SplitResult}
  {request : AgentControlRequest} {requestId operation : String} {params : List (String × Json)}

/-- The answer of the browser to an operation. -/
def Encounter.answer (e : Encounter) (browser : Browser) (c : BrowserCall) :
    Except AgentError (Option Page) := (e.request c).bind (browser c)

@[simp] theorem exec_act_browser (c : BrowserCall) (n : ℕ) :
    Stateful.exec (e.act browser (.browser c)) n = (e.answer browser c,n) := exec_check _ n

/-- Where an operation reads pages, that is all it does. -/
theorem dispatch_read {c : BrowserCall} (hread : pageRead operation params = some c) :
    dispatch urlsplit operation params = perform (.browser c) := by
  unfold pageRead at hread
  split at hread
  · split at hread
    · rename_i tab htab
      split at hread
      · cases hread
      · rename_i hchecked
        split at hread
        · rename_i hselector
          cases hread
          simp only [dispatch,htab,hselector,hchecked]
          rfl
        · rename_i raw hraw
          cases hselector : requireSelector (Json.get params "selector") with
          | error x =>
            rw [hselector] at hread
            cases hread
          | ok selector =>
            rw [hselector] at hread
            cases hread
            simp only [dispatch,htab,hchecked,hselector]
            rfl
    · cases hread
  · cases hread
    rfl
  · cases hread

/-- An operation that asks for an acknowledgement returns no page. -/
theorem exec_acknowledged (c : BrowserCall) (n : ℕ) {result : Option Page} {n' : ℕ}
    (h : Stateful.exec ((perform (.browser c) >>= fun _ => pure none : Call (Option Page)).alone
      (e.act browser)) n = (.ok result,n')) : result = none ∧ n' = n := by
  simp only [Program.alone_bind,Program.alone_perform,Program.alone_pure,exec_bind] at h
  rw [exec_act_browser] at h
  cases hanswer : e.answer browser c with
  | error x => simp [hanswer] at h
  | ok page =>
    simp only [hanswer,exec_pure,Prod.mk.injEq,Except.ok.injEq] at h
    exact ⟨h.1.symm,h.2.symm⟩

/-- A check in front of an operation only decides whether it is reached. -/
theorem exec_checked {α β : Type} {r : Except AgentError α} {f : α → Call β} {n n' : ℕ} {x : β}
    (h : Stateful.exec ((Program.ofExcept r >>= f).alone (e.act browser)) n = (.ok x,n')) :
    ∃ y, r = .ok y ∧ Stateful.exec ((f y).alone (e.act browser)) n = (.ok x,n') := by
  simp only [Program.alone_bind,Program.alone_ofExcept,exec_bind,exec_check] at h
  cases r with
  | error x => cases h
  | ok y => exact ⟨y,rfl,h⟩

/-- Any other operation returns no page. -/
theorem exec_dispatch_none (hread : pageRead operation params = none) (n : ℕ) {result : Option Page}
    {n' : ℕ} (h : Stateful.exec ((dispatch urlsplit operation params).alone (e.act browser)) n =
      (.ok result,n')) : result = none ∧ n' = n := by
  unfold dispatch at h
  split at h
  · split at h
    · rename_i tab htab
      obtain ⟨_,hchecked,h⟩ := exec_checked h
      split at h
      · rename_i hselector
        simp [pageRead,htab,hchecked,hselector] at hread
      · rename_i raw hraw
        obtain ⟨selector,hselector,-⟩ := exec_checked h
        simp [pageRead,htab,hchecked,hselector,Except.toOption] at hread
    · cases h
  · cases hread
  · split at h
    · obtain ⟨_,-,h⟩ := exec_checked h
      obtain ⟨safe,-,h⟩ := exec_checked h
      cases safe with
      | false => cases h
      | true => exact exec_acknowledged _ n h
    · cases h
  · split at h
    · obtain ⟨_,-,h⟩ := exec_checked h
      obtain ⟨selector,-,h⟩ := exec_checked h
      exact exec_acknowledged _ n h
    · cases h
  · split at h
    · obtain ⟨_,-,h⟩ := exec_checked h
      obtain ⟨selector,-,h⟩ := exec_checked h
      split at h
      · cases h
      · split at h
        · split at h
          · cases h
          · exact exec_acknowledged _ n h
        · cases h
    · cases h
  · cases h

/-- The operations that return a page. -/
theorem exec_dispatch_page {n n' : ℕ} {page : Page} :
    Stateful.exec ((dispatch urlsplit operation params).alone (e.act browser)) n = (.ok (some page),n') ↔
      n' = n ∧ ∃ c, pageRead operation params = some c ∧ e.answer browser c = .ok (some page) := by
  cases hread : pageRead operation params with
  | none =>
    have hnone : Stateful.exec ((dispatch urlsplit operation params).alone (e.act browser)) n =
        (.ok (some page),n') → some page = none ∧ n' = n := exec_dispatch_none hread n
    simp only [reduceCtorEq,false_and,exists_false,and_false,iff_false]
    intro h
    simpa using hnone h
  | some c =>
    rw [dispatch_read hread,Program.alone_perform,exec_act_browser]
    simp only [Prod.mk.injEq,Option.some.injEq,exists_eq_left']
    exact ⟨fun h => ⟨h.2.symm,h.1⟩,fun h => ⟨h.2,h.1.symm⟩⟩

theorem exec_act_readiness (n : ℕ) : Stateful.exec (e.act browser .readiness) n =
    ((e.probe n).bind (httpReadiness (e.pinned n)),n+1) := by
  simp [Encounter.act,exec_bind]

theorem exec_act_current (n : ℕ) :
    Stateful.exec (e.act browser .current) n = (.ok (e.lease n),n) := by
  simp [Encounter.act,exec_bind,-bind_pure_comp]

/-- What lets a probe and the re-read of the lease that follows it go on. -/
theorem probe_iff {β : Type} {f : BrowserReadiness → String × String → Call β} {n n' : ℕ} {y : β} :
    Stateful.exec ((do
      let ready ← perform .readiness
      let lease ← perform .current
      f ready lease : Call β).alone (e.act browser)) n = (.ok y,n') ↔
    ∃ ready, (e.probe n).bind (httpReadiness (e.pinned n)) = .ok ready ∧
      Stateful.exec ((f ready (e.lease (n+1))).alone (e.act browser)) (n+1) = (.ok y,n') := by
  simp only [Program.alone_bind,Program.alone_perform]
  constructor
  · intro h
    obtain ⟨ready,n₁,hready,h⟩ := exec_bind_eq_ok.mp h
    obtain ⟨lease,n₂,hlease,h⟩ := exec_bind_eq_ok.mp h
    rw [exec_act_readiness] at hready
    simp only [Prod.mk.injEq] at hready
    obtain ⟨hready,rfl⟩ := hready
    rw [exec_act_current] at hlease
    simp only [Prod.mk.injEq,Except.ok.injEq] at hlease
    obtain ⟨rfl,rfl⟩ := hlease
    exact ⟨ready,hready,h⟩
  · rintro ⟨ready,hready,h⟩
    apply exec_bind_eq_ok.mpr
    refine ⟨ready,n+1,?_,?_⟩
    · rw [exec_act_readiness,hready]
    · apply exec_bind_eq_ok.mpr
      exact ⟨_,_,exec_act_current _,h⟩

/-- The replies that the operation under the `try` gives with a page. -/
theorem operate_page {n' : ℕ} {reply : Reply} {page : Page} :
    (Stateful.exec ((operate urlsplit requestId operation params).alone (e.act browser)) 0 =
      (.ok reply,n') ∧ reply.status = .ok ∧ reply.page = some page) ↔
    n' = 2 ∧ reply = { requestId := requestId, status := .ok, page := some page } ∧
      okLength requestId (some page) ≤ 64*1024 ∧ (∃ ready, e.Ready 0 ready ∧ ready.cdpOk = true) ∧
      (∃ c, pageRead operation params = some c ∧ e.answer browser c = .ok (some page)) ∧
      ∃ ready, e.Ready 1 ready := by
  unfold operate
  rw [probe_iff]
  constructor
  · rintro ⟨⟨ready,hready,h⟩,hstatus,hpage⟩
    split at h
    · cases h
      cases hstatus
    · rename_i hmatches
      split at h
      · cases h
        cases hstatus
      · rename_i hcdp
        rw [Program.alone_bind] at h
        obtain ⟨result,n₁,hdispatch,h⟩ := exec_bind_eq_ok.mp h
        obtain ⟨final,hfinal,h⟩ := probe_iff.mp h
        split at h
        · cases h
          cases hstatus
        · rename_i hagain
          split at h
          · cases h
            cases hstatus
          · rename_i hlength
            cases h
            cases hpage
            obtain ⟨rfl,hread⟩ := exec_dispatch_page.mp hdispatch
            refine ⟨rfl,rfl,by simpa using hlength,⟨ready,⟨hready,by simpa using hmatches⟩,by simpa using hcdp⟩,
              hread,⟨final,hfinal,by simpa using hagain⟩⟩
  · rintro ⟨rfl,rfl,hlength,⟨ready,⟨hready,hmatches⟩,hcdp⟩,hread,final,hfinal,hagain⟩
    refine ⟨⟨ready,hready,?_⟩,rfl,rfl⟩
    have hdispatch : Stateful.exec ((dispatch urlsplit operation params).alone (e.act browser)) 1 =
        (.ok (some page),1) := exec_dispatch_page.mpr ⟨rfl,hread⟩
    simp only [hmatches,hcdp,Bool.not_true,Bool.false_eq_true,if_false]
    rw [Program.alone_bind]
    apply exec_bind_eq_ok.mpr
    refine ⟨some page,1,hdispatch,probe_iff.mpr ⟨final,hfinal,?_⟩⟩
    simp only [hagain,Bool.not_true,Bool.false_eq_true,if_false,not_lt.mpr hlength]
    rfl

/-- A caught failure is not a page. -/
theorem exec_handlers (x : AgentError) (n : ℕ) : ∃ code,
    Stateful.exec ((handlers requestId x).alone (e.act browser)) n = (.ok (failure requestId code),n) := by
  cases x with
  | valueError message => exact ⟨_,rfl⟩
  | typeError => exact ⟨_,rfl⟩
  | browserUnavailable message => exact ⟨_,rfl⟩
  | other => exact ⟨_,rfl⟩

/-- The `try` keeps the replies with a page as they are. -/
theorem caught_page {reply : Reply} {page : Page} {n' : ℕ} :
    (Stateful.exec ((Program.tryCatch (operate urlsplit requestId operation params)
        (handlers requestId)).alone (e.act browser)) 0 = (.ok reply,n') ∧
      reply.status = .ok ∧ reply.page = some page) ↔
    (Stateful.exec ((operate urlsplit requestId operation params).alone (e.act browser)) 0 =
      (.ok reply,n') ∧ reply.status = .ok ∧ reply.page = some page) := by
  rw [Program.alone_tryCatch]
  rw [show Stateful.exec (MonadExcept.tryCatch _ _) 0 = _ from exec_tryCatch _ _ _]
  rcases Stateful.exec ((operate urlsplit requestId operation params).alone (e.act browser)) 0 with
    ⟨x | reply',n₁⟩
  · obtain ⟨code,hcode⟩ := @exec_handlers e browser requestId x n₁
    dsimp only
    rw [hcode]
    simp only [Prod.mk.injEq,reduceCtorEq,false_and,iff_false]
    rintro ⟨⟨h,-⟩,hstatus,-⟩
    cases h
    cases hstatus
  · rfl

theorem pageRead_allowed {c : BrowserCall} (h : pageRead operation params = some c) :
    operation ∈ allowedAgentOperations ∧ operation ∉ forbiddenAgentOperations := by
  unfold pageRead at h
  split at h
  · decide
  · decide
  · cases h

/-- Past the checks on the request, the reply is that of the operation under the `try`. -/
theorem exec_handleChecked {expected : Lease} (haddressed : request.principalId = expected.principalId ∧
      request.browserId = expected.browserId ∧ request.generation = expected.generation)
    (hoperation : request.operation = .str operation) (hallowed : operation ∈ allowedAgentOperations)
    (hforbidden : operation ∉ forbiddenAgentOperations) (hparams : request.params = .obj params) :
    handleChecked urlsplit request requestId expected =
      Program.tryCatch (operate urlsplit requestId operation params) (handlers requestId) := by
  simp [handleChecked,haddressed,hoperation,hallowed,hforbidden,hparams,Json.hashable]

/-- A reply with the status `ok` comes from an operation under the `try`. -/
theorem handleChecked_ok {expected : Lease} {reply : Reply} {n n' : ℕ} (hstatus : reply.status = .ok)
    (h : Stateful.exec ((handleChecked urlsplit request requestId expected).alone (e.act browser)) n =
      (.ok reply,n')) :
    (request.principalId = expected.principalId ∧ request.browserId = expected.browserId ∧
      request.generation = expected.generation) ∧ ∃ operation params,
      request.operation = .str operation ∧ request.params = .obj params ∧
      handleChecked urlsplit request requestId expected =
        Program.tryCatch (operate urlsplit requestId operation params) (handlers requestId) := by
  rw [handleChecked] at h
  split at h
  · cases h
    cases hstatus
  · rename_i haddressed
    push Not at haddressed
    split at h
    · cases h
    · split at h
      · rename_i operation hoperation
        split at h
        · cases h
          cases hstatus
        · rename_i hforbidden
          split at h
          · cases h
            cases hstatus
          · rename_i hallowed
            split at h
            · rename_i params hparams
              refine ⟨haddressed,operation,params,hoperation,hparams,?_⟩
              exact exec_handleChecked haddressed hoperation (not_not.mp hallowed) hforbidden hparams
            · cases h
              cases hstatus
      · cases h
        cases hstatus

theorem exec_act_expected (n : ℕ) :
    Stateful.exec (e.act browser .expected) n = (.ok e.expected,n) := rfl

/-- The replies with a page are those of the page reads that go through. -/
theorem handle_page {reply : Reply} {page : Page} :
    (e.reply browser urlsplit request = .ok reply ∧ reply.status = .ok ∧ reply.page = some page) ↔
      e.Passes browser request page ∧ ∃ requestId, request.requestId = .str requestId ∧
        reply = { requestId := requestId, status := .ok, page := some page } := by
  rw [Encounter.reply,handle]
  constructor
  · rintro ⟨h,hstatus,hpage⟩
    split at h
    · cases h
      cases hstatus
    · rename_i hid
      push Not at hid
      rcases hexec : Stateful.exec ((perform .expected >>= fun expected =>
        handleChecked urlsplit request (request.requestId.asString.getD "") expected).alone
          (e.act browser)) 0 with ⟨r,n'⟩
      rw [hexec] at h
      dsimp only at h
      subst h
      rw [Program.alone_bind,Program.alone_perform] at hexec
      obtain ⟨expected,n₁,hexpected,hexec⟩ := exec_bind_eq_ok.mp hexec
      cases hexpected
      obtain ⟨haddressed,operation,params,hoperation,hparams,heq⟩ := handleChecked_ok hstatus hexec
      rw [heq] at hexec
      obtain ⟨-,hreply,hlength,hbefore,⟨c,hread,hanswer⟩,hafter⟩ :=
        operate_page.mp (caught_page.mp ⟨hexec,hstatus,hpage⟩)
      cases hrequest : request.requestId with
      | str s =>
        simp only [hrequest,Json.asString,Option.getD_some] at hid hlength hreply
        exact ⟨⟨⟨s,hrequest,hid.1,hid.2,hlength⟩,haddressed,hbefore,
          ⟨operation,params,c,hoperation,hparams,hread,hanswer⟩,hafter⟩,s,rfl,hreply⟩
      | _ => simp [hrequest,Json.asString] at hid
  · rintro ⟨⟨⟨requestId,hrequest,hempty,hlong,hlength⟩,haddressed,hbefore,
      ⟨operation,params,c,hoperation,hparams,hread,hanswer⟩,hafter⟩,requestId',hrequest',rfl⟩
    rw [hrequest] at hrequest'
    cases hrequest'
    refine ⟨?_,rfl,rfl⟩
    simp only [hrequest,Json.asString,Option.getD_some]
    rw [if_neg (by simp [hempty,hlong])]
    obtain ⟨hallowed,hforbidden⟩ := pageRead_allowed hread
    have hcaught := (@caught_page e browser urlsplit requestId operation params _ _ _).mpr (operate_page.mpr ⟨rfl,rfl,hlength,hbefore,
      ⟨c,hread,hanswer⟩,hafter⟩)
    rw [Program.alone_bind,Program.alone_perform,exec_bind,exec_act_expected]
    dsimp only
    rw [exec_handleChecked haddressed hoperation hallowed hforbidden hparams,hcaught.1]

end Spec

/-- The assembled service is redacted exactly where every page read that goes through was clean
already in the sidecar's answer. -/
theorem redacted_iff (e : Encounter) (urlsplit : String → Except Unit SplitResult)
    (request : AgentControlRequest) :
    e.Redacted httpAgentBrowser urlsplit request ↔
      ∀ page, e.Passes httpAgentBrowser request page → page.Clean urlsplit := by
  constructor
  · intro h page hpasses
    obtain ⟨requestId,hrequest,-⟩ := hpasses.id
    obtain ⟨hreply,hstatus,hpage⟩ := handle_page.mpr ⟨hpasses,requestId,hrequest,rfl⟩
    exact h _ page hreply hstatus hpage
  · intro h reply page hreply hstatus hpage
    exact h page (handle_page.mp ⟨hreply,hstatus,hpage⟩).1

/-- A sidecar that is ready for its owner and shows a page with the given title and text. -/
def Encounter.showing (lease : Lease) (title text : String) : Encounter where
  expected := lease
  probe _ := .ok (.obj [("owner",.str lease.principalId),("generation",.str lease.generation),
    ("cdp_ok",.bool true)])
  pinned _ := (lease.principalId,lease.generation)
  lease _ := (lease.principalId,lease.generation)
  request _ := .ok (.obj [("url",.str "https://example.com/"),("title",.str title),("text",.str text)])

/-- The owner reads the page in her first tab. -/
def pageInfoRequest (lease : Lease) : AgentControlRequest where
  requestId := .str "r1"
  principalId := lease.principalId
  browserId := lease.browserId
  generation := lease.generation
  operation := .str "page_info"
  params := .obj [("target_tab_id",.str "tab-1")]

/-- `urlsplit` of the address shown. -/
def exampleUrlsplit (_ : String) : Except Unit SplitResult :=
  .ok ⟨"https","example.com","/","","",none,none⟩

/-- The text of a page reaches the agent with the password in it. -/
theorem password_shown : ¬∀ (e : Encounter) (urlsplit : String → Except Unit SplitResult)
    (request : AgentControlRequest), e.Redacted httpAgentBrowser urlsplit request := by
  intro h
  have hreply : (Encounter.showing aliceLease "Welcome" "password=hunter2").reply httpAgentBrowser
      exampleUrlsplit (pageInfoRequest aliceLease) =
      .ok { requestId := "r1", status := .ok,
            page := some (.state "https://example.com/" "Welcome" "password=hunter2") } := by
    decide +kernel
  have hclean := h _ _ _ _ _ hreply rfl rfl
  have hmarker : containsSensitiveMarker "password=hunter2" = true := by decide +kernel
  simp [Page.Clean,hmarker] at hclean

/-! ### With the restricted browser -/

section Restricted
variable {urlsplit : String → Except Unit SplitResult}

theorem safeObservedUrl_plain {url : String} (h : safeObservedUrl urlsplit url = .ok true) :
    PlainUrl urlsplit url := by
  intro parsed hparsed
  simp only [safeObservedUrl,safeNavigationUrl,hparsed,Except.map,Except.ok.injEq,Bool.and_eq_true,
    decide_eq_true_eq] at h
  exact ⟨h.2,h.1.2⟩

theorem pageState_clean {url title text : String} {page : Page}
    (h : pageState urlsplit url title text = .ok page) : page.Clean urlsplit := by
  obtain ⟨safe,hsafe,h⟩ := bind_ok h
  split at h
  · cases h
  · rename_i hurl
    split at h
    · cases h
    · split at h
      · cases h
      · rename_i htitle
        split at h
        · cases h
        · split at h
          · cases h
          · rename_i htext
            cases h
            have htrue : safe = true := by
              simp only [not_or,Bool.not_eq_true,Bool.not_eq_false'] at hurl
              exact hurl.1
            subst htrue
            exact ⟨safeObservedUrl_plain hsafe,by simpa using htitle,by simpa using htext⟩

theorem restrictedTab_clean {tab tab' : Tab} (h : restrictedTab urlsplit tab = .ok tab') :
    PlainUrl urlsplit tab'.url ∧ containsSensitiveMarker tab'.title = false := by
  unfold restrictedTab at h
  split at h
  · cases h
  · obtain ⟨safe,hsafe,h⟩ := bind_ok h
    split at h
    · cases h
    · rename_i hclean
      cases h
      simp only [Bool.or_eq_true,Bool.not_eq_true',not_or,Bool.not_eq_false,Bool.not_eq_true] at hclean
      obtain ⟨rfl,htitle⟩ := hclean
      exact ⟨safeObservedUrl_plain hsafe,htitle⟩

/-- Every page of a listing went through the check. -/
theorem mapM_restrictedTab {pages pages' : List Tab}
    (h : pages.mapM (restrictedTab urlsplit) = .ok pages') : (Page.tabs pages').Clean urlsplit := by
  induction pages generalizing pages' with
  | nil =>
    cases h
    simp [Page.Clean]
  | cons tab pages ih =>
    rw [List.mapM_cons] at h
    obtain ⟨tab',htab,h⟩ := bind_ok h
    obtain ⟨rest,hrest,h⟩ := bind_ok h
    cases h
    have hclean := ih hrest
    have hhead := restrictedTab_clean htab
    simp only [Page.Clean,List.mem_cons,forall_eq_or_imp] at hclean ⊢
    exact ⟨hhead,hclean⟩

theorem restrictedAgentBrowser_clean {result : Option Page} {page : Page}
    (h : restrictedAgentBrowser urlsplit result = .ok (some page)) : page.Clean urlsplit := by
  cases result with
  | none => cases h
  | some result =>
    cases result with
    | state url title text =>
      cases hstate : pageState urlsplit url title text with
      | error x => simp [restrictedAgentBrowser,hstate,Except.map] at h
      | ok page' =>
        simp only [restrictedAgentBrowser,hstate,Except.map,Except.ok.injEq,Option.some.injEq] at h
        subst h
        exact pageState_clean hstate
    | tabs pages =>
      simp only [restrictedAgentBrowser] at h
      split at h
      · cases h
      · cases hpages : pages.mapM (restrictedTab urlsplit) with
        | error x => simp [hpages,Except.map] at h
        | ok pages' =>
          simp only [hpages,Except.map,Except.ok.injEq,Option.some.injEq] at h
          subst h
          exact mapM_restrictedTab hpages

/-- Around the restricted browser the service would be redacted. -/
theorem restricted_redacted (e : Encounter) (request : AgentControlRequest) :
    e.Redacted (fun c raw => httpAgentBrowser c raw >>= restrictedAgentBrowser urlsplit) urlsplit
      request := by
  intro reply page hreply hstatus hpage
  obtain ⟨operation,params,c,-,-,-,hanswer⟩ := (handle_page.mp ⟨hreply,hstatus,hpage⟩).1.read
  obtain ⟨raw,-,hanswer⟩ := bind_ok hanswer
  obtain ⟨result,-,hanswer⟩ := bind_ok hanswer
  exact restrictedAgentBrowser_clean hanswer

end Restricted

end AgentControl
end CloudBrowser
