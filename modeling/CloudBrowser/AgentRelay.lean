import CloudBrowser.AgentAssembly
import CloudBrowser.CredentialLogin
import CloudBrowser.JsonDumps

/-! The relay of page actions: the router forwards a request to the agent-control service of the
slot that the caller's session holds, and hands back what it keeps of the reply. -/
namespace CloudBrowser
namespace AgentControl

open Stateful

def ReplyStatus.value : ReplyStatus → String
  | .ok => "ok"
  | .failed => "failed"
  | .unsupported => "unsupported"

def Tab.json (tab : Tab) : Json :=
  .obj [("tab_id",.str tab.tabId),("url",.str tab.url),("title",.str tab.title)]

def Page.json : Page → Json
  | .state url title text => .obj [("url",.str url),("title",.str title),("text",.str text)]
  | .tabs pages => .arr (pages.map Tab.json)

def Reply.json (r : Reply) : Json :=
  .obj (("request_id",.str r.requestId) :: ("status",.str r.status.value) ::
    ((r.errorCode.map fun code => ("error_code",Json.str code)).toList ++
      (r.page.map fun page => ("page",page.json)).toList))

section Sending

open Json (Plain encode encodeItems encodeFields encodeField)

variable (repr : ℚ → List Char)

/-- `_send_json`. -/
def sendJson (payload : Json) : Bytes := Text.encodeUtf8 (Json.dumps repr payload)

variable {repr}

theorem plain_tab (tab : Tab) : Plain tab.json := by
  refine .obj _ ?_ (by simp)
  simp only [List.mem_cons,List.not_mem_nil,or_false,forall_eq_or_imp,forall_eq]
  exact ⟨.str _,.str _,.str _⟩

theorem plain_page (page : Page) : Plain page.json := by
  cases page with
  | state url title text =>
    refine .obj _ ?_ (by simp)
    simp only [List.mem_cons,List.not_mem_nil,or_false,forall_eq_or_imp,forall_eq]
    exact ⟨.str _,.str _,.str _⟩
  | tabs pages =>
    refine .arr _ fun v hv => ?_
    obtain ⟨tab,-,rfl⟩ := List.mem_map.mp hv
    exact plain_tab tab

theorem plain_reply (reply : Reply) : Plain reply.json := by
  obtain ⟨requestId,status,errorCode,page⟩ := reply
  refine .obj _ ?_ ?_
  · intro f hf
    simp only [List.mem_cons,List.mem_append,Option.mem_toList,Option.map_eq_some_iff] at hf
    rcases hf with rfl | rfl | ⟨code,-,rfl⟩ | ⟨page,-,rfl⟩
    · exact .str _
    · exact .str _
    · exact .str _
    · exact plain_page page
  · cases errorCode <;> cases page <;> simp

theorem length_tabs (pages : List Tab) : (encodeItems repr (pages.map Tab.json)).length =
    (pages.map fun p => 28 + Json.dumpedLength p.tabId + Json.dumpedLength p.url +
      Json.dumpedLength p.title).sum := by
  induction pages with
  | nil => rfl
  | cons tab pages ih =>
    simp only [List.map_cons,encodeItems,Tab.json,encode,encodeField,encodeFields,List.cons_append,
      List.length_cons,List.length_append,ih,List.sum_cons,Json.dumpedLength]
    simp only [show (Json.dumpString "tab_id").length = 8 from rfl,
      show (Json.dumpString "url").length = 5 from rfl,
      show (Json.dumpString "title").length = 7 from rfl,List.length_nil]
    omega

theorem length_page (page : Page) : (encode repr page.json).length = page.dumpedLength := by
  cases page with
  | state url title text =>
    simp only [Page.json,encode,encodeField,encodeFields,List.cons_append,List.length_cons,
      List.length_append,Page.dumpedLength,Json.dumpedLength]
    simp only [show (Json.dumpString "url").length = 5 from rfl,
      show (Json.dumpString "title").length = 7 from rfl,
      show (Json.dumpString "text").length = 6 from rfl,List.length_nil]
    omega
  | tabs pages =>
    cases pages with
    | nil => rfl
    | cons tab pages =>
      have hitems := @length_tabs repr (tab::pages)
      have hsum : ((tab::pages).map fun p => 28 + Json.dumpedLength p.tabId +
          Json.dumpedLength p.url + Json.dumpedLength p.title).sum = (tab::pages).length +
          ((tab::pages).map fun p => 27 + Json.dumpedLength p.tabId + Json.dumpedLength p.url +
            Json.dumpedLength p.title).sum := by
        generalize tab::pages = pages
        induction pages with
        | nil => rfl
        | cons p pages ih =>
          simp only [List.map_cons,List.sum_cons,List.length_cons,ih]
          omega
      rw [hsum] at hitems
      simp only [List.map_cons,encodeItems,List.cons_append,List.length_cons,
        List.length_append] at hitems
      simp only [Page.json,List.map_cons,encode,List.cons_append,List.length_cons,
        List.length_append,List.length_nil,Page.dumpedLength]
      omega

/-- The text of a successful reply is as long as the service has measured it to be. -/
theorem length_reply (requestId : String) (page : Page) :
    (encode repr (Reply.json { requestId := requestId, status := .ok, page := some page })).length =
      okLength requestId (some page) := by
  have hpage := @length_page repr page
  simp only [Reply.json,Option.map_none,Option.map_some,Option.toList_none,Option.toList_some,
    List.nil_append,encode,encodeField,encodeFields,List.cons_append,List.length_cons,
    List.length_append,hpage,okLength,Json.dumpedLength,ReplyStatus.value]
  simp only [show (Json.dumpString "request_id").length = 12 from rfl,
    show (Json.dumpString "status").length = 8 from rfl,
    show (Json.dumpString "ok").length = 4 from rfl,
    show (Json.dumpString "page").length = 6 from rfl,List.length_nil]
  omega

theorem length_sendJson {v : Json} (h : Plain v) :
    (sendJson repr v).length = (encode repr v).length := by
  rw [sendJson,Text.length_encodeUtf8,Json.dumps,Text.utf8Length_ofList,Json.byteSize_encode h]

theorem loads_sendJson {v : Json} (h : Plain v) :
    (Text.decodeUtf8 (sendJson repr v)).bind Json.loads = some v := by
  rw [sendJson,Text.decodeUtf8_encodeUtf8,Option.bind_some,Json.loads_dumps h]

end Sending

/-- What kind of page a call of the browser gives, where it gives one. -/
def BrowserCall.Yields : BrowserCall → Page → Prop
  | .pageInfo _ _, .state _ _ _ => True
  | .listPages, .tabs _ => True
  | _, _ => False

/-- A browser whose reads give pages of their own kind. -/
structure PageBrowser where
  run : Browser
  yields : ∀ c raw page, run c raw = .ok (some page) → c.Yields page

theorem httpAgentBrowser_yields (c : BrowserCall) (raw : Json) (page : Page)
    (h : httpAgentBrowser c raw = .ok (some page)) : c.Yields page := by
  cases c with
  | pageInfo tab selector =>
    simp only [httpAgentBrowser,httpPageInfo] at h
    split at h
    · split at h
      · split at h
        · cases h
        · cases h
          trivial
      · cases h
    · cases h
  | listPages =>
    simp only [httpAgentBrowser] at h
    cases hlist : httpListPages raw with
    | error x =>
      rw [hlist] at h
      cases h
    | ok pages =>
      rw [hlist] at h
      cases h
      trivial
  | navigate tab url =>
    simp only [httpAgentBrowser] at h
    cases hack : expectOk raw <;> simp [hack,Except.map] at h
  | click tab selector =>
    simp only [httpAgentBrowser] at h
    cases hack : expectOk raw <;> simp [hack,Except.map] at h
  | typeText tab selector text =>
    simp only [httpAgentBrowser] at h
    cases hack : expectOk raw <;> simp [hack,Except.map] at h

/-- The browser of the assembly. -/
def PageBrowser.http : PageBrowser := ⟨httpAgentBrowser,httpAgentBrowser_yields⟩

theorem restrictedAgentBrowser_yields {urlsplit : String → Except Unit SplitResult}
    {c : BrowserCall} {result : Option Page} {page : Page} (hresult : ∀ page, result = some page → c.Yields page)
    (h : restrictedAgentBrowser urlsplit result = .ok (some page)) : c.Yields page := by
  cases result with
  | none => cases h
  | some shown =>
    have hshown := hresult shown rfl
    cases shown with
    | state url title text =>
      cases hstate : pageState urlsplit url title text with
      | error x => simp [restrictedAgentBrowser,hstate,Except.map] at h
      | ok page' =>
        simp only [restrictedAgentBrowser,hstate,Except.map,Except.ok.injEq,Option.some.injEq] at h
        subst h
        obtain ⟨safe,-,hstate⟩ := bind_ok hstate
        split_ifs at hstate
        cases hstate
        exact hshown
    | tabs pages =>
      simp only [restrictedAgentBrowser] at h
      split at h
      · cases h
      · cases hpages : pages.mapM (restrictedTab urlsplit) with
        | error x => simp [hpages,Except.map] at h
        | ok pages' =>
          simp only [hpages,Except.map,Except.ok.injEq,Option.some.injEq] at h
          subst h
          cases c <;> exact hshown

/-- The browser of the assembly, behind the restricted one. -/
def PageBrowser.restricted (urlsplit : String → Except Unit SplitResult) : PageBrowser where
  run c raw := httpAgentBrowser c raw >>= restrictedAgentBrowser urlsplit
  yields c raw page h := by
    obtain ⟨result,hresult,h⟩ := bind_ok h
    apply restrictedAgentBrowser_yields _ h
    rintro page rfl
    exact httpAgentBrowser_yields c raw page hresult

end AgentControl

namespace RouterApi

open AgentControl Stateful
open RouterSessions (RouterSession)

inductive RelayError
  | invalid (message : String)
  | unavailable (message : String)
  /-- Whatever else a call raises. -/
  | other
  deriving DecidableEq

/-- `_SLOT_ID_RE.fullmatch`. -/
def validSlotId (slotId : String) : Bool :=
  match slotId.toList with
  | [] => false
  | c::cs => c.isAlphanum && cs.length ≤ 63 &&
      cs.all fun c => c.isAlphanum || c = '.' || c = '_' || c = '-'

/-- `_HttpJsonRequester`: its posts, and what they do to the state of the service. -/
structure Requester (σ : Type) where
  post : BrowserBinding → String → Op RelayError σ (ℕ × Bytes)
  postLease : String → Op RelayError σ (ℕ × Bytes)

structure AgentControlForwarder (σ : Type) where
  requesters : List (String × Requester σ)
  valid : ∀ r ∈ requesters, validSlotId r.1 = true

def AgentControlForwarder.knownSlots {σ : Type} (f : AgentControlForwarder σ) : List String :=
  f.requesters.map Prod.fst

section Forwarding

variable {σ : Type} (repr : ℚ → List Char)

def serializeBinding (binding : BrowserBinding) : Json :=
  .obj [("principal_id",.str binding.principalId),("profile_id",.str binding.profileId),
    ("browser_id",.str binding.browserId),("generation",.str binding.generation)]

/-- `json.dumps(body, separators=(",", ":"), sort_keys=True)`. -/
def dumpsSorted (body : Json) : String := String.ofList (Json.dump repr body)

def relayBody (requestId operation : String) (params : List (String × Json)) : String :=
  dumpsSorted repr (.obj [("request_id",.str requestId),("operation",.str operation),
    ("params",.obj params)])

/-- The posts of `forward`: a refused one is made again, once the lease has been rotated. -/
def Requester.relay (r : Requester σ) (binding : BrowserBinding) (body : String) :
    Op RelayError σ (ℕ × Bytes) := do
  let first ← r.post binding body
  if first.1 ≠ 401 then return first
  else do
    let lease ← r.postLease (dumpsSorted repr (.obj [("binding",serializeBinding binding)]))
    if lease.1 ≠ 200 then throw (.unavailable "agent-control refused the lease rotation")
    else r.post binding body

/-- What `forward` makes of an answer, of which no more than the bound and one byte is read. -/
def decodeAnswer (answer : ℕ × Bytes) : Except RelayError (List (String × Json)) :=
  let raw := answer.2.take (64*1024+1)
  if 64*1024 < raw.length then throw (.unavailable "agent-control response is too large")
  else match (Text.decodeUtf8 raw).bind Json.loads with
    | none => throw (.unavailable "agent-control returned invalid JSON")
    | some (.obj decoded) =>
      if 500 ≤ answer.1 then throw (.unavailable "agent-control request failed")
      else if answer.1 ∈ [400,401,404] then
        throw (.unavailable "agent-control refused the forwarded request")
      else return decoded
    | some _ => throw (.unavailable "agent-control returned a non-object response")

def AgentControlForwarder.forward (f : AgentControlForwarder σ) (slotId : String)
    (binding : BrowserBinding) (operation : String) (params : List (String × Json))
    (requestId : String) : Op RelayError σ (List (String × Json)) :=
  if !validSlotId slotId then throw (.invalid "slot_id is invalid")
  else if operation ∉ allowedAgentOperations then throw (.invalid "operation is not supported")
  else if !Text.bounded String.length 128 requestId then throw (.invalid "request_id is invalid")
  else if 8*1024 < (Json.encode repr (.obj params)).length then
    throw (.invalid "params are too large")
  else match f.requesters.lookup slotId with
    | none => throw (.invalid "slot is not configured")
    | some requester => do
      let answer ← requester.relay repr binding (relayBody repr requestId operation params)
      check (decodeAnswer answer)

structure AgentPayload where
  requestId : String
  status : String
  errorCode : Option String := none
  page : Option (List (String × Json)) := none

/-- What a call of `agent_action` returns, and the principal whose lease it renews. -/
structure AgentAnswer where
  code : ℕ
  payload : AgentPayload
  renewed : Option String := none

/-- `_envelope` with the status `failed`. -/
def refusal (code : ℕ) (requestId errorCode : String) : AgentAnswer :=
  ⟨code,{ requestId := requestId, status := "failed", errorCode := some errorCode },none⟩

/-- The part of a page that is handed back: the texts among the members of an object. -/
def keptPage : Json → Option (List (String × Json))
  | .obj fields => some (fields.filter fun f => f.2.asString.isSome)
  | _ => none

/-- The checks of `agent_action` on what the store has for the caller. -/
def activeSession (f : AgentControlForwarder σ) (found : Option (Option RouterSession)) :
    Except String (BrowserBinding × String) :=
  match found with
  | none => .error "lookup_failed"
  | some none => .error "session_not_found"
  | some (some session) =>
    if session.status ≠ .active then .error "session_not_found"
    else match session.binding, session.slotId with
    | some binding, some slotId =>
      if slotId ∈ f.knownSlots then .ok (binding,slotId) else .error "unknown_slot"
    | _, _ => .error "no_binding"

/-- What `agent_action` hands back of what `forward` came to. -/
def relayed (requestId principalId : String) :
    Except RelayError (List (String × Json)) → AgentAnswer
  | .error (.invalid _) => refusal 200 requestId "invalid_request"
  | .error _ => refusal 200 requestId "agent_unavailable"
  | .ok result =>
    match Json.get result "status" with
    | .str status =>
      ⟨200,{ requestId := requestId, status := status,
             page := keptPage (Json.get result "page") },some principalId⟩
    | _ => refusal 200 requestId "agent_unavailable"

/-- `agent_action`, for the caller's identity and what the store has for it (unless it raises). -/
def agentAction (forwarder : Option (AgentControlForwarder σ)) (operation : String)
    (body : List (String × Json)) (resolved : Option String)
    (lookup : String → Option (Option RouterSession)) : Op RelayError σ AgentAnswer :=
  match boundedText 128 (Json.get body "request_id"), resolved, forwarder with
  | none, _, _ => return refusal 200 "" "invalid_request"
  | some requestId, none, _ => return refusal 401 requestId "unauthorized"
  | some requestId, some _, none => return refusal 200 requestId "agent_unavailable"
  | some requestId, some principalId, some f =>
    if operation ∈ forbiddenAgentOperations then
      return refusal 200 requestId "capability_denied"
    else if operation ∉ allowedAgentOperations then
      return refusal 200 requestId "operation_not_supported"
    else match (body.lookup "params").getD (.obj []) with
    | .obj params =>
      if operation ≠ "tabs_list" ∧ boundedText 256 (Json.get params "target_tab_id") = none then
        return refusal 200 requestId "invalid_request"
      else match activeSession f (lookup principalId) with
      | .error code => return refusal 200 requestId code
      | .ok (binding,slotId) => do
        let result ← outcome (f.forward repr slotId binding operation params requestId)
        return relayed requestId principalId result
    | _ => return refusal 200 requestId "invalid_request"

end Forwarding

/-- A caller whose active session holds a slot that the forwarder knows. -/
structure ActiveCaller {σ : Type} (f : AgentControlForwarder σ) where
  principalId : String
  lookup : String → Option (Option RouterSession)
  session : RouterSession
  binding : BrowserBinding
  slotId : String
  requester : Requester σ
  found : lookup principalId = some (some session)
  active : session.status = .active
  bound : session.binding = some binding
  held : session.slotId = some slotId
  known : f.requesters.lookup slotId = some requester

/-- A body that names a request and its parameters. -/
structure RelayedRequest where
  requestId : String
  operation : String
  params : List (String × Json)
  body : List (String × Json)
  requestId_bounded : Text.bounded Text.utf8Length 128 requestId = true
  body_requestId : Json.get body "request_id" = .str requestId
  body_params : body.lookup "params" = some (.obj params)

/-- What `do_POST` of the agent-control service makes of the request. -/
def RelayedRequest.control (r : RelayedRequest) (binding : BrowserBinding) :
    AgentControlRequest where
  requestId := .str r.requestId
  principalId := binding.principalId
  browserId := binding.browserId
  generation := binding.generation
  operation := .str r.operation
  params := .obj r.params

section Relay

variable {σ : Type} {repr : ℚ → List Char} {f : AgentControlForwarder σ} {c : ActiveCaller f}
  {r : RelayedRequest}

/-- A text within a bound in bytes is within the same bound in characters. -/
theorem bounded_length {limit : ℕ} {s : String} (h : Text.bounded Text.utf8Length limit s = true) :
    Text.bounded String.length limit s = true := by
  simp only [Text.bounded,Bool.and_eq_true,decide_eq_true_eq] at h ⊢
  exact ⟨⟨h.1.1,(Text.length_le_utf8Length s).trans h.1.2⟩,h.2⟩

theorem lookup_mem {slotId : String} {requester : Requester σ}
    (h : f.requesters.lookup slotId = some requester) : (slotId,requester) ∈ f.requesters := by
  obtain ⟨l₁,l₂,hsplit,-⟩ := List.lookup_eq_some_iff.mp h
  simp [hsplit]

theorem activeSession_caller (c : ActiveCaller f) :
    activeSession f (c.lookup c.principalId) = .ok (c.binding,c.slotId) := by
  have hknown : c.slotId ∈ f.knownSlots := List.mem_map.mpr ⟨_,lookup_mem c.known,rfl⟩
  simp [activeSession,c.found,c.active,c.bound,c.held,hknown]

/-- The forwarder posts every request whose parameters are not too large. -/
theorem forward_caller (c : ActiveCaller f) (r : RelayedRequest)
    (hop : r.operation ∈ allowedAgentOperations)
    (hsize : (Json.encode repr (.obj r.params)).length ≤ 8*1024) :
    f.forward repr c.slotId c.binding r.operation r.params r.requestId =
      c.requester.relay repr c.binding (relayBody repr r.requestId r.operation r.params) >>=
        fun answer => check (decodeAnswer answer) := by
  have hslot : validSlotId c.slotId = true := f.valid _ (lookup_mem c.known)
  have hid := bounded_length r.requestId_bounded
  simp [AgentControlForwarder.forward,hslot,hop,hid,hsize,c.known]

/-- The router relays what its own bounds let through. -/
theorem agentAction_caller (c : ActiveCaller f) (r : RelayedRequest)
    (hop : r.operation ∈ allowedAgentOperations)
    (htarget : r.operation ≠ "tabs_list" →
      boundedText 256 (Json.get r.params "target_tab_id") ≠ none) :
    agentAction repr (some f) r.operation r.body (some c.principalId) c.lookup = do
      let result ← outcome (f.forward repr c.slotId c.binding r.operation r.params r.requestId)
      return relayed r.requestId c.principalId result := by
  have hid : boundedText 128 (Json.get r.body "request_id") = some r.requestId := by
    rw [r.body_requestId,boundedText,if_pos r.requestId_bounded]
  have hforbidden : r.operation ∉ forbiddenAgentOperations := by
    revert hop
    generalize r.operation = operation
    simp only [allowedAgentOperations,List.mem_cons,List.not_mem_nil,or_false]
    rintro (rfl | rfl | rfl | rfl | rfl) <;> decide
  have htarget' : ¬(r.operation ≠ "tabs_list" ∧
      boundedText 256 (Json.get r.params "target_tab_id") = none) := fun h => htarget h.1 h.2
  unfold agentAction
  rw [hid,r.body_params]
  dsimp only [Option.getD_some]
  rw [if_neg hforbidden,if_neg (not_not.mpr hop),if_neg htarget',activeSession_caller]

theorem decodeAnswer_sendJson {fields : List (String × Json)} (hplain : Json.Plain (.obj fields))
    (hlength : (Json.encode repr (.obj fields)).length ≤ 64*1024) :
    decodeAnswer (200,sendJson repr (.obj fields)) = .ok fields := by
  have hsent := @length_sendJson repr _ hplain
  have htake : (sendJson repr (.obj fields)).take (64*1024+1) = sendJson repr (.obj fields) :=
    List.take_of_length_le (by omega)
  simp only [decodeAnswer,htake,loads_sendJson hplain]
  rw [if_neg (by omega)]
  rfl

/-- What the caller gets for a successful reply with a page: the part of the page that is kept. -/
theorem exec_agentAction (c : ActiveCaller f) (r : RelayedRequest)
    (hop : r.operation ∈ allowedAgentOperations)
    (htarget : r.operation ≠ "tabs_list" →
      boundedText 256 (Json.get r.params "target_tab_id") ≠ none)
    (hsize : (Json.encode repr (.obj r.params)).length ≤ 8*1024) {s s' : σ} {page : Page}
    (hposted : Stateful.exec (c.requester.relay repr c.binding
      (relayBody repr r.requestId r.operation r.params)) s = (.ok (200,sendJson repr
        (Reply.json { requestId := r.requestId, status := .ok, page := some page })),s'))
    (hlength : okLength r.requestId (some page) ≤ 64*1024) :
    Stateful.exec (agentAction repr (some f) r.operation r.body (some c.principalId) c.lookup) s =
      (.ok ⟨200,{ requestId := r.requestId, status := "ok", page := keptPage page.json },
        some c.principalId⟩,s') := by
  have hplain := plain_reply { requestId := r.requestId, status := .ok, page := some page }
  have hdecoded := @decodeAnswer_sendJson repr _ hplain
    ((length_reply r.requestId page).trans_le hlength)
  have hforwarded : Stateful.exec (f.forward repr c.slotId c.binding r.operation r.params
      r.requestId) s = (.ok [("request_id",.str r.requestId),("status",.str "ok"),
        ("page",page.json)],s') := by
    rw [forward_caller c r hop hsize,exec_bind,hposted]
    dsimp only
    rw [exec_check]
    exact congrArg (·,s') hdecoded
  rw [agentAction_caller c r hop htarget,exec_bind,exec_outcome,hforwarded]
  rfl

/-- The operation that reads pages has a target, unless it lists the tabs. -/
theorem pageRead_target {operation : String} {params : List (String × Json)} {call : BrowserCall}
    (h : pageRead operation params = some call) (hop : operation ≠ "tabs_list") :
    boundedText 256 (Json.get params "target_tab_id") ≠ none := by
  unfold pageRead at h
  split at h
  · split at h
    · rename_i tab htab
      rw [htab,boundedText]
      split at h
      · cases h
      · rename_i hchecked
        rw [requireTargetTabId] at hchecked
        split at hchecked
        · rename_i hbounded
          simp [hbounded]
        · cases hchecked
    · cases h
  · exact absurd rfl hop
  · cases h

/-- Only the listing of the tabs gives tabs. -/
theorem pageRead_yields {operation : String} {params : List (String × Json)} {call : BrowserCall}
    {page : Page} (h : pageRead operation params = some call) (hpage : call.Yields page) :
    (∃ url title text, page = .state url title text) ↔ operation ≠ "tabs_list" := by
  have hkind : operation = "tabs_list" ↔ call = .listPages := by
    unfold pageRead at h
    split at h
    · have hcall : call ≠ .listPages := by
        rintro rfl
        split at h
        · split at h
          · cases h
          · split at h
            · cases h
            · obtain ⟨x,-,hx⟩ := Option.map_eq_some_iff.mp h
              cases hx
        · cases h
      simp [hcall]
    · cases h
      simp
    · cases h
  rw [Ne,hkind]
  cases call <;> cases page <;> simp_all [BrowserCall.Yields]

theorem kept_page_iff (page : Page) : (keptPage page.json).map Json.obj = some page.json ↔
    ∃ url title text, page = .state url title text := by
  cases page with
  | state url title text => simp [Page.json,keptPage,Json.asString]
  | tabs pages => simp [Page.json,keptPage]

/-- Among the replies with a page, the router hands back all of it exactly where the operation
is not the listing of the tabs. -/
theorem relayed_page_iff (c : ActiveCaller f) (r : RelayedRequest) (e : Encounter)
    (browser : PageBrowser) (urlsplit : String → Except Unit SplitResult) (s s' : σ)
    (reply : Reply) (page : Page)
    (hreply : e.reply browser.run urlsplit (r.control c.binding) = .ok reply)
    (hok : reply.status = .ok) (hpage : reply.page = some page)
    (hsize : (Json.encode repr (.obj r.params)).length ≤ 8*1024)
    (hposted : Stateful.exec (c.requester.relay repr c.binding
      (relayBody repr r.requestId r.operation r.params)) s =
        (.ok (200,sendJson repr reply.json),s')) :
    ∃ answer, Stateful.exec (agentAction repr (some f) r.operation r.body (some c.principalId)
      c.lookup) s = (.ok answer,s') ∧
      (answer.payload.page.map Json.obj = some page.json ↔ r.operation ≠ "tabs_list") := by
  obtain ⟨hpasses,requestId,hid,rfl⟩ := handle_page.mp ⟨hreply,hok,hpage⟩
  cases hid
  obtain ⟨_,hid,-,-,hlength⟩ := hpasses.id
  cases hid
  obtain ⟨operation,params,call,hoperation,hparams,hread,hanswer⟩ := hpasses.read
  cases hoperation
  cases hparams
  have hyields : call.Yields page := by
    cases hrequest : e.request call with
    | error x => simp [hrequest,Except.bind] at hanswer
    | ok raw =>
      rw [hrequest] at hanswer
      exact browser.yields call raw page hanswer
  refine ⟨_,exec_agentAction c r (pageRead_allowed hread).1 (pageRead_target hread) hsize hposted
    hlength,?_⟩
  rw [kept_page_iff,pageRead_yields hread hyields]

end Relay

/-! ### Alice, whose slot answers with one page -/

def noFloats (_ : ℚ) : List Char := []

def answering (page : Page) : Requester Unit where
  post _ _ := return (200,sendJson noFloats
    (Reply.json { requestId := "r1", status := .ok, page := some page }))
  postLease _ := return (200,[])

def oneSlot (page : Page) : AgentControlForwarder Unit where
  requesters := [("slot-1",answering page)]
  valid := by
    simp only [List.mem_singleton,forall_eq]
    decide

def relayedBinding : BrowserBinding := ⟨"profile-alice","alice","browser-1","generation-a"⟩

def relayedSession : RouterSession where
  sessionId := "s1"
  requestId := "r0"
  principalId := "alice"
  status := .active
  enqueuedAt := 0
  slotId := some "slot-1"
  binding := some relayedBinding

theorem lookup_always (session : RouterSession) (principalId : String) :
    (fun _ : String => some (some session)) principalId = some (some session) := rfl

theorem relayedSession_active : relayedSession.status = .active := rfl

theorem relayedSession_bound : relayedSession.binding = some relayedBinding := rfl

theorem relayedSession_held : relayedSession.slotId = some "slot-1" := rfl

def aliceCaller (page : Page) : ActiveCaller (oneSlot page) where
  principalId := "alice"
  lookup _ := some (some relayedSession)
  session := relayedSession
  binding := relayedBinding
  slotId := "slot-1"
  requester := answering page
  found := lookup_always relayedSession "alice"
  active := relayedSession_active
  bound := relayedSession_bound
  held := relayedSession_held
  known := rfl

def relayedRead (operation : String) (params : List (String × Json)) : RelayedRequest where
  requestId := "r1"
  operation := operation
  params := params
  body := [("request_id",.str "r1"),("params",.obj params)]
  requestId_bounded := by decide
  body_requestId := rfl
  body_params := rfl

def welcome : Page := .state "https://example.com/" "Welcome" "Hello"

theorem relayed_page_iff_welcome :
    ∃ answer, Stateful.exec (agentAction noFloats (some (oneSlot welcome)) "page_info"
      [("request_id",.str "r1"),("params",.obj [("target_tab_id",.str "tab-1")])] (some "alice")
      fun _ => some (some relayedSession)) () = (.ok answer,()) ∧
      (answer.payload.page.map Json.obj = some welcome.json ↔ "page_info" ≠ "tabs_list") := by
  have hreply : (Encounter.showing aliceLease "Welcome" "Hello").reply httpAgentBrowser
      exampleUrlsplit (pageInfoRequest aliceLease) =
      .ok { requestId := "r1", status := .ok, page := some welcome } := by
    decide +kernel
  exact relayed_page_iff (aliceCaller welcome)
    (relayedRead "page_info" [("target_tab_id",.str "tab-1")])
    (Encounter.showing aliceLease "Welcome" "Hello") .http exampleUrlsplit () () _ welcome hreply rfl
    rfl (by decide +kernel) rfl

/-- A sidecar that is ready for its owner and lists one tab. -/
def oneTab : Encounter :=
  { Encounter.showing aliceLease "Welcome" "Hello" with
    request := fun _ => .ok (.obj
      [("pages",.arr [Tab.json ⟨"tab-1","https://example.com/","Welcome"⟩])]) }

/-- The tabs that the service lists do not reach the caller. -/
theorem tabs_dropped : ¬∀ (σ : Type) (repr : ℚ → List Char) (f : AgentControlForwarder σ)
    (c : ActiveCaller f) (r : RelayedRequest) (e : Encounter) (browser : PageBrowser)
    (urlsplit : String → Except Unit SplitResult) (s s' : σ) (reply : Reply) (page : Page),
    e.reply browser.run urlsplit (r.control c.binding) = .ok reply → reply.status = .ok →
    reply.page = some page → (Json.encode repr (.obj r.params)).length ≤ 8*1024 →
    Stateful.exec (c.requester.relay repr c.binding
      (relayBody repr r.requestId r.operation r.params)) s =
        (.ok (200,sendJson repr reply.json),s') →
    ∃ answer, Stateful.exec (agentAction repr (some f) r.operation r.body (some c.principalId)
      c.lookup) s = (.ok answer,s') ∧ answer.payload.page.map Json.obj = some page.json := by
  intro h
  let page : Page := .tabs [⟨"tab-1","https://example.com/","Welcome"⟩]
  have hreply : oneTab.reply httpAgentBrowser exampleUrlsplit
      ((relayedRead "tabs_list" []).control relayedBinding) =
      .ok { requestId := "r1", status := .ok, page := some page } := by
    decide +kernel
  obtain ⟨answer,hanswer,hpage⟩ := h Unit noFloats (oneSlot page) (aliceCaller page)
    (relayedRead "tabs_list" []) oneTab .http exampleUrlsplit () () _ page hreply rfl rfl
    (by decide +kernel) rfl
  rw [exec_agentAction (aliceCaller page) (relayedRead "tabs_list" []) (by decide) (by decide)
    (by decide +kernel) rfl (by decide +kernel)] at hanswer
  cases hanswer
  exact absurd ((kept_page_iff page).mp hpage) (by simp [page])

end RouterApi
end CloudBrowser
