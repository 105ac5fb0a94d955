import CloudBrowser.PageRequests
import CloudBrowser.Latin1

/-! A page action on its whole way: from the viewer through the router to the agent-control service
of the slot, and from there to the browser sidecar. Each hop writes the request as JSON again. -/
namespace CloudBrowser

namespace AgentControl

open Stateful Interleave
open BrowserSidecar (pageRequest queryAllowed readPageRequest)
open RouterApi (RelayError Requester dumpsSorted)

/-- The agent-control service of one slot: its lease, the requests that `handle` was called with,
and the page actions that the sidecar has read. -/
structure Backend where
  lease : Lease
  handled : List AgentControlRequest := []
  received : List BrowserCall := []

/-- What is left open: the readiness that a probe finds, and what the sidecar answers. -/
structure Surroundings where
  probe : List BrowserCall → Except AgentError BrowserReadiness
  answer : BrowserCall → Except AgentError Json

section Serving

variable (repr : ℚ → List Char) (w : Surroundings) (browser : Browser)
  (urlsplit : String → Except Unit SplitResult)

/-- A call of `HttpAgentBrowserTransport`, up to the answer of the sidecar. -/
def sendPageAction (c : BrowserCall) : Op AgentError Backend BrowserCall :=
  if !queryAllowed (pageRequest repr c) then
    throw (.valueError "path must be a simple relative API path")
  else match readPageRequest (pageRequest repr c) with
    | .error _ => throw (.browserUnavailable "browser API is unavailable")
    | .ok c' => do
      modify fun s => { s with received := s.received ++ [c'] }
      return c'

def act : (a : Action) → Op AgentError Backend (Answer a)
  | .expected => do return (← get).lease
  | .readiness => do check (w.probe (← get).received)
  | .current => do
    let s ← get
    return (s.lease.principalId,s.lease.generation)
  | .browser c => do
    let c' ← sendPageAction repr c
    check ((w.answer c').bind (browser c))

/-- `_matches_binding_headers`; the fields of the lease are bounded. -/
def matchesBinding (binding : BrowserBinding) (lease : Lease) : Bool :=
  binding.principalId = lease.principalId && binding.browserId = lease.browserId &&
    binding.generation = lease.generation

/-- What `do_POST` makes of a body, where it raises nothing. -/
def readRequest (binding : BrowserBinding) (body : Bytes) : Option AgentControlRequest :=
  if body.length = 0 ∨ 8192 < body.length then none
  else match (Text.decodeUtf8 body).bind Json.loads with
    | some (.obj raw) =>
      match raw.lookup "request_id", raw.lookup "operation", raw.lookup "params" with
      | some requestId, some operation, some params =>
        some ⟨requestId,binding.principalId,binding.browserId,binding.generation,operation,params⟩
      | _, _, _ => none
    | _ => none

def unauthorized : Json := .obj [("status",.str "failed"),("error_code",.str "unauthorized")]

def invalidRequest : Json := .obj [("status",.str "failed"),("error_code",.str "invalid_request")]

/-- `POST /agent-control/v1`, with the trusted secret and the binding of a session. -/
def doPost (binding : BrowserBinding) (body : Bytes) : Op RelayError Backend (ℕ × Bytes) := do
  if !matchesBinding binding (← get).lease then return (401,sendJson repr unauthorized)
  else match readRequest binding body with
    | none => return (200,sendJson repr (Reply.json (failure "" "invalid_request")))
    | some request => do
      modify fun s => { s with handled := s.handled ++ [request] }
      let reply ← rethrow (fun _ => .other)
        (outcome ((handle urlsplit request).alone (act repr w browser)))
      match reply with
      | .ok reply => return (200,sendJson repr reply.json)
      | .error _ => return (200,sendJson repr (Reply.json (failure "" "invalid_request")))

/-- The lease that a rotation asks for. -/
def readLease (body : Bytes) : Option Lease :=
  if body.length = 0 ∨ 4096 < body.length then none
  else match (Text.decodeUtf8 body).bind Json.loads with
    | some (.obj raw) =>
      match Json.get raw "binding" with
      | .obj fields =>
        match BrowserSidecar.hasExactly ["principal_id","profile_id","browser_id","generation"]
            fields, Json.get fields "principal_id", Json.get fields "browser_id",
            Json.get fields "generation" with
        | true, .str principalId, .str browserId, .str generation =>
          (Lease.build principalId browserId generation).toOption
        | _, _, _, _ => none
      | _ => none
    | _ => none

/-- `POST /agent-control/lease`, with the trusted secret. -/
def handleLease (body : Bytes) : Op RelayError Backend (ℕ × Bytes) :=
  match readLease body with
  | none => return (400,sendJson repr invalidRequest)
  | some lease => do
    modify fun s => { s with lease := lease }
    return (200,sendJson repr (.obj [("status",.str "ok")]))

/-- What is left of a header's value on its way: it travels in Latin-1, and its leading blanks go. -/
def sentHeader (value : String) : Option String :=
  if value.toList.all Text.isLatin1 then
    some (String.ofList (value.toList.dropWhile fun c => c = ' ' || c = '\t'))
  else none

/-- The binding of a request, as its headers carry it. -/
def sentBinding (binding : BrowserBinding) : Option BrowserBinding := do
  let principalId ← sentHeader binding.principalId
  let browserId ← sentHeader binding.browserId
  let generation ← sentHeader binding.generation
  return ⟨binding.profileId,principalId,browserId,generation⟩

/-- The requester of the slot's service. -/
def serviceRequester : Requester Backend where
  post binding body :=
    match sentBinding binding with
    | none => throw .other
    | some sent => doPost repr w browser urlsplit sent (Text.encodeUtf8 body)
  postLease body := handleLease repr (Text.encodeUtf8 body)

end Serving

section Accepted

variable {urlsplit : String → Except Unit SplitResult} {operation : String}
  {params params' : List (String × Json)} {c : BrowserCall}

/-- The service only reads its parameters by their names. -/
theorem dispatch_congr (h : ∀ name, Json.get params name = Json.get params' name) :
    dispatch urlsplit operation params = dispatch urlsplit operation params' := by
  unfold dispatch
  simp only [h]

/-- The parameters of a page action, as the service takes them. -/
inductive Accepts (params : List (String × Json)) : String → BrowserCall → Prop
  | pageInfo (tab : String) (selector : Option String)
      (target : Json.get params "target_tab_id" = .str tab)
      (valid : Text.bounded Text.utf8Length 256 tab = true)
      (given : Json.get params "selector" = (selector.map Json.str).getD .null)
      (short : ∀ s, selector = some s → Text.utf8Length s ≤ 512) :
      Accepts params "page_info" (.pageInfo tab selector)
  | tabsList : Accepts params "tabs_list" .listPages
  | navigate (tab url : String) (target : Json.get params "target_tab_id" = .str tab)
      (valid : Text.bounded Text.utf8Length 256 tab = true)
      (given : Json.get params "url" = .str url) : Accepts params "navigate" (.navigate tab url)
  | click (tab selector : String) (target : Json.get params "target_tab_id" = .str tab)
      (valid : Text.bounded Text.utf8Length 256 tab = true)
      (given : Json.get params "selector" = .str selector) (full : selector ≠ "") :
      Accepts params "click" (.click tab selector)
  | typeText (tab selector text : String) (target : Json.get params "target_tab_id" = .str tab)
      (valid : Text.bounded Text.utf8Length 256 tab = true)
      (given : Json.get params "selector" = .str selector)
      (typed : Json.get params "text" = .str text) (full : text ≠ "") :
      Accepts params "type" (.typeText tab selector text)

theorem requireTargetTabId_ok {tab : String} (h : requireTargetTabId tab = .ok ()) :
    Text.bounded Text.utf8Length 256 tab = true := by
  rw [requireTargetTabId] at h
  split at h
  · assumption
  · cases h

theorem requireSelector_ok {v : Json} {selector : String} (h : requireSelector v = .ok selector) :
    v = .str selector ∧ selector ≠ "" ∧ Text.utf8Length selector ≤ 512 := by
  cases v with
  | str s =>
    simp only [requireSelector] at h
    split at h
    · rename_i hs
      cases h
      exact ⟨rfl,hs⟩
    · cases h
  | _ => cases h

/-- A check in front of a call of the browser has been passed. -/
theorem upcoming_checked {α β : Type} {r : Except AgentError α} {f : α → Call β} {a : Action}
    (h : (Program.ofExcept r >>= f).upcoming = some a) :
    ∃ x, r = .ok x ∧ (f x).upcoming = some a ∧ Program.ofExcept r >>= f = f x := by
  cases r with
  | error e => cases h
  | ok x => exact ⟨x,rfl,h,rfl⟩

/-- The operation is a call of the browser and nothing else. -/
def CallsOnce (p : Call (Option Page)) (c : BrowserCall) : Prop :=
  p = perform (.browser c) ∨ p = perform (.browser c) >>= fun _ => pure none

/-- An operation that calls the browser has passed its checks, and calls it once. -/
theorem dispatch_accepts (h : (dispatch urlsplit operation params).upcoming = some (.browser c)) :
    Accepts params operation c ∧ CallsOnce (dispatch urlsplit operation params) c := by
  unfold dispatch at h ⊢
  split at h
  · split at h
    · rename_i tab htab
      obtain ⟨_,hchecked,h,heq⟩ := upcoming_checked h
      rw [heq]
      split at h
      · rename_i hnone
        cases h
        exact ⟨.pageInfo tab none htab (requireTargetTabId_ok hchecked) hnone nofun,.inl rfl⟩
      · obtain ⟨selector,hselector,h,heq⟩ := upcoming_checked h
        cases h
        obtain ⟨hgiven,-,hshort⟩ := requireSelector_ok hselector
        refine ⟨.pageInfo tab (some selector) htab (requireTargetTabId_ok hchecked) hgiven
          (by rintro s ⟨⟩; exact hshort),.inl ?_⟩
        exact heq
    · cases h
  · cases h
    exact ⟨.tabsList,.inl rfl⟩
  · split at h
    · rename_i tab url htab hurl
      obtain ⟨_,hchecked,h,heq⟩ := upcoming_checked h
      obtain ⟨safe,hsafe,h,heq'⟩ := upcoming_checked h
      rw [heq,heq']
      split at h
      · cases h
      · rename_i hs
        cases h
        exact ⟨.navigate tab url htab (requireTargetTabId_ok hchecked) hurl,.inr (if_neg hs)⟩
    · cases h
  · split at h
    · rename_i tab htab
      obtain ⟨_,hchecked,h,heq⟩ := upcoming_checked h
      obtain ⟨selector,hselector,h,heq'⟩ := upcoming_checked h
      cases h
      obtain ⟨hgiven,hfull,-⟩ := requireSelector_ok hselector
      refine ⟨.click tab selector htab (requireTargetTabId_ok hchecked) hgiven hfull,.inr ?_⟩
      rw [heq,heq']
    · cases h
  · split at h
    · rename_i tab htab
      obtain ⟨_,hchecked,h,heq⟩ := upcoming_checked h
      obtain ⟨selector,hselector,h,heq'⟩ := upcoming_checked h
      obtain ⟨hgiven,-,-⟩ := requireSelector_ok hselector
      rw [heq,heq']
      split at h
      · cases h
      · rename_i hsensitive
        split at h
        · rename_i text htext
          split at h
          · cases h
          · rename_i hvalid
            cases h
            refine ⟨.typeText tab selector text htab (requireTargetTabId_ok hchecked) hgiven htext
              fun hempty => hvalid (.inl hempty),.inr ?_⟩
            rw [if_neg hsensitive]
            exact if_neg hvalid
        · cases h
    · cases h
  · cases h

end Accepted

end AgentControl

namespace RouterApi

open AgentControl Stateful
open RouterSessions (RouterSession)

/-- `_read_body`, where it raises nothing. -/
def readBody (body : Bytes) : Option (List (String × Json)) :=
  if 4096 < body.length then none
  else if body.length = 0 then some []
  else match (Text.decodeUtf8 body).bind Json.loads with
    | some (.obj fields) => some fields
    | _ => none

/-- `POST /v1/agent/…`: a body that cannot be read counts as an empty one. -/
def postAgent {σ : Type} (repr : ℚ → List Char) (forwarder : Option (AgentControlForwarder σ))
    (operation : String) (body : Bytes) (resolved : Option String)
    (lookup : String → Option (Option RouterSession)) : Op RelayError σ AgentAnswer :=
  agentAction repr forwarder operation ((readBody body).getD []) resolved lookup

end RouterApi

namespace ViewerSessionSurface

open AgentControl Stateful
open RouterApi (RelayError AgentAnswer)

/-- The bounds of `_agent_params_valid`, in bytes. -/
def agentLimits : String → List (String × ℕ)
  | "navigate" => [("target_tab_id",256),("url",2048)]
  | "click" => [("target_tab_id",256),("selector",512)]
  | "type" => [("target_tab_id",256),("selector",512),("text",4096)]
  | "page_info" => [("target_tab_id",256),("selector",512)]
  | _ => []

def paramAllowed (limits : List (String × ℕ)) (param : String × Json) : Bool :=
  match limits.lookup param.1, param.2 with
  | some limit, .str s => Text.utf8Length s ≤ limit
  | _, _ => false

/-- `_agent_params_valid`; `urlsplit` may raise. -/
def agentParamsValid (urlsplit : String → Except Unit SplitResult) (operation : String)
    (params : List (String × Json)) : Except Unit Bool :=
  if operation ≠ "tabs_list" ∧ params.lookup "target_tab_id" = none then .ok false
  else if !params.all (paramAllowed (agentLimits operation)) then .ok false
  else if operation = "navigate" then do
    let parsed ← urlsplit ((Json.get params "url").asString.getD "")
    return (parsed.scheme = "http" || parsed.scheme = "https") && parsed.netloc ≠ "" &&
      parsed.username.getD "" = "" && parsed.password.getD "" = ""
  else .ok true

/-- What the viewer answers: `{"ok": false, …}` of its own, or what the router has answered. -/
inductive SurfaceAnswer
  | refused (code : ℕ) (requestId errorCode : String)
  | relayed (answer : AgentAnswer)

/-- The body that `RouterHttpClient` posts. -/
def agentBody (requestId : String) (params : List (String × Json)) : Json :=
  .obj [("request_id",.str requestId),("params",.obj params)]

/-- `ViewerSessionSurface.agent`: `principal` is the caller that the viewer has resolved, and
`postAgent` the router behind its client. -/
def agent {σ : Type} (repr : ℚ → List Char) (urlsplit : String → Except Unit SplitResult)
    (postAgent : String → Bytes → Op RelayError σ AgentAnswer) (principal : Option String)
    (operation : String) (params : List (String × Json)) (requestId : String) :
    Op RelayError σ SurfaceAnswer :=
  if principal = none then return .refused 401 "" "unauthorized"
  else if operation ∉ allowedAgentOperations then
    return .refused 200 requestId
      (if operation ∈ ["raw_cdp","evaluate","cookies","storage","network"] then "capability_denied"
      else "operation_not_supported")
  else match agentParamsValid urlsplit operation params with
    | .error _ => throw .other
    | .ok false => return .refused 200 requestId "invalid_request"
    | .ok true => do
      let answer ← outcome (postAgent operation (sendJson repr (agentBody requestId params)))
      match answer with
      | .error _ => return .refused 200 requestId "agent_failed"
      | .ok answer =>
        if 400 ≤ answer.code then return .refused 200 requestId "agent_failed"
        else return .relayed answer

end ViewerSessionSurface

namespace AgentControl

open Stateful Interleave
open BrowserSidecar (pageRequest)
open RouterApi (RelayError AgentAnswer dumpsSorted relayBody serializeBinding)
open ViewerSessionSurface (agentBody agentParamsValid)
open Json (encode sortKeys)

section Bodies

variable {repr : ℚ → List Char} {requestId operation : String} {params params' : List (String × Json)}
  {c : BrowserCall}

theorem lookup_perm (h : params.Perm params') (hdistinct : (params.map Prod.fst).Nodup)
    (name : String) : params.lookup name = params'.lookup name := by
  induction h with
  | nil => rfl
  | cons f _ ih =>
    rw [List.map_cons,List.nodup_cons] at hdistinct
    rw [List.lookup_cons,List.lookup_cons,ih hdistinct.2]
  | swap f g l =>
    obtain ⟨f,v⟩ := f
    obtain ⟨g,w⟩ := g
    have hne : f ≠ g := by
      rintro rfl
      simp at hdistinct
    simp only [List.lookup_cons]
    by_cases hf : name = f
    · subst hf
      simp [beq_eq_false_iff_ne.mpr hne]
    · simp [beq_eq_false_iff_ne.mpr hf]
  | trans h _ ih ih' => exact (ih hdistinct).trans (ih' ((h.map _).nodup hdistinct))

theorem get_perm (h : params.Perm params') (hdistinct : (params.map Prod.fst).Nodup)
    (name : String) : Json.get params name = Json.get params' name := by
  rw [Json.get,Json.get,lookup_perm h hdistinct]

theorem mem_of_get {name s : String} (h : Json.get params name = .str s) : (name,.str s) ∈ params := by
  rw [Json.get] at h
  cases hl : params.lookup name with
  | none =>
    rw [hl] at h
    cases h
  | some v =>
    rw [hl] at h
    cases h
    obtain ⟨l₁,l₂,rfl,-⟩ := List.lookup_eq_some_iff.mp hl
    simp

/-- What `json.dumps` with sorted keys writes of the parameters. -/
def sortedParams (params : List (String × Json)) : List (String × Json) :=
  params.insertionSort fun f g => f.1 ≤ g.1

theorem perm_sortedParams (params : List (String × Json)) : (sortedParams params).Perm params :=
  List.perm_insertionSort _ params

theorem encode_dumpsSorted (v : Json) :
    Text.encodeUtf8 (dumpsSorted repr v) = sendJson repr (sortKeys v) := by
  rw [dumpsSorted,Json.dump_eq]
  rfl

/-- A request of the router, as it reaches the service. -/
def relayed (requestId operation : String) (params : List (String × Json)) : Json :=
  .obj [("operation",.str operation),("params",.obj (sortedParams params)),
    ("request_id",.str requestId)]

theorem encode_relayBody (htexts : ∀ f ∈ params, ∃ s, f.2 = .str s) :
    Text.encodeUtf8 (relayBody repr requestId operation params) =
      sendJson repr (relayed requestId operation params) := by
  have hsort : sortKeys (.obj [("request_id",.str requestId),("operation",.str operation),
      ("params",.obj params)]) = relayed requestId operation params := by
    simp only [sortKeys,Json.sortFields,Json.sortFields_texts htexts,List.insertionSort_cons,
      List.insertionSort_nil,List.orderedInsert]
    rw [if_pos (show "operation" ≤ "params" by decide),List.orderedInsert,
      if_neg (show ¬"request_id" ≤ "operation" by decide),List.orderedInsert,
      if_neg (show ¬"request_id" ≤ "params" by decide)]
    rfl
  rw [relayBody,encode_dumpsSorted,hsort]

theorem plain_params (htexts : ∀ f ∈ params, ∃ s, f.2 = .str s)
    (hdistinct : (params.map Prod.fst).Nodup) : Json.Plain (.obj params) := by
  refine .obj _ ?_ hdistinct
  intro f hf
  obtain ⟨s,hs⟩ := htexts f hf
  rw [hs]
  exact .str s

theorem plain_relayed (htexts : ∀ f ∈ params, ∃ s, f.2 = .str s)
    (hdistinct : (params.map Prod.fst).Nodup) : Json.Plain (relayed requestId operation params) := by
  have hperm := perm_sortedParams params
  have hsorted : Json.Plain (.obj (sortedParams params)) :=
    plain_params (fun f hf => htexts f (hperm.mem_iff.mp hf)) ((hperm.map _).nodup_iff.mpr hdistinct)
  refine .obj _ ?_ (by simp)
  simp only [List.mem_cons,List.not_mem_nil,or_false,forall_eq_or_imp,forall_eq]
  exact ⟨.str _,hsorted,.str _⟩

theorem plain_agentBody (htexts : ∀ f ∈ params, ∃ s, f.2 = .str s)
    (hdistinct : (params.map Prod.fst).Nodup) : Json.Plain (agentBody requestId params) := by
  refine .obj _ ?_ (by simp)
  simp only [List.mem_cons,List.not_mem_nil,or_false,forall_eq_or_imp,forall_eq]
  exact ⟨.str _,plain_params htexts hdistinct⟩

theorem length_agentBody : (encode repr (agentBody requestId params)).length =
    25 + Json.dumpedLength requestId + (encode repr (.obj params)).length := by
  simp only [agentBody,encode,Json.encodeField,Json.encodeFields,List.cons_append,
    List.length_cons,List.length_append,Json.dumpedLength]
  simp only [show (Json.dumpString "request_id").length = 12 from rfl,
    show (Json.dumpString "params").length = 8 from rfl,List.length_nil]
  omega

/-- The service's request adds no more than the operation to that of the router. -/
theorem length_relayed : (encode repr (relayed requestId operation params)).length =
    (encode repr (agentBody requestId params)).length + 13 + Json.dumpedLength operation := by
  have hperm := @Json.length_encode_perm repr _ _ (perm_sortedParams params)
  rw [length_agentBody]
  simp only [relayed,encode,Json.encodeField,Json.encodeFields,List.cons_append,
    List.length_cons,List.length_append,Json.dumpedLength,hperm]
  simp only [show (Json.dumpString "request_id").length = 12 from rfl,
    show (Json.dumpString "operation").length = 11 from rfl,
    show (Json.dumpString "params").length = 8 from rfl,List.length_nil]
  omega

theorem length_operation (h : operation ∈ allowedAgentOperations) :
    Json.dumpedLength operation ≤ 11 := by
  revert h
  simp only [allowedAgentOperations,List.mem_cons,List.not_mem_nil,or_false]
  rintro (rfl | rfl | rfl | rfl | rfl) <;> decide

theorem Accepts.allowed (h : Accepts params operation c) : operation ∈ allowedAgentOperations := by
  cases h <;> decide

theorem length_encode_pos {v : Json} (h : Json.Plain v) : 0 < (encode repr v).length := by
  obtain ⟨c,cs,hhead,-⟩ := @Json.encode_head repr _ h
  rw [hhead]
  simp

/-- The router takes a body of the viewer that is not too long. -/
theorem readBody_agentBody (htexts : ∀ f ∈ params, ∃ s, f.2 = .str s)
    (hdistinct : (params.map Prod.fst).Nodup) :
    RouterApi.readBody (sendJson repr (agentBody requestId params)) =
      if (encode repr (agentBody requestId params)).length ≤ 4096 then
        some [("request_id",.str requestId),("params",.obj params)]
      else none := by
  have hplain : Json.Plain (agentBody requestId params) := plain_agentBody htexts hdistinct
  have hlength := @length_sendJson repr _ hplain
  have hpos := @length_encode_pos repr _ hplain
  simp only [RouterApi.readBody,hlength,loads_sendJson hplain]
  by_cases hfits : (encode repr (agentBody requestId params)).length ≤ 4096
  · rw [if_neg (by omega),if_neg (by omega),if_pos hfits]
    rfl
  · rw [if_pos (by omega),if_neg hfits]

/-- The service reads what the router has sent it. -/
theorem readRequest_relayed (htexts : ∀ f ∈ params, ∃ s, f.2 = .str s)
    (hdistinct : (params.map Prod.fst).Nodup)
    (hlength : (encode repr (relayed requestId operation params)).length ≤ 8192)
    (binding : BrowserBinding) :
    readRequest binding (sendJson repr (relayed requestId operation params)) =
      some ⟨.str requestId,binding.principalId,binding.browserId,binding.generation,
        .str operation,.obj (sortedParams params)⟩ := by
  have hplain : Json.Plain (relayed requestId operation params) := plain_relayed htexts hdistinct
  have hpos := @length_encode_pos repr _ hplain
  simp only [readRequest,length_sendJson hplain,loads_sendJson hplain]
  rw [if_neg (by omega)]
  rfl

theorem Accepts.withinBounds (h : Accepts params operation c)
    (hurl : operation = "navigate" → Json.get params "url" ≠ .str "") :
    BrowserSidecar.WithinBounds c := by
  cases h with
  | pageInfo tab selector target valid given short => exact ⟨valid,short⟩
  | tabsList => trivial
  | navigate tab url target valid given =>
    refine ⟨valid,?_⟩
    rintro rfl
    exact hurl rfl given
  | click tab selector target valid given full => exact ⟨valid,full⟩
  | typeText tab selector text target valid given typed full => exact ⟨valid,full⟩

theorem length_textFields {fields : List (String × String)} (h : fields ≠ []) :
    (encode repr (BrowserSidecar.textFields fields)).length =
      1+Json.memberLength repr (fields.map fun f => (f.1,.str f.2)) :=
  Json.length_encode_obj (by simpa using h)

/-- The request of a page action is not much longer than its parameters. -/
theorem Accepts.length_body (h : Accepts params operation c) :
    (pageRequest repr c).body.length ≤ (encode repr (.obj params)).length+2 := by
  have hsub : ∀ fields : List (String × Json), fields ≠ [] → fields.Nodup → fields ⊆ params →
      1+Json.memberLength repr fields ≤ (encode repr (.obj params)).length := by
    intro fields hne hnodup hsubset
    have hparams : params ≠ [] := by
      rintro rfl
      exact hne (List.subset_nil.mp hsubset)
    rw [Json.length_encode_obj hparams]
    have hle := @Json.memberLength_le repr _ _ (List.subperm_of_subset hnodup hsubset)
    omega
  cases h with
  | pageInfo tab selector => cases selector <;> exact Nat.zero_le _
  | tabsList => exact Nat.zero_le _
  | navigate tab url target valid given =>
    have hle := hsub [("target_tab_id",.str tab),("url",.str url)] (by simp) (by simp) (by
      simpa using ⟨mem_of_get target,mem_of_get given⟩)
    simp only [pageRequest,BrowserSidecar.actionRequest]
    rw [length_sendJson (BrowserSidecar.plain_textFields (by simp)),length_textFields (by simp)]
    simp only [Json.memberLength,List.map_cons,List.map_nil,List.sum_cons,List.sum_nil,
      Json.encodeField,List.length_append,List.length_cons] at hle ⊢
    simp only [show (Json.dumpString "value").length = 7 from rfl,
      show (Json.dumpString "url").length = 5 from rfl] at hle ⊢
    omega
  | click tab selector target valid given =>
    have hle := hsub [("target_tab_id",.str tab),("selector",.str selector)] (by simp) (by simp) (by
      simpa using ⟨mem_of_get target,mem_of_get given⟩)
    simp only [pageRequest,BrowserSidecar.actionRequest]
    rw [length_sendJson (BrowserSidecar.plain_textFields (by simp)),length_textFields (by simp)]
    simp only [Json.memberLength,List.map_cons,List.map_nil,List.sum_cons,List.sum_nil,
      Json.encodeField,List.length_append,List.length_cons] at hle ⊢
    simp only [show (Json.dumpString "value").length = 7 from rfl,
      show (Json.dumpString "selector").length = 10 from rfl] at hle ⊢
    omega
  | typeText tab selector text target valid given typed =>
    have hle := hsub [("target_tab_id",.str tab),("selector",.str selector),("text",.str text)]
      (by simp) (by simp) (by simpa using ⟨mem_of_get target,mem_of_get given,mem_of_get typed⟩)
    simp only [pageRequest,BrowserSidecar.actionRequest]
    rw [length_sendJson (BrowserSidecar.plain_textFields (by simp)),length_textFields (by simp)]
    exact hle.trans (Nat.le_add_right _ _)

end Bodies

section Handled

variable {repr : ℚ → List Char} {w : Surroundings} {browser : Browser}
  {urlsplit : String → Except Unit SplitResult} {requestId operation : String}
  {params : List (String × Json)} {c : BrowserCall} {s : Backend}

@[simp] theorem exec_lease (s : Backend) :
    Stateful.exec (act repr w browser .expected) s = (.ok s.lease,s) := rfl

@[simp] theorem exec_probe (s : Backend) :
    Stateful.exec (act repr w browser .readiness) s = (w.probe s.received,s) := by
  simp [act,exec_bind]

@[simp] theorem exec_current (s : Backend) :
    Stateful.exec (act repr w browser .current) s = (.ok (s.lease.principalId,s.lease.generation),s) := rfl

/-- The sidecar gets the action that the service has accepted. -/
theorem exec_browser (h : BrowserSidecar.WithinBounds c)
    (hlength : (pageRequest repr c).body.length ≤ 8192) (s : Backend) :
    (Stateful.exec (act repr w browser (.browser c)) s).2 = { s with received := s.received ++ [c] } := by
  have hread := BrowserSidecar.readPageRequest_pageRequest h hlength
  simp only [act,sendPageAction,BrowserSidecar.queryAllowed_pageRequest h,hread,exec_bind]
  simp [exec_bind,-bind_pure_comp]

theorem exec_callsOnce {p : Call (Option Page)} (hp : CallsOnce p c)
    (h : BrowserSidecar.WithinBounds c) (hlength : (pageRequest repr c).body.length ≤ 8192)
    (s : Backend) :
    (Stateful.exec (p.alone (act repr w browser)) s).2 = { s with received := s.received ++ [c] } := by
  have hsent := @exec_browser repr w browser c h hlength s
  rcases hp with rfl | rfl
  · rw [Program.alone_perform]
    exact hsent
  · rw [Program.alone_bind,Program.alone_perform,exec_bind]
    rcases hexec : Stateful.exec (act repr w browser (.browser c)) s with ⟨_ | _,s'⟩
    · rw [hexec] at hsent
      exact hsent
    · rw [hexec] at hsent
      exact hsent

/-- The browser is ready, and for the lease. -/
def Ready (w : Surroundings) (principalId generation : String) : Prop :=
  ∀ received, ∃ ready, w.probe received = .ok ready ∧
    readinessMatches ready principalId generation = true ∧ ready.cdpOk = true

/-- A probe and the re-read of the lease leave the service as it is. -/
theorem exec_probes {β : Type} (f : BrowserReadiness → String × String → Call β) (s : Backend) :
    Stateful.exec ((do
      let ready ← perform .readiness
      let lease ← perform .current
      f ready lease : Call β).alone (act repr w browser)) s = match w.probe s.received with
      | .ok ready =>
        Stateful.exec ((f ready (s.lease.principalId,s.lease.generation)).alone (act repr w browser)) s
      | .error e => (.error e,s) := by
  simp only [Program.alone_bind,Program.alone_perform]
  cases hprobe : w.probe s.received with
  | error e =>
    refine exec_bind_error ?_
    rw [exec_probe,hprobe]
  | ok ready =>
    refine (exec_bind_ok ?_).trans (exec_bind_ok (exec_current s))
    rw [exec_probe,hprobe]

/-- An operation of a browser that is ready does what its dispatch does. -/
theorem exec_operate (hready : Ready w s.lease.principalId s.lease.generation) :
    (Stateful.exec ((operate urlsplit requestId operation params).alone (act repr w browser)) s).2 =
      (Stateful.exec ((dispatch urlsplit operation params).alone (act repr w browser)) s).2 := by
  obtain ⟨ready,hprobe,hmatch,hcdp⟩ := hready s.received
  unfold operate
  rw [exec_probes,hprobe]
  simp only [hmatch,hcdp,Bool.not_true,Bool.false_eq_true,if_false]
  rw [Program.alone_bind,exec_bind]
  rcases Stateful.exec ((dispatch urlsplit operation params).alone (act repr w browser)) s
    with ⟨_ | result,s'⟩
  · rfl
  · dsimp only
    rw [exec_probes]
    cases w.probe s'.received with
    | error e => rfl
    | ok final =>
      dsimp only
      split
      · rfl
      · split <;> rfl

/-- What goes wrong in an operation is answered, and changes nothing more. -/
theorem handlers_keep (e : AgentError) (s : Backend) :
    (Stateful.exec ((handlers requestId e).alone (act repr w browser)) s).2 = s := by
  cases e <;> rfl

/-- The service passes on a request that is addressed to its lease. -/
theorem exec_handle (hid : requestId ≠ "" ∧ requestId.length ≤ 128)
    (haccepts : (dispatch urlsplit operation params).upcoming = some (.browser c))
    (hready : Ready w s.lease.principalId s.lease.generation)
    (h : BrowserSidecar.WithinBounds c) (hlength : (pageRequest repr c).body.length ≤ 8192) :
    (Stateful.exec ((handle urlsplit ⟨.str requestId,s.lease.principalId,s.lease.browserId,
      s.lease.generation,.str operation,.obj params⟩).alone (act repr w browser)) s).2 =
      { s with received := s.received ++ [c] } := by
  obtain ⟨hparams,honce⟩ := dispatch_accepts haccepts
  have hforbidden : operation ∉ forbiddenAgentOperations := by
    cases hparams <;> decide
  have hoperate := @exec_operate repr w browser urlsplit requestId operation params s hready
  rw [exec_callsOnce honce h hlength] at hoperate
  have hchecked : handle urlsplit ⟨.str requestId,s.lease.principalId,s.lease.browserId,
      s.lease.generation,.str operation,.obj params⟩ = perform .expected >>= handleChecked urlsplit
        ⟨.str requestId,s.lease.principalId,s.lease.browserId,s.lease.generation,.str operation,
          .obj params⟩ requestId := by
    refine if_neg ?_
    rintro (h | h)
    · exact hid.1 h
    · exact absurd hid.2 (not_le.mpr h)
  rw [hchecked,Program.alone_bind,Program.alone_perform]
  refine (congrArg Prod.snd (exec_bind_ok (exec_lease s))).trans ?_
  rw [exec_handleChecked ⟨rfl,rfl,rfl⟩ rfl hparams.allowed hforbidden rfl,Program.alone_tryCatch]
  rw [show Stateful.exec (MonadExcept.tryCatch _ _) s = _ from exec_tryCatch _ _ _]
  rcases hexec : Stateful.exec ((operate urlsplit requestId operation params).alone
    (act repr w browser)) s with ⟨e | _,s'⟩
  · rw [hexec] at hoperate
    exact (handlers_keep e s').trans hoperate
  · rw [hexec] at hoperate
    exact hoperate

end Handled

section Leases

variable {repr : ℚ → List Char} {w : Surroundings} {browser : Browser}
  {urlsplit : String → Except Unit SplitResult} {binding : BrowserBinding} {s : Backend}

/-- The request for a lease, as it is measured. -/
def leaseBody (binding : BrowserBinding) : Json := .obj [("binding",serializeBinding binding)]

/-- The service takes a binding of this kind for its lease. -/
structure Rotatable (repr : ℚ → List Char) (binding : BrowserBinding) : Prop where
  principalId : boundedIdentity binding.principalId = true
  browserId : boundedIdentity binding.browserId = true
  generation : boundedIdentity binding.generation = true
  short : (encode repr (leaseBody binding)).length ≤ 4096

theorem Rotatable.build (h : Rotatable repr binding) : ∃ lease,
    Lease.build binding.principalId binding.browserId binding.generation = .ok lease ∧
      matchesBinding binding lease = true := by
  refine ⟨⟨_,_,_,h.principalId,h.browserId,h.generation⟩,?_,by simp [matchesBinding]⟩
  rw [Lease.build,dif_pos h.principalId,dif_pos h.browserId,dif_pos h.generation]

/-- The binding with its members in order. -/
def sortedLeaseBody (binding : BrowserBinding) : Json :=
  .obj [("binding",.obj [("browser_id",.str binding.browserId),
    ("generation",.str binding.generation),("principal_id",.str binding.principalId),
    ("profile_id",.str binding.profileId)])]

theorem sortKeys_leaseBody : sortKeys (leaseBody binding) = sortedLeaseBody binding := by
  simp [leaseBody,serializeBinding,sortKeys,Json.sortFields,List.insertionSort_cons,
    List.orderedInsert,sortedLeaseBody]

theorem plain_sortedLeaseBody : Json.Plain (sortedLeaseBody binding) := by
  refine .obj _ ?_ (by simp)
  simp only [List.mem_cons,List.not_mem_nil,or_false,forall_eq]
  refine .obj _ ?_ (by simp)
  simp only [List.mem_cons,List.not_mem_nil,or_false,forall_eq_or_imp,forall_eq]
  exact ⟨.str _,.str _,.str _,.str _⟩

theorem length_sortedLeaseBody : (encode repr (sortedLeaseBody binding)).length =
    (encode repr (leaseBody binding)).length := by
  simp only [sortedLeaseBody,leaseBody,serializeBinding,encode,Json.encodeField,Json.encodeFields,
    List.length_cons,List.length_append,List.length_nil]
  omega

theorem readLease_sortedLeaseBody : readLease (sendJson repr (sortedLeaseBody binding)) =
    if (encode repr (leaseBody binding)).length ≤ 4096 then
      (Lease.build binding.principalId binding.browserId binding.generation).toOption
    else none := by
  have hplain := @plain_sortedLeaseBody binding
  have hpos := @length_encode_pos repr _ hplain
  rw [length_sortedLeaseBody] at hpos
  simp only [readLease,length_sendJson hplain,loads_sendJson hplain,length_sortedLeaseBody]
  by_cases hshort : (encode repr (leaseBody binding)).length ≤ 4096
  · rw [if_neg (by omega),if_pos hshort]
    rfl
  · rw [if_pos (by omega),if_neg hshort]

theorem rotatable_of_read {lease : Lease}
    (h : readLease (sendJson repr (sortedLeaseBody binding)) = some lease) :
    Rotatable repr binding ∧ matchesBinding binding lease = true := by
  rw [readLease_sortedLeaseBody] at h
  split_ifs at h with hshort
  cases hbuild : Lease.build binding.principalId binding.browserId binding.generation with
  | error e =>
    rw [hbuild] at h
    cases h
  | ok built =>
    rw [hbuild] at h
    cases h
    unfold Lease.build at hbuild
    split_ifs at hbuild with hp hb hg
    cases hbuild
    exact ⟨⟨hp,hb,hg,hshort⟩,by simp [matchesBinding]⟩

theorem exec_postLease_taken {lease : Lease}
    (h : readLease (sendJson repr (sortedLeaseBody binding)) = some lease) :
    Stateful.exec ((serviceRequester repr w browser urlsplit).postLease
      (dumpsSorted repr (leaseBody binding))) s =
      (.ok (200,sendJson repr (.obj [("status",.str "ok")])),{ s with lease := lease }) := by
  simp only [serviceRequester,encode_dumpsSorted,sortKeys_leaseBody,handleLease,h,exec_bind,
    exec_modify]
  rfl

theorem exec_postLease_refused (h : readLease (sendJson repr (sortedLeaseBody binding)) = none) :
    Stateful.exec ((serviceRequester repr w browser urlsplit).postLease
      (dumpsSorted repr (leaseBody binding))) s = (.ok (400,sendJson repr invalidRequest),s) := by
  simp only [serviceRequester,encode_dumpsSorted,sortKeys_leaseBody,handleLease,h]
  rfl

end Leases

section Posts

variable {σ : Type} {repr : ℚ → List Char} {r : RouterApi.Requester σ} {binding : BrowserBinding}
  {body : String} {s s' s'' : σ} {answer lease : Bytes}

theorem exec_relay_taken
    (h : Stateful.exec (r.post binding body) s = (.ok (200,answer),s')) :
    Stateful.exec (r.relay repr binding body) s = (.ok (200,answer),s') := by
  rw [RouterApi.Requester.relay,exec_bind_ok h]
  rfl

theorem exec_relay_rotated
    (h : Stateful.exec (r.post binding body) s = (.ok (401,answer),s'))
    (hlease : Stateful.exec (r.postLease (dumpsSorted repr (leaseBody binding))) s' =
      (.ok (200,lease),s'')) :
    Stateful.exec (r.relay repr binding body) s = Stateful.exec (r.post binding body) s'' := by
  rw [RouterApi.Requester.relay,exec_bind_ok h]
  dsimp only
  rw [if_neg (by decide)]
  exact exec_bind_ok hlease

theorem exec_relay_pinned
    (h : Stateful.exec (r.post binding body) s = (.ok (401,answer),s'))
    (hlease : Stateful.exec (r.postLease (dumpsSorted repr (leaseBody binding))) s' =
      (.ok (400,lease),s'')) :
    (Stateful.exec (r.relay repr binding body) s).2 = s'' := by
  rw [RouterApi.Requester.relay,exec_bind_ok h]
  dsimp only
  rw [if_neg (by decide)]
  exact congrArg Prod.snd (exec_bind_ok hlease)

end Posts

section Relayed

variable {repr : ℚ → List Char} {w : Surroundings} {browser : Browser}
  {urlsplit : String → Except Unit SplitResult} {requestId operation : String}
  {params : List (String × Json)} {c : BrowserCall} {binding sent : BrowserBinding} {s : Backend}

/-- The request as the service has it. -/
def delivered (sent : BrowserBinding) (requestId operation : String)
    (params : List (String × Json)) : AgentControlRequest :=
  ⟨.str requestId,sent.principalId,sent.browserId,sent.generation,.str operation,
    .obj (sortedParams params)⟩

/-- A request with the identity of another lease is refused. -/
theorem exec_doPost_unmatched {body : Bytes} (h : matchesBinding sent s.lease = false) :
    Stateful.exec (doPost repr w browser urlsplit sent body) s =
      (.ok (401,sendJson repr unauthorized),s) := by
  rw [doPost,exec_bind,exec_get]
  simp only [h,Bool.not_false,if_true]
  rfl

theorem eq_of_matchesBinding {lease : Lease} (h : matchesBinding sent lease = true) :
    sent.principalId = lease.principalId ∧ sent.browserId = lease.browserId ∧
      sent.generation = lease.generation := by
  simpa [matchesBinding,and_assoc] using h

/-- Headers that match the lease of their own binding carry it unchanged. -/
theorem eq_of_rotated {lease : Lease} (hsent : sentBinding binding = some sent)
    (hmatch : matchesBinding sent lease = true) (hsame : matchesBinding binding lease = true) :
    sent = binding := by
  have hprofile : sent.profileId = binding.profileId := by
    simp only [sentBinding,Option.bind_eq_bind,Option.bind_eq_some_iff] at hsent
    obtain ⟨_,-,_,-,_,-,h⟩ := hsent
    cases h
    rfl
  obtain ⟨hp,hb,hg⟩ := eq_of_matchesBinding hmatch
  obtain ⟨hp',hb',hg'⟩ := eq_of_matchesBinding hsame
  cases sent
  cases binding
  simp_all

/-- A page action that the service accepts, as it is posted. -/
structure Posted (repr : ℚ → List Char) (urlsplit : String → Except Unit SplitResult)
    (requestId operation : String) (params : List (String × Json)) (c : BrowserCall) : Prop where
  id : requestId ≠ "" ∧ requestId.length ≤ 128
  texts : ∀ f ∈ params, ∃ s, f.2 = .str s
  distinct : (params.map Prod.fst).Nodup
  accepted : (dispatch urlsplit operation params).upcoming = some (.browser c)
  url : operation = "navigate" → Json.get params "url" ≠ .str ""
  short : (encode repr (agentBody requestId params)).length ≤ 4096

theorem exec_doPost_matched (h : Posted repr urlsplit requestId operation params c)
    (hmatch : matchesBinding sent s.lease = true)
    (hready : Ready w sent.principalId sent.generation) :
    ∃ answer, Stateful.exec (doPost repr w browser urlsplit sent (Text.encodeUtf8
        (relayBody repr requestId operation params))) s =
      (.ok (200,answer),⟨s.lease,s.handled ++ [delivered sent requestId operation params],
        s.received ++ [c]⟩) := by
  obtain ⟨hprincipal,hbrowser,hgeneration⟩ := eq_of_matchesBinding hmatch
  obtain ⟨hparams,-⟩ := dispatch_accepts h.accepted
  have hlength := @length_relayed repr requestId operation params
  have hoperation := length_operation hparams.allowed
  have hshort := h.short
  have hbody := @Accepts.length_body repr operation params c hparams
  have hinner := @length_agentBody repr requestId params
  have hsorted : (dispatch urlsplit operation (sortedParams params)).upcoming =
      some (.browser c) := by
    rw [dispatch_congr (get_perm (perm_sortedParams params)
      (((perm_sortedParams params).map _).nodup_iff.mpr h.distinct))]
    exact h.accepted
  rw [hprincipal,hgeneration] at hready
  rw [encode_relayBody h.texts,doPost,exec_bind,exec_get]
  simp only [hmatch,Bool.not_true,Bool.false_eq_true,if_false]
  rw [readRequest_relayed h.texts h.distinct (by omega)]
  simp only [exec_bind,exec_modify,exec_rethrow,exec_outcome]
  have hhandled := @exec_handle repr w browser urlsplit requestId operation (sortedParams params) c
    { s with handled := s.handled ++ [delivered sent requestId operation params] } h.id hsorted hready
    (hparams.withinBounds h.url) (by omega)
  dsimp only at hhandled
  rw [← hprincipal,← hbrowser,← hgeneration] at hhandled
  simp only [delivered] at hhandled ⊢
  rw [hhandled]
  split
  · exact ⟨_,rfl⟩
  · exact ⟨_,rfl⟩

/-- The service takes a request with this binding, perhaps after a rotation of its lease. -/
def Admits (repr : ℚ → List Char) (binding : BrowserBinding) (lease : Lease) : Prop :=
  ∃ sent, sentBinding binding = some sent ∧
    (matchesBinding sent lease = true ∨ (Rotatable repr binding ∧ sent = binding))

/-- The browser is ready for the identity that the headers of a binding carry. -/
def ReadyFor (w : Surroundings) (binding : BrowserBinding) : Prop :=
  ∀ sent, sentBinding binding = some sent → Ready w sent.principalId sent.generation

theorem post_serviceRequester {body : String} (hsent : sentBinding binding = some sent) :
    (serviceRequester repr w browser urlsplit).post binding body =
      doPost repr w browser urlsplit sent (Text.encodeUtf8 body) := by
  simp only [serviceRequester,hsent]

theorem exec_relay_admitted (h : Posted repr urlsplit requestId operation params c)
    (hready : ReadyFor w binding) (hadmits : Admits repr binding s.lease) :
    ∃ sent lease, sentBinding binding = some sent ∧
      (Stateful.exec ((serviceRequester repr w browser urlsplit).relay repr binding
        (relayBody repr requestId operation params)) s).2 =
        ⟨lease,s.handled ++ [delivered sent requestId operation params],s.received ++ [c]⟩ := by
  obtain ⟨sent,hsent,hmatch⟩ := hadmits
  have hpost := @post_serviceRequester repr w browser urlsplit binding sent
    (relayBody repr requestId operation params) hsent
  by_cases hfirst : matchesBinding sent s.lease = true
  · obtain ⟨answer,hanswer⟩ := @exec_doPost_matched repr w browser urlsplit requestId operation params
      c sent s h hfirst (hready sent hsent)
    rw [← hpost] at hanswer
    exact ⟨sent,s.lease,hsent,congrArg Prod.snd (exec_relay_taken hanswer)⟩
  · obtain ⟨hrotatable,rfl⟩ := hmatch.resolve_left hfirst
    obtain ⟨lease,hbuild,hagain⟩ := hrotatable.build
    have hread : readLease (sendJson repr (sortedLeaseBody sent)) = some lease := by
      rw [readLease_sortedLeaseBody,if_pos hrotatable.short,hbuild]
      rfl
    have hlease := @exec_postLease_taken repr w browser urlsplit sent s lease hread
    have hrefused := @exec_doPost_unmatched repr w browser urlsplit sent s
      (Text.encodeUtf8 (relayBody repr requestId operation params)) (by simpa using hfirst)
    obtain ⟨answer,hanswer⟩ := @exec_doPost_matched repr w browser urlsplit requestId operation params
      c sent { s with lease := lease } h hagain (hready sent hsent)
    rw [← hpost] at hrefused hanswer
    refine ⟨sent,lease,hsent,?_⟩
    rw [exec_relay_rotated hrefused hlease,hanswer]

/-- No request reaches the service under a binding that it does not take. -/
theorem exec_relay_refused {body : String} (h : ¬Admits repr binding s.lease) :
    (Stateful.exec ((serviceRequester repr w browser urlsplit).relay repr binding body) s).2.handled =
      s.handled := by
  cases hsent : sentBinding binding with
  | none =>
    simp only [RouterApi.Requester.relay,serviceRequester,hsent]
    rfl
  | some sent =>
    have hpost := @post_serviceRequester repr w browser urlsplit binding sent body hsent
    have hfirst : matchesBinding sent s.lease = false := by
      rw [Bool.eq_false_iff]
      exact fun hmatch => h ⟨sent,hsent,.inl hmatch⟩
    have hrefused := @exec_doPost_unmatched repr w browser urlsplit sent s (Text.encodeUtf8 body)
      hfirst
    rw [← hpost] at hrefused
    cases hread : readLease (sendJson repr (sortedLeaseBody binding)) with
    | none =>
      have hlease := @exec_postLease_refused repr w browser urlsplit binding s hread
      exact congrArg Backend.handled (exec_relay_pinned hrefused hlease)
    | some lease =>
      have hlease := @exec_postLease_taken repr w browser urlsplit binding s lease hread
      have hagain : matchesBinding sent lease = false := by
        rw [Bool.eq_false_iff]
        intro hmatch
        obtain ⟨hrotatable,hsame⟩ := rotatable_of_read hread
        exact h ⟨sent,hsent,.inr ⟨hrotatable,eq_of_rotated hsent hmatch hsame⟩⟩
      have hrefused' := @exec_doPost_unmatched repr w browser urlsplit sent { s with lease := lease }
        (Text.encodeUtf8 body) hagain
      rw [← hpost] at hrefused'
      exact congrArg (fun r => r.2.handled)
        ((exec_relay_rotated hrefused hlease).trans hrefused')

end Relayed

end AgentControl
end CloudBrowser
