import CloudBrowser.AgentRequests

/-! Which page actions arrive: of those that the viewer admits and that the service's own checks let
through, the ones whose body the router can read. -/
namespace CloudBrowser
namespace ViewerSessionSurface

open AgentControl Stateful Interleave
open RouterApi (RelayError ActiveCaller AgentControlForwarder RelayedRequest postAgent relayBody)
open Json (encode)

/-- A page action that the viewer admits and that the service's own checks let through: the
parameters, each given once, and the call of the browser that they ask for. -/
structure PageAction (urlsplit : String → Except Unit SplitResult) where
  operation : String
  params : List (String × Json)
  call : BrowserCall
  distinct : (params.map Prod.fst).Nodup
  admitted : agentParamsValid urlsplit operation params = .ok true
  accepted : (dispatch urlsplit operation params).upcoming = some (.browser call)

theorem target_of_accepts {operation : String} {params : List (String × Json)} {c : BrowserCall}
    (h : Accepts params operation c) (hop : operation ≠ "tabs_list") :
    RouterApi.boundedText 256 (Json.get params "target_tab_id") ≠ none := by
  cases h with
  | tabsList => exact absurd rfl hop
  | pageInfo tab selector target valid => simp [RouterApi.boundedText,target,valid]
  | navigate tab url target valid => simp [RouterApi.boundedText,target,valid]
  | click tab selector target valid => simp [RouterApi.boundedText,target,valid]
  | typeText tab selector text target valid => simp [RouterApi.boundedText,target,valid]

section Admitted

variable {repr : ℚ → List Char} {urlsplit : String → Except Unit SplitResult} {operation : String}
  {params : List (String × Json)}

/-- What the viewer has checked of the parameters that it admits. -/
theorem agentParamsValid_ok (h : agentParamsValid urlsplit operation params = .ok true) :
    (∀ f ∈ params, paramAllowed (agentLimits operation) f = true) ∧
      (operation = "navigate" → ∃ parsed,
        urlsplit ((Json.get params "url").asString.getD "") = .ok parsed ∧ parsed.netloc ≠ "") := by
  unfold agentParamsValid at h
  split at h
  · cases h
  split at h
  · cases h
  rename_i hall
  have hall' : ∀ f ∈ params, paramAllowed (agentLimits operation) f = true := by simpa using hall
  refine ⟨hall',fun hnavigate => ?_⟩
  rw [if_pos hnavigate] at h
  obtain ⟨parsed,hparsed,h⟩ := bind_ok h
  have hchecked := Except.ok.inj h
  simp only [Bool.and_eq_true,decide_eq_true_eq] at hchecked
  exact ⟨parsed,hparsed,hchecked.1.1.2⟩

theorem paramAllowed_text {limits : List (String × ℕ)} {f : String × Json}
    (h : paramAllowed limits f = true) : ∃ s, f.2 = .str s := by
  unfold paramAllowed at h
  split at h
  · rename_i s _ hs
    exact ⟨s,hs⟩
  · cases h

theorem PageAction.allowed (a : PageAction urlsplit) : a.operation ∈ allowedAgentOperations :=
  (dispatch_accepts a.accepted).1.allowed

theorem PageAction.texts (a : PageAction urlsplit) : ∀ f ∈ a.params, ∃ s, f.2 = .str s :=
  fun f hf => paramAllowed_text ((agentParamsValid_ok a.admitted).1 f hf)

/-- The viewer admits no empty address, which has no host. -/
theorem PageAction.url (a : PageAction urlsplit)
    (hempty : ∀ parsed, urlsplit "" = .ok parsed → parsed.netloc = "") (h : a.operation = "navigate") :
    Json.get a.params "url" ≠ .str "" := by
  intro hurl
  obtain ⟨parsed,hparsed,hnetloc⟩ := (agentParamsValid_ok a.admitted).2 h
  rw [hurl] at hparsed
  exact hnetloc (hempty parsed hparsed)

end Admitted

section Reached

variable (repr : ℚ → List Char) {urlsplit : String → Except Unit SplitResult}
  {f : AgentControlForwarder Backend}

/-- The viewer's `agent`, before the router that has the caller's session. -/
def request (c : ActiveCaller f) (a : PageAction urlsplit) (requestId : String) :
    Op RelayError Backend SurfaceAnswer :=
  agent repr urlsplit
    (fun operation body => postAgent repr (some f) operation body (some c.principalId) c.lookup)
    (some c.principalId) a.operation a.params requestId

/-- The action has reached the service of the slot once, with its operation and its parameters, and
from there the sidecar. -/
def Reaches (c : ActiveCaller f) (a : PageAction urlsplit) (requestId : String) (s : Backend) : Prop :=
  let s' := (Stateful.exec (request repr c a requestId) s).2
  (∃ handled, s'.handled = s.handled ++ [handled] ∧ handled.requestId = .str requestId ∧
    handled.operation = .str a.operation ∧
    ∃ params, handled.params = .obj params ∧ params.Perm a.params) ∧
  s'.received = s.received ++ [a.call]

/-- The bounds of the hops in between, on the request's name and on the body that the viewer posts,
and a lease that is the caller's or can be made so. -/
def Deliverable (c : ActiveCaller f) (a : PageAction urlsplit) (requestId : String) (s : Backend) :
    Prop :=
  Text.bounded Text.utf8Length 128 requestId = true ∧
    (encode repr (agentBody requestId a.params)).length ≤ 4096 ∧ Admits repr c.binding s.lease

variable {repr} {c : ActiveCaller f} {a : PageAction urlsplit} {requestId : String} {s : Backend}
  {w : Surroundings} {browser : Browser}

/-- The viewer does no more than post the request. -/
theorem exec_request : (Stateful.exec (request repr c a requestId) s).2 =
    (Stateful.exec (postAgent repr (some f) a.operation (sendJson repr (agentBody requestId a.params))
      (some c.principalId) c.lookup) s).2 := by
  unfold request agent
  rw [if_neg (by simp),if_neg (not_not.mpr a.allowed),a.admitted]
  simp only [exec_bind,exec_outcome]
  rcases Stateful.exec (postAgent repr (some f) a.operation
    (sendJson repr (agentBody requestId a.params)) (some c.principalId) c.lookup) s with ⟨_ | answer,s'⟩
  · rfl
  · dsimp only
    by_cases hcode : 400 ≤ answer.code
    · rw [if_pos hcode]
      rfl
    · rw [if_neg hcode]
      rfl

/-- The router relays a body that it can read. -/
theorem exec_postAgent (hid : Text.bounded Text.utf8Length 128 requestId = true)
    (hshort : (encode repr (agentBody requestId a.params)).length ≤ 4096) :
    (Stateful.exec (postAgent repr (some f) a.operation
      (sendJson repr (agentBody requestId a.params)) (some c.principalId) c.lookup) s).2 =
    (Stateful.exec (c.requester.relay repr c.binding
      (relayBody repr requestId a.operation a.params)) s).2 := by
  have hinner := @length_agentBody repr requestId a.params
  let r : RelayedRequest :=
    ⟨requestId,a.operation,a.params,[("request_id",.str requestId),("params",.obj a.params)],hid,rfl,rfl⟩
  rw [postAgent,readBody_agentBody a.texts a.distinct,if_pos hshort]
  have hrouted := @RouterApi.agentAction_caller _ repr f c r a.allowed
    (target_of_accepts (dispatch_accepts a.accepted).1)
  have hforwarded := @RouterApi.forward_caller _ repr f c r a.allowed (by
    show (encode repr (.obj a.params)).length ≤ 8*1024
    omega)
  rw [Option.getD_some]
  refine (congrArg (fun m => (Stateful.exec m s).2) hrouted).trans ?_
  rw [exec_bind,exec_outcome,hforwarded,exec_bind]
  rcases Stateful.exec (c.requester.relay repr c.binding (relayBody repr r.requestId r.operation
    r.params)) s with ⟨_ | _,s'⟩
  · rfl
  · dsimp only
    rw [exec_check]
    rfl

/-- What the router cannot read, or has no name for, it answers by itself. -/
theorem exec_postAgent_refused (h : ¬(Text.bounded Text.utf8Length 128 requestId = true ∧
      (encode repr (agentBody requestId a.params)).length ≤ 4096)) :
    (Stateful.exec (postAgent repr (some f) a.operation
      (sendJson repr (agentBody requestId a.params)) (some c.principalId) c.lookup) s).2 = s := by
  rw [postAgent,readBody_agentBody a.texts a.distinct]
  by_cases hshort : (encode repr (agentBody requestId a.params)).length ≤ 4096
  · have hid : ¬Text.bounded Text.utf8Length 128 requestId = true := fun hid => h ⟨hid,hshort⟩
    have hget : Json.get [("request_id",.str requestId),("params",.obj a.params)] "request_id" =
        .str requestId := rfl
    rw [if_pos hshort,Option.getD_some]
    unfold RouterApi.agentAction
    rw [hget,RouterApi.boundedText,if_neg hid]
    rfl
  · rw [if_neg hshort]
    rfl

/-- Of the page actions that the viewer admits and that the service's own checks let through, those
reach the service and the sidecar that are deliverable: whose body, as the viewer writes it, is
within the router's limit. -/
theorem reaches_iff (hservice : c.requester = serviceRequester repr w browser urlsplit)
    (hempty : ∀ parsed, urlsplit "" = .ok parsed → parsed.netloc = "")
    (hready : ReadyFor w c.binding) :
    Reaches repr c a requestId s ↔ Deliverable repr c a requestId s := by
  have hgrows : ∀ {α : Type} (l : List α) (x : α), l ≠ l ++ [x] := by
    intro α l x h
    have hlength := congrArg List.length h
    simp at hlength
  constructor
  · rintro ⟨⟨handled,hhandled,-⟩,-⟩
    rw [exec_request] at hhandled
    by_cases hrouted : Text.bounded Text.utf8Length 128 requestId = true ∧
        (encode repr (agentBody requestId a.params)).length ≤ 4096
    · refine ⟨hrouted.1,hrouted.2,?_⟩
      by_contra hlease
      rw [exec_postAgent hrouted.1 hrouted.2,hservice,exec_relay_refused hlease] at hhandled
      exact hgrows _ _ hhandled
    · rw [exec_postAgent_refused hrouted] at hhandled
      exact absurd hhandled (hgrows _ _)
  · rintro ⟨hid,hshort,hlease⟩
    have hbounded : requestId ≠ "" ∧ requestId.length ≤ 128 := by
      have h := RouterApi.bounded_length hid
      simp only [Text.bounded,Bool.and_eq_true,decide_eq_true_eq] at h
      exact ⟨h.1.1,h.1.2⟩
    obtain ⟨sent,lease,-,hrelay⟩ := @exec_relay_admitted repr w browser urlsplit requestId a.operation
      a.params a.call c.binding s ⟨hbounded,a.texts,a.distinct,a.accepted,a.url hempty,hshort⟩ hready
      hlease
    rw [Reaches,exec_request,exec_postAgent hid hshort,hservice,hrelay]
    exact ⟨⟨_,rfl,rfl,rfl,_,rfl,perm_sortedParams a.params⟩,rfl⟩

end Reached

/-! ### Alice types into her first tab -/

def readySlot : Surroundings where
  probe _ := .ok ⟨"alice","generation-a",true⟩
  answer _ := .ok (.obj [("ok",.bool true)])

/-- `urlsplit` of the empty text, which is all that is asked of it here. -/
def noHost (_ : String) : Except Unit SplitResult := .ok ⟨"","","","","",none,none⟩

def slotService : RouterApi.Requester Backend :=
  serviceRequester RouterApi.noFloats readySlot httpAgentBrowser noHost

def slotForwarder : AgentControlForwarder Backend where
  requesters := [("slot-1",slotService)]
  valid := by
    simp only [List.mem_singleton,forall_eq]
    decide

def typist : ActiveCaller slotForwarder where
  principalId := "alice"
  lookup _ := some (some RouterApi.relayedSession)
  session := RouterApi.relayedSession
  binding := RouterApi.relayedBinding
  slotId := "slot-1"
  requester := slotService
  found := RouterApi.lookup_always RouterApi.relayedSession "alice"
  active := RouterApi.relayedSession_active
  bound := RouterApi.relayedSession_bound
  held := RouterApi.relayedSession_held
  known := rfl

def typedParams (text : String) : List (String × Json) :=
  [("target_tab_id",.str "tab-1"),("selector",.str "#note"),("text",.str text)]

theorem admits_typist : Admits RouterApi.noFloats typist.binding aliceLease :=
  ⟨RouterApi.relayedBinding,by decide +kernel,.inl (by decide +kernel)⟩

theorem readyFor_typist : ReadyFor readySlot typist.binding := by
  intro sent hsent received
  have hsame : sentBinding typist.binding = some RouterApi.relayedBinding := by decide +kernel
  rw [hsame] at hsent
  cases hsent
  exact ⟨_,rfl,by decide,rfl⟩

def greeting : PageAction noHost where
  operation := "type"
  params := typedParams "hello"
  call := .typeText "tab-1" "#note" "hello"
  distinct := by decide
  admitted := by decide +kernel
  accepted := by decide +kernel

theorem reaches_iff_greeting :
    Reaches RouterApi.noFloats typist greeting "r1" ⟨aliceLease,[],[]⟩ ↔
      Deliverable RouterApi.noFloats typist greeting "r1" ⟨aliceLease,[],[]⟩ :=
  @reaches_iff RouterApi.noFloats noHost slotForwarder typist greeting "r1" ⟨aliceLease,[],[]⟩
    readySlot httpAgentBrowser rfl (by rintro _ ⟨⟩; rfl) readyFor_typist

/-- A text of accented letters: two bytes each in UTF-8, and six as escapes. -/
def accents (n : ℕ) : String := String.ofList (List.replicate n 'é')

theorem utf8Length_accents (n : ℕ) : Text.utf8Length (accents n) = 2*n := by
  rw [accents,Text.utf8Length_ofList]
  induction n with
  | zero => rfl
  | succ n ih =>
    rw [List.replicate_succ,Text.byteSize_cons,ih,show 'é'.utf8Size = 2 from rfl]
    omega

theorem dumpedLength_accents (n : ℕ) : Json.dumpedLength (accents n) = 6*n+2 := by
  have hescape : (Json.escapeChar 'é').length = 6 := by decide
  rw [Json.dumpedLength,Json.dumpString,accents,String.toList_ofList]
  induction n with
  | zero => rfl
  | succ n ih =>
    simp only [List.replicate_succ,List.flatMap_cons,List.length_cons,List.length_append,hescape,
      List.length_nil,List.cons_append,List.append_assoc] at ih ⊢
    omega

theorem lower_accents (n : ℕ) : Text.lower (accents n) = List.replicate n 'é' := by
  rw [Text.lower,accents,String.toList_ofList]
  induction n with
  | zero => rfl
  | succ n ih =>
    rw [List.replicate_succ,List.flatMap_cons,ih]
    rfl

theorem plain_accents (n : ℕ) : containsSensitiveMarker (accents n) = false := by
  have hmarked : (sensitiveTextMarkers.all fun marker => marker.toList.any (· ≠ 'é')) = true := rfl
  rw [containsSensitiveMarker,List.any_eq_false]
  intro marker hmarker hmentions
  obtain ⟨c,hc,hne⟩ := List.any_eq_true.mp (List.all_eq_true.mp hmarked marker hmarker)
  rw [Text.mentions,lower_accents,List.any_eq_true] at hmentions
  obtain ⟨tail,htail,hfound⟩ := hmentions
  have hmem := ((List.isPrefixOf_iff_prefix.mp hfound).subset hc)
  exact of_decide_eq_true hne
    (List.eq_of_mem_replicate (((List.mem_tails _ _).mp htail).subset hmem))

theorem dispatch_typed (text : String) : dispatch noHost "type" (typedParams text) =
    if text = "" ∨ Text.utf8Length text > 4096 ∨ containsSensitiveMarker text = true then
      throw (.valueError "text is invalid")
    else perform (.browser (.typeText "tab-1" "#note" text)) >>= fun _ => pure none := by
  unfold dispatch
  rfl

theorem length_typed (text : String) : (encode RouterApi.noFloats (.obj (typedParams text))).length =
    52 + Json.dumpedLength text := by
  simp only [typedParams,encode,Json.encodeField,Json.encodeFields,List.cons_append,
    List.length_cons,List.length_append,Json.dumpedLength]
  simp only [show (Json.dumpString "target_tab_id").length = 15 from rfl,
    show (Json.dumpString "tab-1").length = 7 from rfl,
    show (Json.dumpString "selector").length = 10 from rfl,
    show (Json.dumpString "#note").length = 7 from rfl,
    show (Json.dumpString "text").length = 6 from rfl,List.length_nil]
  omega

/-- Seven hundred of them are a text that the viewer and the service take. -/
def accented : PageAction noHost where
  operation := "type"
  params := typedParams (accents 700)
  call := .typeText "tab-1" "#note" (accents 700)
  distinct := by decide
  admitted := by
    have hlength := utf8Length_accents 700
    simp [agentParamsValid,typedParams,paramAllowed,agentLimits,hlength,List.lookup_cons]
    decide
  accepted := by
    have hlength := utf8Length_accents 700
    have hplain := plain_accents 700
    have hfull : accents 700 ≠ "" := by
      intro hempty
      rw [hempty] at hlength
      cases hlength
    have hchecked : ¬(accents 700 = "" ∨ Text.utf8Length (accents 700) > 4096 ∨
        containsSensitiveMarker (accents 700) = true) := by
      simp [hfull,hlength,hplain]
    rw [dispatch_typed,if_neg hchecked]
    rfl

/-- The router refuses a text that all the others take. -/
theorem accents_refused : ¬∀ (repr : ℚ → List Char) (urlsplit : String → Except Unit SplitResult)
    (w : Surroundings) (browser : Browser) (f : AgentControlForwarder Backend) (c : ActiveCaller f)
    (a : PageAction urlsplit) (requestId : String) (s : Backend),
    c.requester = serviceRequester repr w browser urlsplit →
    (∀ parsed, urlsplit "" = .ok parsed → parsed.netloc = "") → ReadyFor w c.binding →
    Text.bounded Text.utf8Length 128 requestId = true → Admits repr c.binding s.lease →
    Reaches repr c a requestId s := by
  intro h
  have hlong : ¬(encode RouterApi.noFloats (agentBody "r1" accented.params)).length ≤ 4096 := by
    have hlength := dumpedLength_accents 700
    have htyped := length_typed (accents 700)
    have hparams : accented.params = typedParams (accents 700) := rfl
    rw [length_agentBody,hparams]
    omega
  obtain ⟨⟨handled,hhandled,-⟩,-⟩ := h RouterApi.noFloats noHost readySlot httpAgentBrowser
    slotForwarder typist accented "r1" ⟨aliceLease,[],[]⟩ rfl (by rintro _ ⟨⟩; rfl) readyFor_typist
    (by decide) admits_typist
  rw [exec_request,exec_postAgent_refused fun h => hlong h.2] at hhandled
  cases hhandled

end ViewerSessionSurface
end CloudBrowser
