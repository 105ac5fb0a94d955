import CloudBrowser.CredentialLogin

/-! Which logins the router can mint for: the exact lengths at which the bounds of the session
store, of the endpoint, of the capability and of the forwarder agree. -/
namespace CloudBrowser
namespace RouterApi
open Capability
open RouterSessions (RouterSession Router Event Settings Store)

theorem nonce_plain (n : Nonce) : requireText 128 n.text = true ∧
    isCanonicalIdentifier n.text = true ∧ Json.escapedSize n.text = 32 := by
  have hlen : (Base64.encode n.bytes).length = 32 := by
    rw [Base64.length_encode,n.length_bytes]
  have hplain := inToken_encode n.bytes
  have hsize : Text.utf8Length n.text = 32 := by
    rw [Nonce.text,Text.utf8Length_ofList,byteSize_plain hplain,hlen]
  refine ⟨?_,?_,?_⟩
  · apply bounded_plain hplain
    · intro hnil
      rw [hnil] at hlen
      cases hlen
    · exact hsize.trans_le (by decide)
  · have hcanonical : ∀ c ∈ Base64.alphabet,
        (c.val < 0x80 && (c.isAlphanum || c = '_' || c = '-' || c = '~')) = true :=
      Base64.forall_alphabet (by decide)
    simp only [isCanonicalIdentifier,Nonce.text,String.toList_ofList,List.all_eq_true]
    exact fun c hc => hcanonical c (Base64.encode_alphabet _ c hc)
  · rw [Json.escapedSize,Nonce.text,String.toList_ofList,
      flatMap_plain (fun c hc => (inToken_plain hc).2.2.2) hplain,byteSize_plain hplain,hlen]

/-- The body holds the token as it is, and seventeen signs around it. -/
theorem byteSize_forwardBody {token : String} (h : ∀ c ∈ token.toList, inToken c) :
    Text.byteSize (forwardBody token) = token.length+17 := by
  have hdump : Json.dumpString token = '"' :: token.toList ++ ['"'] := by
    rw [Json.dumpString,flatMap_plain (fun c hc => (inToken_plain hc).2.2.1) h]
  have hname : Text.byteSize (Json.dumpString "capability") = 12 := by decide
  have hsigns : ('"').utf8Size = 1 ∧ (':').utf8Size = 1 ∧ ('\x7b').utf8Size = 1 ∧
      ('\x7d').utf8Size = 1 := by decide
  simp only [forwardBody,hdump,List.cons_append,Text.byteSize_cons,Text.byteSize_append,hname,
    Text.byteSize_nil,byteSize_plain h,hsigns,String.length_toList]
  omega

/-- What is minted for a caller is forwarded and accepted: minting raises nothing, the forwarder
lets token and body pass, and the broker's decoder gives the claims back throughout their
lifetime. -/
def Minter.Serves (m : Minter) (principalId : String) (binding : BrowserBinding) (login : LoginBody)
    (now : ℤ) (nonce : Nonce) : Prop :=
  ∃ capability token,
    m.mint (m.claims principalId binding login now nonce) = .ok (capability,token) ∧
    capability.toClaims = m.claims principalId binding login now nonce ∧
    (∃ body, checkForward token login.requestId = .ok body) ∧
    ∀ t : Time, now ≤ t → t < now+m.capabilityTtl →
      m.codec.decodeFor token (.number t)
        ⟨some m.capabilityAudience,some m.deployment,some "credential.login"⟩ = .ok capability

/-- The lengths at which all bounds agree: `profile-` and `generation-` leave 248 and 245 bytes
for what they are put before, and everything together leaves the body below 4096 bytes. -/
structure Minter.Fits (m : Minter) (principalId sessionId browserId : String) (login : LoginBody)
    (now : ℤ) : Prop where
  principal : Text.utf8Length principalId ≤ 248
  session : Text.utf8Length sessionId ≤ 245
  browser : requireText 256 browserId = true
  audience : requireText 256 m.capabilityAudience = true
  deployment : requireText 256 m.deployment = true
  total : 2*Json.escapedSize principalId+Json.escapedSize sessionId+Json.escapedSize browserId+
    Json.escapedSize login.siteId+Json.escapedSize login.targetTabId+
    Json.escapedSize login.requestId+Json.escapedSize m.capabilityAudience+
    Json.escapedSize m.deployment+Text.byteSize (Json.writeInt now)+
    Text.byteSize (Json.writeInt (now+m.capabilityTtl)) ≤ 2759

section Exact
variable {m : Minter} {principalId sessionId browserId : String} {login : LoginBody} {now : ℤ}
  {nonce : Nonce}

/-- The binding that the store gives a session. -/
def storeBinding (principalId sessionId browserId : String) : BrowserBinding :=
  ⟨"profile-" ++ principalId,principalId,browserId,"generation-" ++ sessionId⟩

theorem requireText_stem {stem s : String} {limit : ℕ} (hstem : stem.toList.any Text.isControl = false)
    (hs : s.toList.any Text.isControl = false) (hne : stem ≠ "") :
    requireText limit (stem ++ s) = true ↔ Text.utf8Length stem+Text.utf8Length s ≤ limit := by
  have hsome : stem ++ s ≠ "" := by simp [hne]
  have hlen : Text.utf8Length (stem ++ s) = Text.utf8Length stem+Text.utf8Length s :=
    String.utf8ByteSize_append
  simp [requireText,Text.bounded,hsome,hlen,hstem,hs]

theorem claims_wellFormed (hprincipal : Text.bounded String.length 256 principalId = true)
    (hsession : sessionId.toList.any Text.isControl = false) :
    (m.claims principalId (storeBinding principalId sessionId browserId) login now
        nonce).WellFormed ↔
      Text.utf8Length principalId ≤ 248 ∧ Text.utf8Length sessionId ≤ 245 ∧
      requireText 256 browserId = true ∧ requireText 256 m.capabilityAudience = true ∧
      requireText 256 m.deployment = true := by
  simp only [Text.bounded,Bool.and_eq_true,decide_eq_true_eq,Bool.not_eq_true'] at hprincipal
  have hprofile : requireText 256 ("profile-" ++ principalId) = true ↔
      Text.utf8Length principalId ≤ 248 := by
    have hlen : Text.utf8Length "profile-" = 8 := by decide
    rw [requireText_stem (by decide) hprincipal.2 (by decide),hlen]
    omega
  have hgeneration : requireText 256 ("generation-" ++ sessionId) = true ↔
      Text.utf8Length sessionId ≤ 245 := by
    have hlen : Text.utf8Length "generation-" = 11 := by decide
    rw [requireText_stem (by decide) hsession (by decide),hlen]
    omega
  constructor
  · intro h
    have hfields := h.fields
    simp only [Claims.fields,Minter.claims,storeBinding,List.forall_mem_cons,hprofile,
      hgeneration] at hfields
    obtain ⟨hp,-,hb,hg,-,-,-,ha,hd,-⟩ := hfields
    exact ⟨hp,hg,hb,ha,hd⟩
  · rintro ⟨hp,hs,hb,ha,hd⟩
    have hid : requireText 256 principalId = true := by
      have hle : Text.utf8Length principalId ≤ 256 := by omega
      simp [requireText,Text.bounded,hprincipal.1.1,hle,hprincipal.2]
    have hop : requireText 256 "credential.login" = true := by decide
    constructor
    · simp only [Claims.fields,Minter.claims,storeBinding,List.forall_mem_cons,hprofile,
        hgeneration]
      exact ⟨hp,hid,hb,hs,login.siteId_bounded,login.targetTabId_bounded,hop,ha,hd,
        fun _ hf => by cases hf⟩
    · exact login.requestId_bounded
    · exact (nonce_plain nonce).1
    · exact (nonce_plain nonce).2.1
    · rfl
    · exact Int.lt_add_of_pos_right now m.capabilityTtl_pos
    · have hle := m.capabilityTtl_le
      simp only [Minter.claims]
      omega

theorem payloadSize_claims (nonce : Nonce) :
    (m.claims principalId (storeBinding principalId sessionId browserId) login now
        nonce).payloadSize =
      265+(2*Json.escapedSize principalId+Json.escapedSize sessionId+Json.escapedSize browserId+
      Json.escapedSize login.siteId+Json.escapedSize login.targetTabId+
      Json.escapedSize login.requestId+Json.escapedSize m.capabilityAudience+
      Json.escapedSize m.deployment+Text.byteSize (Json.writeInt now)+
      Text.byteSize (Json.writeInt (now+m.capabilityTtl))) := by
  have hprofile : Json.escapedSize "profile-" = 8 := by decide
  have hgeneration : Json.escapedSize "generation-" = 11 := by decide
  have hop : Json.escapedSize "credential.login" = 16 := by decide
  have hnonce := (nonce_plain nonce).2.2
  simp only [payloadSize_eq,Minter.claims,storeBinding,Claims.toDict,List.map_cons,List.map_nil,
    List.sum_cons,List.sum_nil,Json.Atom.write,Json.byteSize_writeString_eq,Json.escapedSize_append,
    hprofile,hgeneration,hop,hnonce]
  ring

theorem mint_ok {claims : Claims} {capability : CredentialCapability} {token : String} :
    m.mint claims = .ok (capability,token) ↔
      capability.toClaims = claims ∧ m.codec.encode capability = some token := by
  unfold Minter.mint
  split
  · rename_i h
    cases htoken : m.codec.encode ⟨claims,h⟩ with
    | none =>
      simp only [reduceCtorEq,false_iff]
      rintro ⟨rfl,hcapability⟩
      cases htoken.symm.trans hcapability
    | some token' =>
      simp only [Except.ok.injEq,Prod.mk.injEq]
      constructor
      · rintro ⟨rfl,rfl⟩
        exact ⟨rfl,htoken⟩
      · rintro ⟨rfl,hcapability⟩
        exact ⟨rfl,Option.some.inj (htoken.symm.trans hcapability)⟩
  · rename_i h
    simp only [reduceCtorEq,false_iff]
    rintro ⟨rfl,-⟩
    exact h capability.valid

/-- The forwarder lets a token pass exactly if its body is no longer than 4096 bytes. -/
theorem checkForward_ok {capability : CredentialCapability} {token : String}
    (h : m.codec.encode capability = some token) (login : LoginBody) :
    (∃ body, checkForward token login.requestId = .ok body) ↔ capability.payloadSize ≤ 3024 := by
  have hplain : ∀ c ∈ token.toList, inToken c := by
    obtain ⟨text,-,rfl⟩ := Option.map_eq_some_iff.mp h
    exact inToken_seal _ text
  have hlength : token.length = 47+(4*capability.payloadSize+2)/3 := length_encode h
  have hbody := byteSize_forwardBody hplain
  have hid : Text.bounded String.length 128 login.requestId = true := by
    have hbounded := login.requestId_bounded
    have hle := Text.length_le_utf8Length login.requestId
    simp only [Text.bounded,Bool.and_eq_true,decide_eq_true_eq] at hbounded ⊢
    exact ⟨⟨hbounded.1.1,hle.trans hbounded.1.2⟩,hbounded.2⟩
  have hne : token.toList ≠ [] := by
    intro hnil
    rw [← String.length_toList,hnil,List.length_nil] at hlength
    omega
  have hsize : Text.utf8Length token = token.length := by
    rw [Text.utf8Length_eq,byteSize_plain hplain,String.length_toList]
  unfold checkForward
  rw [hid,hbody]
  constructor
  · rintro ⟨body,hok⟩
    split_ifs at hok with _ _ hlarge
    omega
  · intro hle
    have hbounded : Text.bounded Text.utf8Length (16*1024) token = true := by
      have hbounded := @bounded_plain token.toList (16*1024) Text.utf8Length hplain hne
        (by rw [String.ofList_toList]; omega)
      rwa [String.ofList_toList] at hbounded
    rw [hbounded,if_neg (by decide),if_neg (by decide),if_neg (by omega)]
    exact ⟨_,rfl⟩

/-- What is minted and forwarded is decoded to the claims that the router put in. -/
theorem decode_minted {claims : Claims} {capability : CredentialCapability} {token : String}
    (hmint : m.mint claims = .ok (capability,token))
    (hforward : ∃ body, checkForward token login.requestId = .ok body) {t : Time}
    (hfrom : claims.issuedAt ≤ t) (huntil : t < claims.expiresAt) :
    m.codec.decodeFor token (.number t) claims.own = .ok capability := by
  obtain ⟨rfl,htoken⟩ := mint_ok.mp hmint
  have hle := (checkForward_ok htoken login).mp hforward
  have hlength : token.length = 47+(4*capability.payloadSize+2)/3 := length_encode htoken
  have hwithin : (Now.number t).Within capability.toClaims :=
    within_iff.mpr (Or.inr ⟨t,rfl,hfrom,huntil⟩)
  exact decodeFor_eq_ok.mpr ⟨by omega,carries_encode htoken,hwithin,own_agrees _⟩

theorem serves_of_forwarded {binding : BrowserBinding} {capability : CredentialCapability}
    {token : String}
    (hmint : m.mint (m.claims principalId binding login now nonce) = .ok (capability,token))
    (hforward : ∃ body, checkForward token login.requestId = .ok body) :
    m.Serves principalId binding login now nonce := by
  refine ⟨capability,token,hmint,(mint_ok.mp hmint).1,hforward,?_⟩
  intro t hfrom huntil
  have huntil' : t < (m.claims principalId binding login now nonce).expiresAt := by
    simp only [Minter.claims]
    exact_mod_cast huntil
  exact decode_minted hmint hforward hfrom huntil'

/-- The endpoint is served exactly at the lengths at which all bounds agree. -/
theorem serves_iff (hprincipal : Text.bounded String.length 256 principalId = true)
    (hsession : sessionId.toList.any Text.isControl = false) :
    m.Serves principalId (storeBinding principalId sessionId browserId) login now nonce ↔
      m.Fits principalId sessionId browserId login now := by
  have hwell := @claims_wellFormed m principalId sessionId browserId login now nonce hprincipal hsession
  have hsize := @payloadSize_claims m principalId sessionId browserId login now nonce
  constructor
  · rintro ⟨capability,token,hmint,hclaims,hforward,-⟩
    have htoken := (mint_ok.mp hmint).2
    have hle := (checkForward_ok htoken login).mp hforward
    have hvalid := invalid_eq_none.mp capability.valid
    rw [hclaims] at hle hvalid
    obtain ⟨hp,hs,hb,ha,hd⟩ := hwell.mp hvalid
    exact ⟨hp,hs,hb,ha,hd,by omega⟩
  · intro h
    have hvalid := hwell.mpr ⟨h.principal,h.session,h.browser,h.audience,h.deployment⟩
    have htotal := h.total
    obtain ⟨capability,hclaims⟩ : ∃ capability : CredentialCapability, capability.toClaims =
      m.claims principalId (storeBinding principalId sessionId browserId) login now nonce :=
      ⟨⟨_,invalid_eq_none.mpr hvalid⟩,rfl⟩
    have hdigits : ∀ i : ℤ, Text.byteSize (Json.writeInt i) ≤ 2759 →
        (Nat.toDigits 10 i.natAbs).length ≤ Json.maxStrDigits := by
      intro i hi
      rw [Json.byteSize_writeInt] at hi
      simp only [Json.maxStrDigits]
      omega
    have hissued : capability.issuedAt = now := congrArg Claims.issuedAt hclaims
    have hexpires : capability.expiresAt = now+m.capabilityTtl := congrArg Claims.expiresAt hclaims
    obtain ⟨token,htoken⟩ := @encode_writable m.secret m.secret_length capability
      (hissued ▸ hdigits now (by omega)) (hexpires ▸ hdigits (now+m.capabilityTtl) (by omega))
    have hle : capability.payloadSize ≤ 3024 := by
      rw [hclaims]
      omega
    exact serves_of_forwarded (mint_ok.mpr ⟨hclaims,htoken⟩) ((checkForward_ok htoken login).mpr hle)

/-- A caller who is served gets the broker's answer, and anyone else an invalid request. -/
theorem credentialLogin_eq {fields : List (String × Json)} {session : RouterSession}
    {binding : BrowserBinding} {lookup : String → Option (Option RouterSession)} {clock : Time}
    (hparse : LoginBody.parse fields = some login)
    (hlookup : lookup principalId = some (some session)) (hactive : session.status = .active)
    (hbinding : session.binding = some binding) (hslot : session.slotId.isSome)
    (howner : binding.principalId = principalId)
    (post : List Char → Except ForwardError BrokerAnswer) :
    (m.Serves principalId binding login (truncate clock) nonce → ∃ body,
      credentialLogin (some m) fields (some principalId) lookup clock nonce post =
        match post body with
        | .ok answer => (200,⟨login.requestId,answer.status,answer.errorCode,some answer.durationMs⟩)
        | .error .unavailable => (200,failed login.requestId "broker_unavailable")
        | .error (.invalid _) => (200,failed login.requestId "invalid_request")) ∧
    (¬m.Serves principalId binding login (truncate clock) nonce →
      credentialLogin (some m) fields (some principalId) lookup clock nonce post =
        (200,failed login.requestId "invalid_request")) := by
  obtain ⟨slotId,hslot⟩ := Option.isSome_iff_exists.mp hslot
  have hrun := credentialLogin.eq_def (some m) fields (some principalId) lookup clock nonce post
  simp only [hparse,hlookup,hactive,hbinding,hslot,howner,ne_eq,not_true_eq_false,if_false] at hrun
  rw [hrun]
  constructor
  · rintro ⟨capability,token,hmint,-,⟨body,hforward⟩,-⟩
    refine ⟨body,?_⟩
    rw [hmint]
    dsimp only
    rw [hforward]
    dsimp only [Except.bind]
    rcases post body with (_ | _) | answer <;> rfl
  · intro hserves
    cases hmint : m.mint (m.claims principalId binding login (truncate clock) nonce) with
    | error message => rfl
    | ok minted =>
      cases hforward : checkForward minted.2 login.requestId with
      | ok body => exact absurd (serves_of_forwarded hmint ⟨body,hforward⟩) hserves
      | error e =>
        have hinvalid : ∃ message, e = .invalid message := by
          unfold checkForward at hforward
          split_ifs at hforward <;> cases hforward <;> exact ⟨_,rfl⟩
        obtain ⟨message,rfl⟩ := hinvalid
        dsimp only
        rw [hforward]
        rfl

theorem sessionName_printable (n : ℕ) :
    (RouterSessions.sessionName n).toList.any Text.isControl = false := by
  have hlist : (RouterSessions.sessionName n).toList = 'q' :: '-' :: Nat.toDigits 10 n := by
    simp [RouterSessions.sessionName]
  have hdigits : (Nat.toDigits 10 n).any Text.isControl = false := by
    simp only [List.any_eq_false,Bool.not_eq_true]
    intro c hc
    have hdigit := Json.isDigit_toDigits n c hc
    simp only [Char.isDigit,Bool.and_eq_true,decide_eq_true_eq,ge_iff_le,UInt32.le_iff_toNat_le]
      at hdigit
    simp only [Text.isControl,Bool.or_eq_false_iff,decide_eq_false_iff_not,beq_eq_false_iff_ne,
      ne_eq,UInt32.lt_iff_toNat_lt,← UInt32.toNat_inj]
    have hbounds : ('0').val.toNat = 48 ∧ ('9').val.toNat = 57 ∧ (0x20:UInt32).toNat = 32 ∧
      (0x7F:UInt32).toNat = 127 := by decide
    omega
  have hq : Text.isControl 'q' = false ∧ Text.isControl '-' = false := by decide
  rw [hlist,List.any_cons,List.any_cons,hdigits,hq.1,hq.2]
  rfl

/-- What a run of the router gives an active session. -/
theorem active_binding (es : List Event) {settings : Settings} {s : Store}
    (hrun : Router.initial.run es = .up settings s) {r : RouterSession} (hr : r ∈ s.sessions)
    (hactive : r.status = .active) : r.slotId.isSome ∧
      (∃ browserId, r.binding = some (storeBinding r.principalId r.sessionId browserId)) ∧
      Text.bounded String.length 256 r.principalId = true ∧
      r.sessionId.toList.any Text.isControl = false := by
  have hmade := (RouterSessions.sound_run es hrun).2 r hr
  obtain ⟨slot,hslot,hbinding⟩ := RouterSessions.housed_run es hrun r hr
    (by simp [hactive,RouterSessions.SessionStatus.occupies])
  obtain ⟨n,-,hname⟩ := hmade.named
  refine ⟨by simp [hslot],⟨slot.browserId,hbinding⟩,hmade.principalId,?_⟩
  rw [hname]
  exact sessionName_printable n

end Exact

/-- A session that any run of the router makes active is served exactly at the lengths at which
all bounds agree. -/
theorem minted_accepted_iff (es : List Event) {settings : Settings} {s : Store}
    (hrun : Router.initial.run es = .up settings s) {r : RouterSession} (hr : r ∈ s.sessions)
    (hactive : r.status = .active) (m : Minter) (login : LoginBody) (now : ℤ) (nonce : Nonce) :
    ∃ binding, r.binding = some binding ∧ r.slotId.isSome ∧
      binding.principalId = r.principalId ∧
      (m.Serves r.principalId binding login now nonce ↔
        m.Fits r.principalId r.sessionId binding.browserId login now) := by
  obtain ⟨hslot,⟨browserId,hbinding⟩,hprincipal,hsession⟩ := active_binding es hrun hr hactive
  exact ⟨_,hbinding,hslot,rfl,serves_iff hprincipal hsession⟩

/-- A session that is active under a name. -/
def activeAs (principalId : String) : List Event :=
  [.construct RouterSessions.oneSlot (.still 0),.call (.enqueue principalId "r1" none) (.still 0),
    .call (.activate "q-1") (.still 0)]

/-- The first active session of a router that is up. -/
def active? (r : Router) : Option RouterSession := r.sessions.rows.find? fun x => x.status = .active

theorem active?_run {es : List Event} {r : RouterSession}
    (h : active? (Router.initial.run es) = some r) : ∃ settings s,
      Router.initial.run es = .up settings s ∧ r ∈ s.sessions ∧ r.status = .active := by
  have hstatus := List.find?_some h
  have hmem := List.mem_of_find?_eq_some h
  cases hrun : Router.initial.run es with
  | down file =>
    rw [hrun] at hmem
    cases hmem
  | up settings s =>
    rw [hrun] at hmem
    exact ⟨settings,s,rfl,hmem,of_decide_eq_true hstatus⟩

def plainMinter : Minter where
  secret := List.replicate 16 0
  secret_length := by decide
  capabilityAudience := "credential-broker"
  instanceId := "router"
  capabilityTtl := 26
  capabilityTtl_pos := by decide
  capabilityTtl_le := by decide

def plainLogin : LoginBody := ⟨"request","site","tab",by decide,by decide,by decide⟩

def zeroNonce : Nonce := ⟨List.replicate 24 0,by decide⟩

theorem minted_accepted_alice : ∃ r : RouterSession, ∃ binding, r.binding = some binding ∧
    r.slotId.isSome ∧ binding.principalId = r.principalId ∧
    (plainMinter.Serves r.principalId binding plainLogin 0 zeroNonce ↔
      plainMinter.Fits r.principalId r.sessionId binding.browserId plainLogin 0) := by
  have hsome : (active? (Router.initial.run (activeAs "alice"))).isSome = true := by decide +kernel
  obtain ⟨r,hr⟩ := Option.isSome_iff_exists.mp hsome
  obtain ⟨settings,s,hrun,hmem,hactive⟩ := active?_run hr
  exact ⟨r,minted_accepted_iff _ hrun hmem hactive plainMinter plainLogin 0 zeroNonce⟩

/-- A name of 249 bytes is admitted by the store, and its capability is not. -/
theorem long_name_not_served : ¬∀ (es : List Event) (settings : Settings) (s : Store),
    Router.initial.run es = .up settings s → ∀ r ∈ s.sessions, r.status = .active →
    ∀ (m : Minter) (login : LoginBody) (now : ℤ) (nonce : Nonce) (binding : BrowserBinding),
      r.binding = some binding → m.Serves r.principalId binding login now nonce := by
  intro h
  have hname : (active? (Router.initial.run (activeAs (String.ofList (List.replicate 83 '€'))))).map
      (fun r => Text.utf8Length r.principalId) = some 249 := by decide +kernel
  obtain ⟨r,hr,hlong⟩ := Option.map_eq_some_iff.mp hname
  obtain ⟨settings,s,hrun,hmem,hactive⟩ := active?_run hr
  obtain ⟨-,⟨browserId,hbinding⟩,hprincipal,hsession⟩ := active_binding _ hrun hmem hactive
  have hserves := h _ _ _ hrun r hmem hactive plainMinter plainLogin 0 zeroNonce _ hbinding
  have hfits := ((serves_iff hprincipal hsession).mp hserves).principal
  omega

end RouterApi
end CloudBrowser
