import CloudBrowser.LoginRoute
import Mathlib.Tactic.NormNum

/-! A capability is consumed once, as long as its nonce is not pruned while a request that
carries it is still under way. -/
namespace CloudBrowser
namespace LoginRoute

open Interleave Capability
open Idempotency (BrokerResult)

section Contracts

variable (server : Server) (requests : ℕ → Request)

/-- The request carries a token of the capability. -/
def Carries (r : Request) (capability : CredentialCapability) : Prop :=
  ∃ token codec, r.token = some token ∧ server.codec = some codec ∧
    codec.authenticate token = .ok capability

/-- The call consumes the capability that it carries, before its expiry by its own reading of
the clock, and reaches the coordinator only after that. -/
def Performs (t : ℕ) : Action → State → Prop
  | .consume capability now _, _ => Carries server (requests t) capability ∧ now < capability.expiresAt
  | .execute _ _, s => ∃ capability, (t,capability) ∈ s.record.consumed
  | _, _ => True

def contract (t : ℕ) : Contract Action Answer ServerError State where
  step a r s s' := ∃ x, exec server t a x s = some (r,s')
  pre := Performs server requests t
  rely s s' := s.record.consumed ⊆ s'.record.consumed
  guar s s' := s.record.consumed ⊆ s'.record.consumed
  rely_refl _ := fun _ h => h
  rely_trans _ _ _ h h' := fun _ he => h' (h he)

variable {server} {requests} {t : ℕ} {s s' : State} {x : Choice}

theorem Carries.unique {r r' : Request} {capability capability' : CredentialCapability}
    (h : Carries server r capability) (h' : Carries server r' capability') (hr : r.token = r'.token) :
    capability = capability' := by
  obtain ⟨token,codec,htoken,hcodec,hauth⟩ := h
  obtain ⟨token',codec',htoken',hcodec',hauth'⟩ := h'
  rw [htoken,htoken'] at hr
  cases hr
  rw [hcodec] at hcodec'
  cases hcodec'
  rw [hauth] at hauth'
  cases hauth'
  rfl

theorem consume_cases {capability : CredentialCapability} {now : ℤ} {r : Except ServerError Bool}
    (h : s.consume server t capability now = (r,s')) :
    s' = s ∧ r ≠ .ok true ∨
    (∀ row ∈ s.nonces, row.key = nonceKey capability.toClaims → row.expiresAt ≤ now) ∧ r = .ok true ∧
      s' = { s with
        nonces := (s.nonces.keep fun row => now < row.expiresAt).put
          ⟨nonceKey capability.toClaims,capability.expiresAt⟩
        record := { s.record with
          consumed := (t,capability) :: s.record.consumed
          pruned := (s.nonces.rows.filter fun row => row.expiresAt ≤ now).map (·.key) ++
            s.record.pruned } } := by
  unfold State.consume at h
  dsimp only at h
  split at h
  · cases h
    exact .inl ⟨rfl,fun h => by cases h⟩
  rename_i hfind
  split at h
  · cases h
    exact .inl ⟨rfl,fun h => by cases h⟩
  · cases h
    refine .inr ⟨fun row hrow hkey => ?_,rfl,rfl⟩
    by_contra hlate
    have hnone : ∀ row ∈ s.nonces, now < row.expiresAt → row.key ≠ nonceKey capability.toClaims := by
      simpa using hfind
    exact hnone row hrow (Int.not_le.mp hlate) hkey

theorem exec_consumed {a : Action} {r : Except ServerError (Answer a)}
    (h : exec server t a x s = some (r,s')) : s.record.consumed ⊆ s'.record.consumed := by
  cases a with
  | deadline expiresAt =>
    simp only [exec] at h
    split at h
    all_goals cases h
    all_goals exact fun _ he => he
  | consume capability now deadline =>
    simp only [exec] at h
    split at h
    · cases h
      exact fun _ he => he
    split at h
    · rcases consume_cases (Option.some.inj h) with ⟨rfl,-⟩ | ⟨-,-,rfl⟩
      · exact fun _ he => he
      · exact fun _ he => List.mem_cons_of_mem _ he
    · cases h
      exact fun _ he => he
  | _ =>
    cases h
    exact fun _ he => he

end Contracts

section Walk

variable {server : Server} {requests : ℕ → Request} {t : ℕ} {P : State → Prop} {α : Type}

/-- The call has consumed a capability. -/
def Consumed (t : ℕ) (s : State) : Prop := ∃ capability, (t,capability) ∈ s.record.consumed

theorem stable_consumed : (contract server requests t).Stable (Consumed t) :=
  fun _ _ ⟨capability,h⟩ hr => ⟨capability,hr h⟩

theorem stable_true : (contract server requests t).Stable fun _ => True := fun _ _ _ _ => trivial

/-- A call that was told so has consumed a capability. -/
def Told (t : ℕ) (consumed : Bool) (s : State) : Prop := consumed = true → Consumed t s

theorem stable_told : ∀ r : Except ServerError Bool, (contract server requests t).Stable (Contract.Returns (Told t) r) :=
  Contract.stable_returns fun _ s s' h hr ht => stable_consumed s s' (h ht) hr

/-- A step that is allowed; only the consumption of a capability is followed. -/
theorem act_triple {a : Action} (hP : (contract server requests t).Stable P)
    (hpre : ∀ s, P s → Performs server requests t a s) :
    (contract server requests t).Triple P (perform a) (fun _ _ => True) := by
  refine Contract.Triple.perform hP hpre (fun s r s' hs hstep => ?_) fun _ => stable_true
  obtain ⟨x,hx⟩ := hstep
  exact ⟨exec_consumed hx,trivial⟩

theorem attempt_triple {p : Call α} {Q : Except ServerError α → State → Prop}
    (h : (contract server requests t).Triple P p Q) (hQ : ∀ r, (contract server requests t).Stable (Q r)) :
    (contract server requests t).Triple P (attempt p)
      (Contract.Ends Q fun _ _ => False) := by
  refine Contract.Triple.tryCatch (Q:=fun r s => match r with
    | .ok r => Q r s
    | .error e => Q (.error e) s) ?_ (fun _ _ h => h) fun e => ?_
  · refine Contract.Triple.bind h (fun x => ?_) fun _ _ h => h
    exact Contract.Triple.ret (fun _ h => h) (hQ _)
  · exact Contract.Triple.ret (fun _ h => h) (hQ _)

theorem return_triple (x : α) :
    (contract server requests t).Triple P (return x : Call α) (fun _ _ => True) :=
  Contract.Triple.ret (fun _ _ => trivial) stable_true

theorem throw_triple (e : ServerError) :
    (contract server requests t).Triple P (throw e : Call α) (fun _ _ => True) :=
  Contract.Triple.raise (fun _ _ => trivial) stable_true

theorem deadline_triple (deadline : Time) (hP : (contract server requests t).Stable P) :
    (contract server requests t).Triple P (perform (.deadline deadline)) (fun _ => P) := by
  refine Contract.Triple.perform hP (fun _ _ => trivial) (fun s r s' hs hstep => ?_) fun _ => hP
  obtain ⟨x,hx⟩ := hstep
  refine ⟨exec_consumed hx,?_⟩
  simp only [exec] at hx
  split at hx
  all_goals cases hx
  all_goals exact hs

theorem consume_triple {capability : CredentialCapability} (now : ℤ) (deadline : Time)
    (hcarries : Carries server (requests t) capability) :
    (contract server requests t).Triple (fun _ => True) (consume capability now deadline)
      (Contract.Returns (Told t)) := by
  refine Contract.Triple.ofExcept_bind stable_true (fun _ hcheck => ?_) fun _ _ _ _ => trivial
  have hnow := checkConsume_ok hcheck
  refine Contract.Triple.tryCatch (Q:=Contract.Returns (Told t)) ?_ (fun _ _ h => h) fun e => ?_
  · refine Contract.Triple.bind (deadline_triple deadline stable_true) (fun _ => ?_) fun _ _ _ => trivial
    refine Contract.Triple.bind (deadline_triple deadline stable_true) (fun _ => ?_) fun _ _ _ => trivial
    refine Contract.Triple.bind (deadline_triple deadline stable_true) (fun _ => ?_) fun _ _ _ => trivial
    refine Contract.Triple.bind (deadline_triple deadline stable_true) (fun _ => ?_) fun _ _ _ => trivial
    refine Contract.Triple.perform stable_true (fun _ _ => ⟨hcarries,hnow⟩)
      (fun s r s' _ hstep => ?_) stable_told
    obtain ⟨x,hx⟩ := hstep
    refine ⟨exec_consumed hx,?_⟩
    cases r with
    | error e => trivial
    | ok consumed =>
      intro htrue
      subst htrue
      simp only [exec] at hx
      split at hx
      · cases hx
      split at hx
      · rcases consume_cases (Option.some.inj hx) with ⟨-,hfalse⟩ | ⟨-,-,rfl⟩
        · exact absurd rfl hfalse
        · exact ⟨capability,List.mem_cons_self⟩
      · cases hx
  · unfold asNonceStore
    split
    · refine Contract.Triple.bind (deadline_triple deadline stable_true) (fun _ => ?_)
        fun _ _ _ => trivial
      exact Contract.Triple.raise (fun _ _ => trivial) (stable_told _)
    · exact Contract.Triple.raise (fun _ _ => trivial) (stable_told _)

theorem runLogin_triple (capability : CredentialCapability) (deadline : Time) :
    (contract server requests t).Triple (Consumed t) (runLogin server capability deadline)
      (fun _ _ => True) := by
  unfold runLogin
  split
  · exact return_triple _
  refine Contract.Triple.bind (attempt_triple (Q:=fun _ _ => True) ?_ fun _ => stable_true)
    (fun outcome => ?_) fun _ _ h => h.elim
  · exact Contract.Triple.bind (deadline_triple deadline stable_consumed)
      (fun _ => act_triple stable_consumed fun _ h => h) fun _ _ _ => trivial
  · split
    all_goals exact return_triple _

theorem admitLogin_triple {capability : CredentialCapability} (nowRaw : Time)
    (hcarries : Carries server (requests t) capability) :
    (contract server requests t).Triple (fun _ => True) (admitLogin server capability nowRaw)
      (fun _ _ => True) := by
  refine Contract.Triple.bind (act_triple stable_true fun _ _ => trivial) (fun receipt => ?_)
    fun _ _ h => h
  dsimp only
  split
  · exact return_triple _
  refine Contract.Triple.bind (attempt_triple (deadline_triple _ stable_true) fun _ => stable_true)
    (fun checked => ?_) fun _ _ h => h.elim
  split
  · exact return_triple _
  refine Contract.Triple.bind (attempt_triple (Q:=Contract.Returns (Told t)) ?_ stable_told)
    (fun consumed => ?_) fun _ _ h => h.elim
  · exact Contract.Triple.bind (deadline_triple _ stable_true)
      (fun _ => consume_triple _ _ hcarries) fun _ _ _ => trivial
  · split
    · exact return_triple _
    · exact return_triple _
    · exact return_triple _
    · exact throw_triple _
    · exact return_triple _
    · exact (runLogin_triple capability _).conseq (fun s h => h rfl) fun _ _ h => h

/-- Every request keeps its contract. -/
theorem handle_triple :
    (contract server requests t).Triple (fun _ => True) (handle server (requests t))
      (fun _ _ => True) := by
  unfold handle
  split
  · exact throw_triple _
  split
  · exact return_triple _
  rename_i token htoken
  split
  · exact return_triple _
  rename_i codec hcodec
  split
  · exact return_triple _
  refine Contract.Triple.bind (act_triple stable_true fun _ _ => trivial) (fun nowRaw => ?_)
    fun _ _ h => h
  split
  · exact return_triple _
  · rename_i capability hdecode
    exact admitLogin_triple nowRaw ⟨token,codec,htoken,hcodec,(decode_ok hdecode).1⟩

end Walk

section Runs

variable {server : Server} {requests : ℕ → Request} {t : ℕ} {s s' : State} {x : Choice}

/-- What the record says of the nonce table: the row of a consumed capability stays, with its
expiry, until it is pruned. -/
structure Sound (server : Server) (requests : ℕ → Request) (s : State) : Prop where
  kept : ∀ e ∈ s.record.consumed, nonceKey e.2.toClaims ∈ s.record.pruned ∨
    ∃ row ∈ s.nonces, row.key = nonceKey e.2.toClaims ∧ row.expiresAt = e.2.expiresAt
  carried : ∀ e ∈ s.record.consumed, Carries server (requests e.1) e.2
  reached : ∀ t ∈ s.record.reached, Consumed t s
  once : ∀ e ∈ s.record.consumed, ∀ e' ∈ s.record.consumed,
    (requests e.1).token = (requests e'.1).token → e.1 = e'.1

theorem Sound.boot {clock monotonic : Time} :
    Sound server requests ⟨.empty,clock,monotonic,⟨[],[],[]⟩⟩ where
  kept _ he := by cases he
  carried _ he := by cases he
  reached _ hu := by cases hu
  once _ he := by cases he

/-- Where a request is about to consume its capability, in time and with the store at hand, no
other consume has pruned the nonce of the capability. -/
def unpruned (c : World) : Interleave.Event Choice Move → Bool
  | .environment _ => true
  | .call t x => (c.calls t).upcoming.all fun a =>
    match a with
    | .consume capability _ deadline => !x.available || decide (deadline ≤ c.shared.monotonic) ||
        decide (nonceKey capability.toClaims ∉ c.shared.record.pruned)
    | _ => true

theorem Sound.consume (h : Sound server requests s) {capability : CredentialCapability} {now : ℤ}
    {r : Except ServerError Bool} (hcarries : Carries server (requests t) capability)
    (hnow : now < capability.expiresAt) (hpruned : nonceKey capability.toClaims ∉ s.record.pruned)
    (hx : s.consume server t capability now = (r,s')) : Sound server requests s' := by
  rcases consume_cases hx with ⟨rfl,-⟩ | ⟨hgone,-,rfl⟩
  · exact h
  -- an earlier request with the token would have left a row that is not due yet
  have hfirst (e : ℕ × CredentialCapability) (he : e ∈ s.record.consumed) :
      (requests e.1).token ≠ (requests t).token := by
    intro htoken
    have hsame := (h.carried e he).unique hcarries htoken
    rcases h.kept e he with hp | ⟨row,hrow,hkey,hexpires⟩
    · rw [hsame] at hp
      exact hpruned hp
    · rw [hsame] at hkey hexpires
      have hle := hgone row hrow hkey
      omega
  refine ⟨fun e he => ?_,fun e he => ?_,fun u hu => ?_,fun e he e' he' htoken => ?_⟩
  · rcases List.mem_cons.mp he with rfl | he
    · exact .inr ⟨⟨nonceKey capability.toClaims,capability.expiresAt⟩,Keyed.Table.mem_put.mpr (.inl rfl),
        rfl,rfl⟩
    · rcases h.kept e he with hp | ⟨row,hrow,hkey,hexpires⟩
      · exact .inl (List.mem_append_right _ hp)
      · by_cases hdue : row.expiresAt ≤ now
        · left
          apply List.mem_append_left
          rw [← hkey]
          exact List.mem_map.mpr ⟨row,List.mem_filter.mpr ⟨hrow,by simpa using hdue⟩,rfl⟩
        · have hkept : row ∈ s.nonces.keep fun row => now < row.expiresAt :=
            Keyed.Table.mem_keep.mpr ⟨hrow,by simpa using Int.not_le.mp hdue⟩
          have hne : row.key ≠ nonceKey capability.toClaims := fun hk => hdue (hgone row hrow hk)
          exact .inr ⟨row,Keyed.Table.mem_put.mpr (.inr ⟨hkept,hne⟩),hkey,hexpires⟩
  · rcases List.mem_cons.mp he with rfl | he
    · exact hcarries
    · exact h.carried e he
  · obtain ⟨capability',hmem⟩ := h.reached u hu
    exact ⟨capability',List.mem_cons_of_mem _ hmem⟩
  · rcases List.mem_cons.mp he with rfl | he
    · rcases List.mem_cons.mp he' with rfl | he'
      · rfl
      · exact absurd htoken.symm (hfirst e' he')
    · rcases List.mem_cons.mp he' with rfl | he'
      · exact absurd htoken (hfirst e he)
      · exact h.once e he e' he' htoken

theorem sound_exec {a : Action} {r : Except ServerError (Answer a)} (h : Sound server requests s)
    (hpre : Performs server requests t a s)
    (hpruned : ∀ capability now deadline, a = .consume capability now deadline → x.available = true →
      s.monotonic < deadline → nonceKey capability.toClaims ∉ s.record.pruned)
    (hx : exec server t a x s = some (r,s')) : Sound server requests s' := by
  cases a with
  | consume capability now deadline =>
    simp only [exec] at hx
    split at hx
    · cases hx
      exact h
    rename_i havailable
    split at hx
    · rename_i hlate
      exact h.consume hpre.1 hpre.2 (hpruned capability now deadline rfl (by simpa using havailable) hlate)
        (Option.some.inj hx)
    · cases hx
      exact h
  | execute capability deadline =>
    cases hx
    refine { h with reached := fun u hu => ?_ }
    rcases List.mem_cons.mp hu with rfl | hu
    · exact hpre
    · exact h.reached u hu
  | deadline expiresAt =>
    simp only [exec] at hx
    split at hx
    all_goals cases hx
    all_goals exact h
  | _ =>
    cases hx
    exact h

/-- Of all requests with one token, at most one consumes the capability, and only that one
reaches the coordinator. -/
structure Once (requests : ℕ → Request) (s : State) : Prop where
  consumed : ∀ t u, Consumed t s → Consumed u s → (requests t).token = (requests u).token → t = u
  reached : ∀ t ∈ s.record.reached, Consumed t s

theorem Sound.replayProtected (h : Sound server requests s) : Once requests s where
  consumed t u ht hu htoken := by
    obtain ⟨capability,hc⟩ := ht
    obtain ⟨capability',hc'⟩ := hu
    exact h.once (t,capability) hc (u,capability') hc' htoken
  reached := h.reached

theorem compatible (server : Server) (requests : ℕ → Request) :
    Compatible (α:=BrokerResult) (machine server) (contract server requests) fun _ _ => True where
  own _ _ x _ _ _ _ _ he _ := ⟨x,he⟩
  others _ _ _ _ _ hg := hg
  environment c v s hs _ _ := by
    cases v with
    | tick wall m =>
      simp only [machine,environment] at hs
      split at hs
      · cases hs
        exact fun _ he => he
      · cases hs

/-- Every request keeps its contract. -/
abbrev Contracted (server : Server) (requests : ℕ → Request) (c : World) : Prop :=
  AllSafe (contract server requests) (fun _ _ _ => True) c

theorem sound_next (c d : World) (e : Interleave.Event Choice Move)
    (h : Contracted server requests c) (hs : Sound server requests c.shared)
    (hu : unpruned c e = true) (hn : (machine server).next c e = some d) :
    Sound server requests d.shared := by
  cases e with
  | call t x =>
    obtain ⟨a,k,r,s,hk,he,rfl⟩ := Machine.next_call hn
    refine sound_exec hs (h.performs hk) (fun capability now deadline ha havailable hlate => ?_) he
    subst ha
    have hup : (c.calls t).upcoming = some (.consume capability now deadline) := by rw [hk]; rfl
    simpa [unpruned,hup,havailable,Rat.not_le.mpr hlate] using hu
  | environment v =>
    obtain ⟨s,he,rfl⟩ := Machine.next_environment hn
    cases v with
    | tick wall m =>
      simp only [machine,environment] at he
      split at he
      · cases he
        exact { hs with }
      · cases he

/-- In a run in which no nonce is pruned before a request that carries its capability has come
to its consume, every capability is consumed once. -/
theorem once_throughout (server : Server) (requests : ℕ → Request) (clock monotonic : Time)
    (es : List (Interleave.Event Choice Move))
    (h : (machine server).EachStep (fun c e => unpruned c e = true)
      (World.boot server requests clock monotonic) es) :
    (machine server).Throughout (fun c => Once requests c.shared)
      (World.boot server requests clock monotonic) es := by
  have hsound := Machine.throughout_of_step
    (P:=fun c => Contracted server requests c ∧ Sound server requests c.shared)
    (fun c d e hc hu hn => ⟨allSafe_next (compatible server requests) c d e hc.1 trivial hn,
      sound_next c d e hc.1 hc.2 hu hn⟩) ⟨?_,?_⟩ h
  · exact hsound.mono fun c hc => hc.2.replayProtected
  · exact fun t => handle_triple _ trivial
  · exact Sound.boot

end Runs

section Duplicates

/-- The canonical JSON of a capability. -/
def capabilityText (nonce expiresAt : String) : String :=
  "\x7b\"audience\":\"broker\",\"browser_id\":\"b\",\"deployment\":\"d\",\"expires_at\":" ++ expiresAt ++
    ",\"generation\":\"g\",\"issued_at\":0,\"nonce\":\"" ++ nonce ++
    "\",\"operation\":\"credential.login\",\"principal_id\":\"alice\",\"profile_id\":\"p\"," ++
    "\"request_id\":\"r-" ++ nonce ++ "\",\"site_id\":\"s\",\"target_tab_id\":\"t\"\x7d"

def capabilityFields (nonce : String) (expiresAt : ℤ) : List (String × Json) :=
  [("audience",.str "broker"),("browser_id",.str "b"),("deployment",.str "d"),
    ("expires_at",.int expiresAt),("generation",.str "g"),("issued_at",.int 0),("nonce",.str nonce),
    ("operation",.str "credential.login"),("principal_id",.str "alice"),("profile_id",.str "p"),
    ("request_id",.str ("r-" ++ nonce)),("site_id",.str "s"),("target_tab_id",.str "t")]

def firstText : String := capabilityText "one" "100"

def secondText : String := capabilityText "two" "300"

/-- The digests of the two capabilities, under the secret `01 02 … 10`. -/
def firstDigest : Bytes :=
  [193,245,129,55,153,118,8,49,213,204,196,233,162,29,236,149,176,188,14,13,183,88,178,144,43,192,
    238,16,234,179,124,185]

def secondDigest : Bytes :=
  [180,7,107,145,21,185,64,255,215,167,236,205,97,119,5,84,47,12,242,58,79,144,209,33,162,231,185,
    188,58,129,59,51]

def sampleCodec : Codec where
  secret := (List.range' 1 16).map UInt8.ofNat
  secret_length := by decide
  mac _ signed :=
    if signed = Text.encodeUtf8 (String.ofList (signedPart firstText)) then firstDigest
    else if signed = Text.encodeUtf8 (String.ofList (signedPart secondText)) then secondDigest
    else []
  loads text :=
    if text = firstText then some (.obj (capabilityFields "one" 100))
    else if text = secondText then some (.obj (capabilityFields "two" 300))
    else none

theorem sampleTimeout_pos : (0 : ℚ) < 30 := by norm_num

theorem sampleRecords_pos : 0 < 100000 := by decide

def sampleServer : Server where
  codec := some sampleCodec
  audience := "broker"
  deployment := "d"
  hasStores := true
  hasCoordinator := true
  outerTimeout := 30
  maxRecords := 100000
  outerTimeout_pos := sampleTimeout_pos
  maxRecords_pos := sampleRecords_pos

def loginRequest (token : String) : Request := ⟨"/v1/credential/login",[("capability",.str token)]⟩

/-- Requests 0 and 1 carry the capability that expires at 100; the others carry another one. -/
def sampleRequests (t : ℕ) : Request :=
  if t < 2 then loginRequest (sampleCodec.seal firstText)
  else loginRequest (sampleCodec.seal secondText)

def firstClaims : Claims :=
  ⟨"p","alice","b","g","s","t","credential.login","r-one","broker","d",0,100,"one"⟩

def secondClaims : Claims :=
  ⟨"p","alice","b","g","s","t","credential.login","r-two","broker","d",0,300,"two"⟩

def firstCapability : CredentialCapability := ⟨firstClaims,by decide⟩

def secondCapability : CredentialCapability := ⟨secondClaims,by decide⟩

theorem second_ne_first : Text.encodeUtf8 (String.ofList (signedPart secondText)) ≠
    Text.encodeUtf8 (String.ofList (signedPart firstText)) := by
  intro h
  have hlists := String.ofList_injective (Text.encodeUtf8_injective h)
  have hne : signedPart secondText ≠ signedPart firstText := by decide +kernel
  exact hne hlists

theorem signature_first : sampleCodec.signature firstText = firstDigest := by
  simp [Codec.signature,sampleCodec]

theorem signature_second : sampleCodec.signature secondText = secondDigest := by
  simp [Codec.signature,sampleCodec,second_ne_first]

/-- The requests are received as what their tokens spell. -/
theorem handle_sample {text : String} {digest : Bytes} {raw : List (String × Json)}
    {capability : CredentialCapability} (hlength : (Text.encodeUtf8 text).length = 243)
    (hsignature : sampleCodec.signature text = digest) (hdigest : digest.length = 32)
    (hloads : sampleCodec.loads text = some (.obj raw)) (hfields : hasRequiredFields raw = true)
    (hraw : ofFields raw = some capability) :
    handle sampleServer (loginRequest (sampleCodec.seal text)) = receive sampleServer capability := by
  have hsealed : (sampleCodec.seal text).length = 371 := by
    rw [length_seal,hlength,hsignature,hdigest]
  have htoken : (loginRequest (sampleCodec.seal text)).token = some (sampleCodec.seal text) := by
    have hne : sampleCodec.seal text ≠ "" := by
      intro hempty
      rw [hempty] at hsealed
      cases hsealed
    simp [Request.token,loginRequest,Json.get,hne]
  have hauth : sampleCodec.authenticate (sampleCodec.seal text) = .ok capability := by
    apply authenticate_seal (by omega) _ _ hloads hfields hraw
    · intro hnil
      rw [hnil] at hlength
      cases hlength
    · rw [hsignature]
      rintro rfl
      cases hdigest
  exact handle_eq rfl htoken rfl rfl (by decide) (by decide) hauth

theorem handle_first :
    handle sampleServer (loginRequest (sampleCodec.seal firstText)) =
      receive sampleServer firstCapability := by
  have hloads : sampleCodec.loads firstText = some (.obj (capabilityFields "one" 100)) := by
    simp [sampleCodec]
  exact handle_sample (by decide +kernel) signature_first rfl hloads (by decide) (by decide +kernel)

theorem handle_second :
    handle sampleServer (loginRequest (sampleCodec.seal secondText)) =
      receive sampleServer secondCapability := by
  have hne : secondText ≠ firstText := by decide +kernel
  have hloads : sampleCodec.loads secondText = some (.obj (capabilityFields "two" 300)) := by
    simp [sampleCodec,hne]
  exact handle_sample (by decide +kernel) signature_second rfl hloads (by decide) (by decide +kernel)

def sampleWorld : World where
  shared := { nonces := .empty, clock := 99, monotonic := 99, record := ⟨[],[],[]⟩ }
  calls t := receive sampleServer (if t < 2 then firstCapability else secondCapability)

theorem boot_sample : World.boot sampleServer sampleRequests 99 99 = sampleWorld := by
  have hcalls : (fun t => handle sampleServer (sampleRequests t)) =
      fun t => receive sampleServer (if t < 2 then firstCapability else secondCapability) := by
    funext t
    by_cases ht : t < 2
    · simp only [sampleRequests,if_pos ht,handle_first]
    · simp only [sampleRequests,if_neg ht,handle_second]
  rw [World.boot,hcalls]
  rfl

/-- The steps of a request up to the end of its consume. -/
def consuming (t : ℕ) : List (Interleave.Event Choice Move) := List.replicate 9 (.call t {})

/-- Request 0 consumes the capability at 99 and reaches the coordinator; request 1, with the same
token, has read the wall clock at 99 and stalls; request 2 consumes its own capability at 101,
and with that prunes the nonce. -/
def overtaken : List (Interleave.Event Choice Move) :=
  consuming 0 ++ [.call 0 {},.call 0 {},.call 1 {},.environment (.tick 2 2)] ++ consuming 2 ++
    List.replicate 10 (.call 1 {})

theorem overtaken_replays : ¬∀ (server : Server) (requests : ℕ → Request) (clock monotonic : Time)
    (es : List (Interleave.Event Choice Move)),
    (machine server).Throughout (fun c => Once requests c.shared)
      (World.boot server requests clock monotonic) es := by
  intro h
  have hrun : ((machine sampleServer).run sampleWorld overtaken).any (fun c =>
      c.shared.record.reached = [1,0]) = true := by decide +kernel
  obtain ⟨c,hc,hreached⟩ := (Option.any_eq_true _ _).mp hrun
  rw [← boot_sample] at hc
  have honce := Machine.throughout_last (h sampleServer sampleRequests 99 99 overtaken) hc
  rw [decide_eq_true_eq] at hreached
  have h0 := honce.reached 0 (by simp [hreached])
  have h1 := honce.reached 1 (by simp [hreached])
  have hsame := honce.consumed 0 1 h0 h1 rfl
  omega

/-- A duplicate that comes while the nonce is still stored is refused. -/
theorem once_prompt : (machine sampleServer).Throughout (fun c => Once sampleRequests c.shared)
    (World.boot sampleServer sampleRequests 99 99) (consuming 0 ++ consuming 1) := by
  have hsteps : (machine sampleServer).checkSteps unpruned sampleWorld
      (consuming 0 ++ consuming 1) = true := by decide +kernel
  rw [← boot_sample] at hsteps
  exact once_throughout sampleServer sampleRequests 99 99 _ (Machine.eachStep_of_check hsteps)

end Duplicates
end LoginRoute
end CloudBrowser
