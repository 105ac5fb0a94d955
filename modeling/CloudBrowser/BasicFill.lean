import CloudBrowser.SingleSignOn

/-! The login of a site that asks for HTTP Basic credentials: the browser is checked against the
intent, and the adapter answers one challenge of the declared origin. -/
namespace CloudBrowser
namespace BasicFill

open Stateful LoginCoordinator
open BasicAuth (SplitUrl)
open SingleSignOn (Plain authenticated invokeWithDeadline_observed parseUrl)
open VaultItems (CredentialMaterial)

/-! ### Declarations -/

section Declarations

variable (urlsplit : String → Except Unit SplitUrl)

/-- `_https_origin`. -/
def httpsOrigin (url : String) : Except Raised (Option String) := do
  let parsed ← parseUrl urlsplit url
  if parsed.scheme ≠ "https" ∨ parsed.hostname.getD "" = "" ∨ parsed.username.isSome = true ∨
      parsed.password.isSome = true then return none
  return some ("https://" ++ parsed.netloc)

structure BasicAuthDeclaration where
  siteId : String
  origin : String
  redirectOrigins : List String := []
  successPath : String := ""
  origin_exact : httpsOrigin urlsplit origin = .ok (some origin)
  path_absolute : successPath ≠ "" →
    successPath.toList.head? = some '/' ∧ successPath.toList.take 2 ≠ ['/','/']
  path_plain : '?' ∉ successPath.toList ∧ '#' ∉ successPath.toList

namespace BasicAuthDeclaration

variable {urlsplit} (d : BasicAuthDeclaration urlsplit)

def allowedOrigins : List String := d.origin :: d.redirectOrigins

def allows (currentUrl : String) : Except Raised Bool := do
  match ← httpsOrigin urlsplit currentUrl with
  | none => return false
  | some current => return current ∈ d.allowedOrigins

end BasicAuthDeclaration
end Declarations

/-! ### The adapter -/

/-- The codes with which the adapter refuses. -/
inductive Refusal
  | targetMissing
  | successProofMissing
  | challengeMissing
  | originChanged
  | challengeLoop
  | successUnverified

def Refusal.code : Refusal → String
  | .targetMissing => "target_missing"
  | .successProofMissing => "success_proof_missing"
  | .challengeMissing => "challenge_missing"
  | .originChanged => "origin_changed"
  | .challengeLoop => "challenge_loop"
  | .successUnverified => "success_unverified"

theorem Refusal.plain (refusal : Refusal) : Plain refusal.code := by
  cases refusal <;> exact ⟨by decide +kernel,by decide +kernel⟩

/-- `AdapterResult("failed", False, code)`. -/
def failed (refusal : Refusal) : AdapterResult where
  status := "failed"
  identityVerified := false
  errorCode := some refusal.code
  status_known := Idempotency.failed_known
  errorCode_bounded := refusal.plain.bounded
  errorCode_plain := refusal.plain.chars

theorem failed_status (refusal : Refusal) : (failed refusal).status ≠ "authenticated" := by
  simp [failed]

structure Submission where
  origin : String
  username : String
  password : String
  targetId : String
  successPath : String
  deriving DecidableEq

/-- What the adapter is given of the browser; three of its methods may be missing. -/
structure BasicAuthBrowser (σ : Type) where
  currentUrl : String → Operation σ String
  submitBasicAuth : Submission → Operation σ Unit
  challengeOrigin : Option (String → Operation σ (Option String))
  hasBasicAuthChallenge : Option (String → String → Operation σ Bool)
  applicationAuthenticated : Option (String → Operation σ Bool)

section Adapter

variable {σ : Type} {urlsplit : String → Except Unit SplitUrl} (d : BasicAuthDeclaration urlsplit)
  (material : CredentialMaterial) (browser : BasicAuthBrowser σ) (targetId : String)
  (deadline : Option (BrokerDeadline σ))

/-- `_challenge_present`; a browser that shows no challenge is taken to have one. -/
def challengePresent : Operation σ Bool :=
  match browser.challengeOrigin, browser.hasBasicAuthChallenge with
  | some challengeOrigin, _ => do
    let challenge ← invokeWithDeadline deadline (challengeOrigin targetId)
    return challenge = some d.origin
  | none, some probe => invokeWithDeadline deadline (probe d.origin targetId)
  | none, none => return true

/-- The target is at a declared origin. -/
def arrive : Operation σ Unit := do
  let currentUrl ← invokeWithDeadline deadline (browser.currentUrl targetId)
  match ← check (httpsOrigin urlsplit currentUrl) with
  | none => throw (.valueError "HTTP Basic Auth fill requires an HTTPS origin")
  | some _ =>
    if ← check (d.allows currentUrl) then return ()
    else throw (.valueError "current origin is not in the declared allowlist")

def submission : Submission :=
  ⟨d.origin,material.username,material.password,targetId,d.successPath⟩

/-- The challenge is seen again after the submission. -/
def challengedAgain : Operation σ Bool :=
  match browser.challengeOrigin with
  | none => return false
  | some challengeOrigin => do
    let challenge ← invokeWithDeadline deadline (challengeOrigin targetId)
    return challenge = some d.origin

def applicationProof : Operation σ Bool :=
  match browser.applicationAuthenticated with
  | none => return false
  | some proof => invokeWithDeadline deadline (proof targetId)

/-- What the browser shows after the submission. -/
def verify : Operation σ AdapterResult := do
  let afterUrl ← invokeWithDeadline deadline (browser.currentUrl targetId)
  if ← check (d.allows afterUrl) then
    if ← challengedAgain d browser targetId deadline then return failed .challengeLoop
    else if ← applicationProof browser targetId deadline then return authenticated
    else return failed .successUnverified
  else return failed .originChanged

def execute : Operation σ AdapterResult :=
  if targetId = "" then return failed .targetMissing
  else do
    checkDeadline deadline
    if d.successPath = "" then return failed .successProofMissing
    else do
      arrive d browser targetId deadline
      if ← challengePresent d browser targetId deadline then
        checkDeadline deadline
        invokeWithDeadline deadline (browser.submitBasicAuth (submission d material targetId))
        verify d browser targetId deadline
      else return failed .challengeMissing

end Adapter

/-! ### The browser of a login -/

/-- What `browser_factory` returns; a method may be missing, and the live binding may be none. -/
structure BrokerBrowser (σ : Type) where
  liveBinding : Option (Operation σ (Option LiveBrowserBinding))
  rotateBinding : Option (String → String → Operation σ Unit)
  readiness : Option (Operation σ Unit)
  /-- The Basic capability of the browser itself, or of its client. -/
  basic : Option (BasicAuthBrowser σ)

def LiveBrowserBinding.serves (live : LiveBrowserBinding) (intent : LoginIntent) : Bool :=
  live.profileId = intent.profileId && live.principalId = intent.principalId &&
    live.browserId = intent.browserId && some live.generation = intent.bindingGeneration

section Login

variable {σ : Type} {urlsplit : String → Except Unit SplitUrl} (d : BasicAuthDeclaration urlsplit)
  (browserFactory : Operation σ (BrokerBrowser σ)) (intent : LoginIntent)
  (deadline : Option (BrokerDeadline σ))

/-- `rotate_binding` and the readiness that has to follow it. -/
def rotate (browser : BrokerBrowser σ) (live : LiveBrowserBinding) : Operation σ Unit :=
  match browser.rotateBinding with
  | none => return ()
  | some rotateBinding => do
    rotateBinding live.principalId live.generation
    match browser.readiness with
    | none => throw (.browserUnavailable "browser readiness is unavailable")
    | some readiness => readiness

/-- `make_runtime_adapter`, of the kind `basic`. -/
def makeRuntimeAdapter (browser : BrokerBrowser σ) : Except Raised (BasicAuthBrowser σ × String) :=
  match browser.basic with
  | none => .error (.browserUnavailable "browser Basic Auth capability is unavailable")
  | some basic =>
    if intent.targetTabId.getD "" = "" then
      .error (.browserUnavailable "Basic Auth target is unavailable")
    else .ok (basic,intent.targetTabId.getD "")

/-- `make_adapter`: the browser's binding is the intent's, before and after the rotation. -/
def makeAdapter : Operation σ (BasicAuthBrowser σ × String) := do
  let browser ← browserFactory
  match browser.liveBinding with
  | none => throw (.browserUnavailable "browser live binding is unavailable")
  | some liveBinding =>
    match ← liveBinding with
    | none => throw (.browserUnavailable "browser live binding does not match login intent")
    | some live =>
      if LiveBrowserBinding.serves live intent then
        rotate browser live
        let liveBeforeFill ← liveBinding
        if liveBeforeFill = some live then check (makeRuntimeAdapter intent browser)
        else throw (.browserUnavailable "browser binding changed before credential fill")
      else throw (.browserUnavailable "browser live binding does not match login intent")

/-- The adapter that the runtime selects for an intent, run on the declaration and the material. -/
def login (material : CredentialMaterial) : Operation σ AdapterResult := do
  let (browser,targetId) ← makeAdapter browserFactory intent
  execute d material browser targetId deadline

end Login

/-! ### What the browser is asked -/

section Calls

variable {σ : Type}

/-- A call of a login, with its arguments and its outcome; of a browser that is made, whether it
shows its challenges. -/
inductive Call
  | browserFactory (r : Except Raised Bool)
  | liveBinding (r : Except Raised (Option LiveBrowserBinding))
  | rotateBinding (principalId generation : String) (r : Except Raised Unit)
  | readiness (r : Except Raised Unit)
  | currentUrl (targetId : String) (r : Except Raised String)
  | submitBasicAuth (submission : Submission) (r : Except Raised Unit)
  | challengeOrigin (targetId : String) (r : Except Raised (Option String))
  | hasBasicAuthChallenge (origin targetId : String) (r : Except Raised Bool)
  | applicationAuthenticated (targetId : String) (r : Except Raised Bool)

def Call.isSubmission : Call → Bool
  | .submitBasicAuth _ _ => true
  | _ => false

namespace BasicAuthBrowser

def showsChallenge (b : BasicAuthBrowser σ) : Bool :=
  b.challengeOrigin.isSome || b.hasBasicAuthChallenge.isSome

def observed (b : BasicAuthBrowser σ) : BasicAuthBrowser (Logged σ Call) where
  currentUrl targetId := logging (.currentUrl targetId) (b.currentUrl targetId)
  submitBasicAuth submission := logging (.submitBasicAuth submission) (b.submitBasicAuth submission)
  challengeOrigin := b.challengeOrigin.map fun ask targetId =>
    logging (.challengeOrigin targetId) (ask targetId)
  hasBasicAuthChallenge := b.hasBasicAuthChallenge.map fun ask origin targetId =>
    logging (.hasBasicAuthChallenge origin targetId) (ask origin targetId)
  applicationAuthenticated := b.applicationAuthenticated.map fun ask targetId =>
    logging (.applicationAuthenticated targetId) (ask targetId)

end BasicAuthBrowser

namespace BrokerBrowser

def showsChallenge (b : BrokerBrowser σ) : Bool := b.basic.any (·.showsChallenge)

def observed (b : BrokerBrowser σ) : BrokerBrowser (Logged σ Call) where
  liveBinding := b.liveBinding.map (logging .liveBinding)
  rotateBinding := b.rotateBinding.map fun ask principalId generation =>
    logging (.rotateBinding principalId generation) (ask principalId generation)
  readiness := b.readiness.map (logging .readiness)
  basic := b.basic.map (·.observed)

end BrokerBrowser

/-- The factory, whose browsers are watched. -/
def observedFactory (browserFactory : Operation σ (BrokerBrowser σ)) :
    Operation (Logged σ Call) (BrokerBrowser (Logged σ Call)) := do
  let browser ← logging (fun r => .browserFactory (r.map (·.showsChallenge))) browserFactory
  return browser.observed

end Calls

section Soundness

variable {σ : Type} {urlsplit : String → Except Unit SplitUrl} (d : BasicAuthDeclaration urlsplit)
  (material : CredentialMaterial) (intent : LoginIntent)

/-- A login, over a browser that is watched. -/
def observedLogin (browserFactory : Operation σ (BrokerBrowser σ))
    (deadline : Option (BrokerDeadline σ)) : Operation (Logged σ Call) AdapterResult :=
  login d (observedFactory browserFactory) intent (deadline.map BrokerDeadline.observed) material

/-- The calls that a login makes, in their order. -/
def calls (browserFactory : Operation σ (BrokerBrowser σ)) (deadline : Option (BrokerDeadline σ))
    (s : σ) : List Call :=
  (exec (observedLogin d material intent browserFactory deadline) ⟨s,[]⟩).2.log

/-- The browser has shown the same binding twice, and it is the one that the intent names. -/
def Bound (before : List Call) : Prop :=
  ∃ made live rotated, LiveBrowserBinding.serves live intent = true ∧
    .browserFactory (.ok made) :: .liveBinding (.ok (some live)) ::
      (rotated ++ [.liveBinding (.ok (some live))]) = before

/-- A challenge of the declared origin has been seen, unless the browser shows none. -/
inductive Challenged (targetId : String) (bound : List Call) : List Call → Prop
  | shown : Challenged targetId bound [.challengeOrigin targetId (.ok (some d.origin))]
  | probed : Challenged targetId bound [.hasBasicAuthChallenge d.origin targetId (.ok true)]
  | hidden (h : bound.head? = some (.browserFactory (.ok false))) : Challenged targetId bound []

/-- The credentials go out for the first time, to a target of the intent's browser that has just
been seen at a declared origin, which challenges it. -/
structure Cleared (before : List Call) : Prop where
  first : ∀ call ∈ before, call.isSubmission = false
  seen : ∃ bound url challenge,
    before = bound ++ .currentUrl (intent.targetTabId.getD "") (.ok url) :: challenge ∧
      Bound intent bound ∧ d.allows url = .ok true ∧
      Challenged d (intent.targetTabId.getD "") bound challenge

/-- What allows a call of the browser, by the calls before it. -/
def Guarded (before : List Call) : Call → Prop
  | .submitBasicAuth s _ =>
    s = submission d material (intent.targetTabId.getD "") ∧ Cleared d intent before
  | _ => True

/-- After the submission the target was at a declared origin, which did not challenge it again,
and the application has taken the credentials. -/
def Verified (calls : List Call) : Prop :=
  ∃ before url again,
    calls = before ++ .submitBasicAuth (submission d material (intent.targetTabId.getD "")) (.ok ()) ::
      .currentUrl (intent.targetTabId.getD "") (.ok url) ::
        (again ++ [.applicationAuthenticated (intent.targetTabId.getD "") (.ok true)]) ∧
      d.allows url = .ok true ∧ (again = [] ∨ ∃ challenge, challenge ≠ some d.origin ∧
        again = [.challengeOrigin (intent.targetTabId.getD "") (.ok challenge)])

/-- A login is sound by the calls that it makes and what it answers. -/
structure Sound (calls : List Call) (answer : Except Raised AdapterResult) : Prop where
  once : calls.countP Call.isSubmission ≤ 1
  guarded : ∀ before s r after, calls = before ++ .submitBasicAuth s r :: after →
    s = submission d material (intent.targetTabId.getD "") ∧ Cleared d intent before
  verified : ∀ result, answer = .ok result → result.status = "authenticated" →
    Verified d material intent calls

variable {d material intent}

theorem Guarded.first_submission {before : List Call} {call : Call}
    (h : Guarded d material intent before call) (hcall : call.isSubmission = true) :
    ∀ e ∈ before, e.isSubmission = false := by
  cases call with
  | submitBasicAuth s r => exact h.2.first
  | _ => cases hcall

section Execution

variable {browser : BasicAuthBrowser σ} {targetId : String} {a : List Call}
  (deadline : Option (BrokerDeadline σ))

theorem arrive_traces : Traces (Guarded d material intent) a
    (arrive d browser.observed targetId (deadline.map BrokerDeadline.observed)) fun _ l =>
      ∃ url, l = a ++ [.currentUrl targetId (.ok url)] ∧ d.allows url = .ok true := by
  apply (invokeWithDeadline_traces deadline (Traces.logging fun _ => trivial)).bind
  rintro url _ ⟨rfl,-⟩
  apply Traces.check_bind
  rintro (_ | current) _
  · exact Traces.throw
  · apply Traces.check_bind
    intro allowed hallowed
    cases allowed with
    | false => exact Traces.throw
    | true => exact Traces.pure ⟨url,rfl,hallowed⟩

theorem challengePresent_traces {bound : List Call}
    (hbound : browser.showsChallenge = false → bound.head? = some (.browserFactory (.ok false))) :
    Traces (Guarded d material intent) a
      (challengePresent d browser.observed targetId (deadline.map BrokerDeadline.observed))
        fun present l => ∃ challenge, l = a ++ challenge ∧
          (∀ call ∈ challenge, call.isSubmission = false) ∧
            (present = true → Challenged d targetId bound challenge) := by
  unfold challengePresent BasicAuthBrowser.observed
  cases hshown : browser.challengeOrigin with
  | some challengeOrigin =>
    apply (invokeWithDeadline_traces deadline (Traces.logging fun _ => trivial)).bind
    rintro challenge _ ⟨rfl,-⟩
    refine Traces.pure ⟨_,rfl,by simp [Call.isSubmission],fun h => ?_⟩
    rw [of_decide_eq_true h]
    exact .shown
  | none =>
    cases hprobed : browser.hasBasicAuthChallenge with
    | some probe =>
      apply (invokeWithDeadline_traces deadline (Traces.logging fun _ => trivial)).conseq
      rintro present _ ⟨rfl,-⟩
      refine ⟨_,rfl,by simp [Call.isSubmission],fun h => ?_⟩
      rw [h]
      exact .probed
    | none =>
      refine Traces.pure ⟨[],by simp,by simp,fun _ => .hidden (hbound ?_)⟩
      simp [BasicAuthBrowser.showsChallenge,hshown,hprobed]

theorem challengedAgain_traces : Traces (Guarded d material intent) a
    (challengedAgain d browser.observed targetId (deadline.map BrokerDeadline.observed))
      fun challenged l => challenged = false → ∃ again, l = a ++ again ∧ (again = [] ∨
        ∃ challenge, challenge ≠ some d.origin ∧
          again = [.challengeOrigin targetId (.ok challenge)]) := by
  unfold challengedAgain BasicAuthBrowser.observed
  cases browser.challengeOrigin with
  | none => exact Traces.pure fun _ => ⟨[],by simp,.inl rfl⟩
  | some challengeOrigin =>
    apply (invokeWithDeadline_traces deadline (Traces.logging fun _ => trivial)).bind
    rintro challenge _ ⟨rfl,-⟩
    exact Traces.pure fun h => ⟨_,rfl,.inr ⟨challenge,of_decide_eq_false h,rfl⟩⟩

theorem applicationProof_traces : Traces (Guarded d material intent) a
    (applicationProof browser.observed targetId (deadline.map BrokerDeadline.observed))
      fun proved l => proved = true → l = a ++ [.applicationAuthenticated targetId (.ok true)] := by
  unfold applicationProof BasicAuthBrowser.observed
  cases browser.applicationAuthenticated with
  | none => exact Traces.pure fun h => by cases h
  | some proof =>
    apply (invokeWithDeadline_traces deadline (Traces.logging fun _ => trivial)).conseq
    rintro proved _ ⟨rfl,-⟩ rfl
    rfl

theorem verify_traces : Traces (Guarded d material intent)
    (a ++ [.submitBasicAuth (submission d material (intent.targetTabId.getD "")) (.ok ())])
    (verify d browser.observed (intent.targetTabId.getD "") (deadline.map BrokerDeadline.observed))
      fun answer l => answer.status = "authenticated" → Verified d material intent l := by
  apply (invokeWithDeadline_traces deadline (Traces.logging fun _ => trivial)).bind
  rintro afterUrl _ ⟨rfl,-⟩
  apply Traces.check_bind
  intro allowed hallowed
  cases allowed with
  | false => exact Traces.pure fun h => absurd h (failed_status _)
  | true =>
    apply (challengedAgain_traces deadline).bind
    intro challenged l hchallenged
    cases challenged with
    | true => exact Traces.pure fun h => absurd h (failed_status _)
    | false =>
      obtain ⟨again,rfl,hagain⟩ := hchallenged rfl
      apply (applicationProof_traces deadline).bind
      intro proved l hproved
      cases proved with
      | false => exact Traces.pure fun h => absurd h (failed_status _)
      | true =>
        rw [hproved rfl]
        exact Traces.pure fun _ => ⟨a,afterUrl,again,by simp,hallowed,hagain⟩

theorem execute_traces (hbound : Bound intent a) (hfirst : ∀ call ∈ a, call.isSubmission = false)
    (hshown : browser.showsChallenge = false → a.head? = some (.browserFactory (.ok false))) :
    Traces (Guarded d material intent) a
      (execute d material browser.observed (intent.targetTabId.getD "")
        (deadline.map BrokerDeadline.observed))
      fun answer l => answer.status = "authenticated" → Verified d material intent l := by
  unfold execute
  split_ifs
  · exact Traces.pure fun h => absurd h (failed_status _)
  · apply (checkDeadline_traces deadline).bind
    rintro _ a rfl
    exact Traces.pure fun h => absurd h (failed_status _)
  · apply (checkDeadline_traces deadline).bind
    rintro _ a rfl
    apply (arrive_traces deadline).bind
    rintro _ _ ⟨url,rfl,hallowed⟩
    apply (challengePresent_traces deadline hshown).bind
    rintro present _ ⟨challenge,rfl,hquiet,hchallenged⟩
    cases present with
    | false => exact Traces.pure fun h => absurd h (failed_status _)
    | true =>
      apply (checkDeadline_traces deadline).bind
      rintro _ a rfl
      have hcleared : Cleared d intent (a ++ [.currentUrl (intent.targetTabId.getD "") (.ok url)] ++
          challenge) := by
        refine ⟨?_,a,url,challenge,by simp,hbound,hallowed,hchallenged rfl⟩
        intro call hcall
        simp only [List.mem_append,List.mem_singleton] at hcall
        rcases hcall with (hcall | rfl) | hcall
        · exact hfirst call hcall
        · rfl
        · exact hquiet call hcall
      apply (invokeWithDeadline_traces deadline (Traces.logging fun _ => ⟨rfl,hcleared⟩)).bind
      rintro _ _ ⟨rfl,-⟩
      exact verify_traces deadline

end Execution

section Login

variable (browserFactory : Operation σ (BrokerBrowser σ)) (deadline : Option (BrokerDeadline σ))

theorem rotate_traces (browser : BrokerBrowser σ) {live : LiveBrowserBinding} {a : List Call} :
    Traces (Guarded d material intent) a (rotate browser.observed live) fun _ l =>
      ∃ rotated, l = a ++ rotated ∧ ∀ call ∈ rotated, call.isSubmission = false := by
  unfold rotate BrokerBrowser.observed
  cases browser.rotateBinding with
  | none => exact Traces.pure ⟨[],by simp,by simp⟩
  | some rotateBinding =>
    apply (Traces.logging fun _ => trivial).bind
    rintro _ _ ⟨rfl,-⟩
    cases browser.readiness with
    | none => exact Traces.throw
    | some readiness =>
      apply (Traces.logging fun _ => trivial).conseq
      rintro _ _ ⟨rfl,-⟩
      exact ⟨_,List.append_assoc _ _ _,by simp [Call.isSubmission]⟩

/-- What is known of a browser that the adapter is made for, by the calls that made it. -/
def Made (intent : LoginIntent) (made : BasicAuthBrowser (Logged σ Call) × String)
    (l : List Call) : Prop :=
  Bound intent l ∧ (∀ call ∈ l, call.isSubmission = false) ∧
    made.2 = intent.targetTabId.getD "" ∧ ∃ basic : BasicAuthBrowser σ, made.1 = basic.observed ∧
      (basic.showsChallenge = false → l.head? = some (.browserFactory (.ok false)))

theorem makeAdapter_traces : Traces (Guarded d material intent) []
    (makeAdapter (observedFactory browserFactory) intent) (Made intent) := by
  unfold makeAdapter observedFactory
  rw [bind_assoc]
  apply (Traces.logging fun _ => trivial).bind
  rintro browser _ ⟨rfl,-⟩
  rw [pure_bind]
  simp only [BrokerBrowser.observed]
  cases browser.liveBinding with
  | none => exact Traces.throw
  | some liveBinding =>
    apply (Traces.logging fun _ => trivial).bind
    rintro (_ | live) _ ⟨rfl,-⟩
    · exact Traces.throw
    dsimp only
    split_ifs with hserves
    · apply (rotate_traces browser).bind
      rintro _ _ ⟨rotated,rfl,hquiet⟩
      apply (Traces.logging fun _ => trivial).bind
      rintro again _ ⟨rfl,-⟩
      split_ifs with hagain
      · apply (Traces.check _).conseq
        rintro made _ ⟨rfl,hmade⟩
        unfold makeRuntimeAdapter at hmade
        cases hbasic : browser.basic with
        | none => simp [hbasic] at hmade
        | some basic =>
          simp only [hbasic,Option.map_some] at hmade
          split_ifs at hmade
          cases hmade
          refine ⟨⟨browser.showsChallenge,live,rotated,hserves,?_⟩,?_,rfl,basic,rfl,?_⟩
          · simp [hagain,Except.map]
          · intro call hcall
            simp only [List.nil_append,List.mem_append,List.mem_cons,List.not_mem_nil,or_false] at hcall
            rcases hcall with ((rfl | rfl) | hcall) | rfl
            · rfl
            · rfl
            · exact hquiet call hcall
            · rfl
          · intro hhidden
            simp [Except.map,BrokerBrowser.showsChallenge,hbasic,hhidden]
      · exact Traces.throw
    · exact Traces.throw

theorem login_traces : Traces (Guarded d material intent) []
    (observedLogin d material intent browserFactory deadline)
      fun answer l => answer.status = "authenticated" → Verified d material intent l := by
  apply (makeAdapter_traces browserFactory).bind
  rintro ⟨_,_⟩ l ⟨hbound,hfirst,rfl,basic,rfl,hshown⟩
  exact execute_traces deadline hbound hfirst hshown

theorem observedFactory_renders :
    Renders Logged.state BrokerBrowser.observed (observedFactory browserFactory) browserFactory := by
  intro s
  simp only [observedFactory,exec_bind,exec_logging]
  cases (exec browserFactory s.state).1 <;> exact ⟨rfl,rfl⟩

theorem rotate_observed (browser : BrokerBrowser σ) (live : LiveBrowserBinding) :
    Projects Logged.state (rotate browser.observed live) (rotate browser live) := by
  unfold rotate BrokerBrowser.observed
  cases browser.rotateBinding with
  | none => exact Projects.pure _
  | some rotateBinding =>
    apply (Projects.logging _ _).bind
    intro _
    cases browser.readiness with
    | none => exact Projects.throw _
    | some readiness => exact Projects.logging _ _

theorem makeAdapter_renders : Renders Logged.state (fun made => (made.1.observed,made.2))
    (makeAdapter (observedFactory browserFactory) intent) (makeAdapter browserFactory intent) := by
  apply (observedFactory_renders browserFactory).bind
  intro browser
  simp only [BrokerBrowser.observed]
  cases browser.liveBinding with
  | none => exact Renders.throw _
  | some liveBinding =>
    apply Renders.after (Projects.logging _ _)
    rintro (_ | live)
    · exact Renders.throw _
    apply Renders.ite
    · apply Renders.after (rotate_observed browser live)
      intro _
      apply Renders.after (Projects.logging _ _)
      intro again
      apply Renders.ite _ _ (Renders.throw _)
      apply Renders.check
      unfold makeRuntimeAdapter
      cases browser.basic with
      | none => rfl
      | some basic =>
        simp only [Option.map_some]
        split_ifs <;> rfl
    · exact Renders.throw _

theorem execute_observed (browser : BasicAuthBrowser σ) (targetId : String) :
    Projects Logged.state
      (execute d material browser.observed targetId (deadline.map BrokerDeadline.observed))
      (execute d material browser targetId deadline) := by
  have harrive : Projects Logged.state
      (arrive d browser.observed targetId (deadline.map BrokerDeadline.observed))
      (arrive d browser targetId deadline) := by
    apply (invokeWithDeadline_observed deadline (Projects.logging _ _)).bind
    intro currentUrl
    apply (Projects.check _).bind
    rintro (_ | current)
    · exact Projects.throw _
    · exact (Projects.check _).bind fun _ => Projects.ite _ (Projects.pure _) (Projects.throw _)
  have hpresent : Projects Logged.state
      (challengePresent d browser.observed targetId (deadline.map BrokerDeadline.observed))
      (challengePresent d browser targetId deadline) := by
    unfold challengePresent BasicAuthBrowser.observed
    cases browser.challengeOrigin with
    | some ask =>
      exact (invokeWithDeadline_observed deadline (Projects.logging _ _)).bind fun _ => Projects.pure _
    | none =>
      cases browser.hasBasicAuthChallenge with
      | some probe => exact invokeWithDeadline_observed deadline (Projects.logging _ _)
      | none => exact Projects.pure _
  have hagain : Projects Logged.state
      (challengedAgain d browser.observed targetId (deadline.map BrokerDeadline.observed))
      (challengedAgain d browser targetId deadline) := by
    unfold challengedAgain BasicAuthBrowser.observed
    cases browser.challengeOrigin with
    | none => exact Projects.pure _
    | some ask =>
      exact (invokeWithDeadline_observed deadline (Projects.logging _ _)).bind fun _ => Projects.pure _
  have hproof : Projects Logged.state
      (applicationProof browser.observed targetId (deadline.map BrokerDeadline.observed))
      (applicationProof browser targetId deadline) := by
    unfold applicationProof BasicAuthBrowser.observed
    cases browser.applicationAuthenticated with
    | none => exact Projects.pure _
    | some ask => exact invokeWithDeadline_observed deadline (Projects.logging _ _)
  have hverify : Projects Logged.state
      (verify d browser.observed targetId (deadline.map BrokerDeadline.observed))
      (verify d browser targetId deadline) := by
    apply (invokeWithDeadline_observed deadline (Projects.logging _ _)).bind
    intro afterUrl
    apply (Projects.check _).bind
    intro allowed
    apply Projects.ite _ _ (Projects.pure _)
    apply hagain.bind
    intro again
    apply Projects.ite _ (Projects.pure _)
    exact hproof.bind fun _ => Projects.ite _ (Projects.pure _) (Projects.pure _)
  apply Projects.ite _ (Projects.pure _)
  apply (checkDeadline_observed deadline).bind
  intro _
  apply Projects.ite _ (Projects.pure _)
  apply harrive.bind
  intro _
  apply hpresent.bind
  intro present
  apply Projects.ite _ _ (Projects.pure _)
  apply (checkDeadline_observed deadline).bind
  intro _
  apply (invokeWithDeadline_observed deadline (Projects.logging _ _)).bind
  intro _
  exact hverify

/-- The calls are only watched: the login runs as it does without. -/
theorem login_observed : Projects Logged.state (observedLogin d material intent browserFactory deadline)
    (login d browserFactory intent deadline material) :=
  (makeAdapter_renders browserFactory).then fun made =>
    execute_observed deadline made.1 made.2

end Login
end Soundness
end BasicFill
end CloudBrowser
