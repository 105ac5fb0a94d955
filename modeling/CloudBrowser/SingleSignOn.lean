import CloudBrowser.BasicAuth
import CloudBrowser.EdgeAuth
import CloudBrowser.GatedCredentials
import CloudBrowser.VaultItems

/-! Single sign-on through Authentik: the adapter fills the identification page of the declared
identity provider, stops at a human's second factor, and asks the application who is signed in. -/
namespace CloudBrowser
namespace SingleSignOn

open Stateful LoginCoordinator
open BasicAuth (SplitUrl)
open Idempotency (brokerStatusValues errorBounded)
open VaultItems (CredentialMaterial)

/-! ### Identities -/

section Identity

def isIdentityAlnum (c : Char) : Bool := ('a' ≤ c && c ≤ 'z') || ('0' ≤ c && c ≤ '9')

/-- The characters of the first part of an identity. -/
def isIdentityChar (c : Char) : Bool :=
  isIdentityAlnum c || c ∈ ".!#$%&'*+/=?^_`\x7b|\x7d~-".toList

/-- A part of the domain: up to 63 letters, digits and hyphens, with no hyphen at an end. -/
def isIdentityLabel (l : List Char) : Bool :=
  l.length ≤ 63 && l.all (fun c => isIdentityAlnum c || c = '-') && l.head?.any isIdentityAlnum &&
    l.getLast?.any isIdentityAlnum

/-- `_IDENTITY_RE.fullmatch`. -/
def identityRe (candidate : List Char) : Bool :=
  match candidate.splitOn '@' with
  | [name] => !name.isEmpty && name.all isIdentityChar
  | [name,domain] =>
    !name.isEmpty && name.all isIdentityChar && (domain.splitOn '.').all isIdentityLabel
  | _ => false

/-- `candidate.partition("@")[2]`. -/
def afterAt (candidate : List Char) : List Char := (candidate.dropWhile (· ≠ '@')).tail

def canonicalIdentity (value : String) : Option String :=
  if value.toList.any fun c => 0x7F < c.val || (c.val < 0x20 && c ∉ [' ','\t']) || c.val = 0x7F
    then none
  else if '\n' ∈ value.toList ∨ '\r' ∈ value.toList then none
  else
    let candidate := (EdgeAuth.strip value.toList).map Char.toLower
    if identityRe candidate ∧ ('@' ∉ candidate ∨ '.' ∈ afterAt candidate) then
      some (String.ofList candidate)
    else none

end Identity

/-! ### Declarations -/

section Declarations

variable (urlsplit : String → Except Unit SplitUrl)

def parseUrl (url : String) : Except Raised SplitUrl :=
  match urlsplit url with
  | .error _ => .error (.valueError "urlsplit")
  | .ok parsed => .ok parsed

/-- `_https_origin`. -/
def httpsOrigin (url : String) : Except Raised (Option String) := do
  let parsed ← parseUrl urlsplit url
  if parsed.scheme ≠ "https" ∨ parsed.hostname.getD "" = "" ∨ parsed.username.getD "" ≠ "" ∨
      parsed.password.getD "" ≠ "" then return none
  return some ("https://" ++ parsed.netloc)

/-- `AuthentikSSODeclaration`, with what the adapter reads of it. -/
structure AuthentikSSODeclaration where
  entryUrl : String
  idpOrigins : List String
  callbackOrigins : List String
  applicationOrigins : List String
  applicationSuccessPaths : List String
  allowedMfa : List String := ["totp"]
  origins_exact : ∀ origin ∈ idpOrigins ++ callbackOrigins ++ applicationOrigins,
    httpsOrigin urlsplit origin = .ok (some origin)
  entry_https : ∃ entry, urlsplit entryUrl = .ok entry ∧ entry.scheme = "https" ∧
    entry.netloc ≠ "" ∧ entry.username.getD "" = "" ∧ entry.password.getD "" = ""
  paths_nonempty : applicationSuccessPaths ≠ []
  paths_plain : ∀ path ∈ applicationSuccessPaths,
    path.toList.head? = some '/' ∧ '?' ∉ path.toList ∧ '#' ∉ path.toList

namespace AuthentikSSODeclaration

variable {urlsplit} (d : AuthentikSSODeclaration urlsplit)

def allowsIdp (url : String) : Except Raised Bool := do
  match ← httpsOrigin urlsplit url with
  | none => return false
  | some origin => return origin ∈ d.idpOrigins

def allowsApplication (url : String) : Except Raised Bool := do
  let parsed ← parseUrl urlsplit url
  match ← httpsOrigin urlsplit url with
  | none => return false
  | some origin => return origin ∈ d.callbackOrigins ++ d.applicationOrigins &&
      parsed.path ∈ d.applicationSuccessPaths

/-- The declared identity provider, or the exact success URL of an application. -/
def allows (url : String) : Except Raised Bool := do
  if ← d.allowsIdp url then return true
  d.allowsApplication url

end AuthentikSSODeclaration
end Declarations

/-! ### The adapter -/

section Adapter

variable {σ : Type}

/-- What the adapter is given of the browser. -/
structure AuthentikBrowser (σ : Type) where
  currentUrl : Operation σ String
  beginAuthentik : String → Operation σ Unit
  identification : String → String → Operation σ String
  applicationIdentity : Operation σ (Option String)
  mfaStage : Operation σ (Option String)

/-- What the code of a result must be. -/
structure Plain (code : String) : Prop where
  bounded : errorBounded (some code) = true
  chars : code.toList.all (· ∈ errorCodeChars) = true

theorem plain_mismatch : Plain "identity_mismatch" := ⟨by decide +kernel,by decide +kernel⟩

theorem plain_identity : Plain "identity_invalid" := ⟨by decide +kernel,by decide +kernel⟩

theorem plain_rejected : Plain "credential_rejected" := ⟨by decide +kernel,by decide +kernel⟩

theorem plain_denied : Plain "authentik_denied" := ⟨by decide +kernel,by decide +kernel⟩

theorem plain_target : Plain "invalid_target" := ⟨by decide +kernel,by decide +kernel⟩

def unverified (status errorCode : String)
    (hs : status ∈ brokerStatusValues := by
      first
        | exact Idempotency.failed_known
        | exact Idempotency.unsupported_known
        | decide +kernel)
    (he : errorBounded (some errorCode) = true := by decide +kernel)
    (hp : errorCode.toList.all (· ∈ errorCodeChars) = true := by decide +kernel) :
    AdapterResult where
  status := status
  identityVerified := false
  errorCode := some errorCode
  status_known := hs
  errorCode_bounded := he
  errorCode_plain := hp

/-- `AdapterResult("authenticated", True)`. -/
def authenticated : AdapterResult where
  status := "authenticated"
  identityVerified := true
  status_known := Idempotency.authenticated_known
  errorCode_bounded := rfl
  errorCode_plain := rfl

/-- `_stage_result`. -/
def stageResult (stage : String) (allowed : List String) : AdapterResult :=
  if stage ∈ allowed then unverified "mfa_required" "mfa_required"
  else unverified "unsupported" "mfa_unsupported"

/-- The account that is shown is the expected one. -/
def identityResult (account expectedAccount : String) : AdapterResult :=
  match canonicalIdentity expectedAccount, canonicalIdentity account with
  | some expected, some observed =>
    if observed ≠ expected then
      unverified "failed" "identity_mismatch" Idempotency.failed_known plain_mismatch.bounded
        plain_mismatch.chars
    else authenticated
  | _, _ =>
    unverified "failed" "identity_invalid" Idempotency.failed_known plain_identity.bounded
      plain_identity.chars

namespace AuthentikSSOAdapter

variable {urlsplit : String → Except Unit SplitUrl} (d : AuthentikSSODeclaration urlsplit)
  (material : CredentialMaterial) (browser : AuthentikBrowser σ)
  (deadline : Option (BrokerDeadline σ)) (expectedAccount : String)

/-- Where the browser is, after a way to the entry page if it is at none of the declared URLs. -/
def arrive : Operation σ String := do
  let current ← invokeWithDeadline deadline browser.currentUrl
  if ← check (d.allows current) then return current
  invokeWithDeadline deadline (browser.beginAuthentik d.entryUrl)
  invokeWithDeadline deadline browser.currentUrl

/-- Verify that the application is reached, and by whom. -/
def verify : Operation σ AdapterResult := do
  let finalUrl ← invokeWithDeadline deadline browser.currentUrl
  if ← check (d.allowsApplication finalUrl) then
    match ← invokeWithDeadline deadline browser.applicationIdentity with
    | none => return unverified "failed" "success_unverified"
    | some account => return identityResult account expectedAccount
  else return unverified "failed" "success_unverified"

/-- Hand the credentials over to the identification page. -/
def identify : Operation σ AdapterResult := do
  checkDeadline deadline
  let outcome ← invokeWithDeadline deadline
    (browser.identification material.username material.password)
  if outcome = "rejected" then
    return unverified "failed" "credential_rejected" Idempotency.failed_known
      plain_rejected.bounded plain_rejected.chars
  else if outcome ∉ ["accepted","submitted"] then
    return unverified "failed" "authentik_denied" Idempotency.failed_known plain_denied.bounded
      plain_denied.chars
  else match ← invokeWithDeadline deadline browser.mfaStage with
    | some stage => return stageResult stage d.allowedMfa
    | none => verify d browser deadline expectedAccount

def execute : Operation σ AdapterResult := do
  checkDeadline deadline
  let current ← arrive d browser deadline
  if ← check (d.allows current) then
    match ← invokeWithDeadline deadline browser.mfaStage with
    | some stage => return stageResult stage d.allowedMfa
    | none =>
      if ← check (d.allowsIdp current) then
        identify d material browser deadline expectedAccount
      else verify d browser deadline expectedAccount
  else
    return unverified "failed" "invalid_target" Idempotency.failed_known plain_target.bounded
      plain_target.chars

end AuthentikSSOAdapter
end Adapter

/-! ### What the browser is asked -/

section Calls

variable {σ : Type}

/-- A call of the browser, with its arguments and its outcome. -/
inductive Call
  | currentUrl (r : Except Raised String)
  | beginAuthentik (entryUrl : String) (r : Except Raised Unit)
  | identification (username password : String) (r : Except Raised String)
  | applicationIdentity (r : Except Raised (Option String))
  | mfaStage (r : Except Raised (Option String))

def Call.isIdentification : Call → Bool
  | .identification _ _ _ => true
  | _ => false

def AuthentikBrowser.observed (b : AuthentikBrowser σ) : AuthentikBrowser (Logged σ Call) where
  currentUrl := logging .currentUrl b.currentUrl
  beginAuthentik entryUrl := logging (.beginAuthentik entryUrl) (b.beginAuthentik entryUrl)
  identification username password :=
    logging (.identification username password) (b.identification username password)
  applicationIdentity := logging .applicationIdentity b.applicationIdentity
  mfaStage := logging .mfaStage b.mfaStage

theorem invokeWithDeadline_observed {ω α : Type} (deadline : Option (BrokerDeadline σ))
    {call' : Operation (Logged σ ω) α} {call : Operation σ α}
    (h : Projects Logged.state call' call) : Projects Logged.state
      (invokeWithDeadline (deadline.map BrokerDeadline.observed) call')
      (invokeWithDeadline deadline call) :=
  (checkDeadline_observed deadline).bind fun _ => h

end Calls

namespace AuthentikSSOAdapter

variable {σ : Type} {urlsplit : String → Except Unit SplitUrl}
  (d : AuthentikSSODeclaration urlsplit) (material : CredentialMaterial)
  (browser : AuthentikBrowser σ)
  (deadline : Option (BrokerDeadline σ)) (expectedAccount : String)

/-- The calls that one sign-on makes, in their order. -/
def calls (s : σ) : List Call :=
  (exec (execute d material browser.observed (deadline.map BrokerDeadline.observed) expectedAccount)
    ⟨s,[]⟩).2.log

/-- The credentials go out for the first time, from a page of the identity provider that has just
been seen and shows no second factor. -/
structure Cleared (before : List Call) : Prop where
  first : ∀ call ∈ before, call.isIdentification = false
  seen : ∃ arrival url, before = arrival ++ [.currentUrl (.ok url),.mfaStage (.ok none)] ∧
    d.allowsIdp url = .ok true

/-- What allows a call of the browser, by the calls before it. -/
def Guarded (before : List Call) : Call → Prop
  | .identification username password _ =>
    username = material.username ∧ password = material.password ∧ Cleared d before
  | _ => True

/-- In the end the browser was at a success URL of the application, and the account that was shown
there is the expected one. -/
def Verified (calls : List Call) : Prop :=
  ∃ before finalUrl account identity,
    calls = before ++ [.currentUrl (.ok finalUrl),.applicationIdentity (.ok (some account))] ∧
      d.allowsApplication finalUrl = .ok true ∧ canonicalIdentity account = some identity ∧
      canonicalIdentity expectedAccount = some identity

/-- A sign-on is sound by the calls that it makes and what it answers. -/
structure Sound (calls : List Call) (answer : Except Raised AdapterResult) : Prop where
  once : calls.countP Call.isIdentification ≤ 1
  guarded : ∀ before username password r after,
    calls = before ++ .identification username password r :: after →
      username = material.username ∧ password = material.password ∧ Cleared d before
  verified : ∀ result, answer = .ok result → result.status = "authenticated" →
    Verified d expectedAccount calls

variable {d material expectedAccount}

theorem stageResult_status (stage : String) (allowed : List String) :
    (stageResult stage allowed).status ≠ "authenticated" := by
  unfold stageResult
  split_ifs <;> simp [unverified]

theorem identityResult_authenticated {account : String}
    (h : (identityResult account expectedAccount).status = "authenticated") :
    ∃ identity, canonicalIdentity account = some identity ∧
      canonicalIdentity expectedAccount = some identity := by
  unfold identityResult at h
  split at h
  case h_1 expected observed hexpected hobserved =>
    split_ifs at h with hne
    · simp [unverified] at h
    · exact ⟨observed,hobserved,by rw [hexpected,not_not.mp hne]⟩
  case h_2 => simp [unverified] at h

theorem Guarded.first_identification {before : List Call} {call : Call}
    (h : Guarded d material before call) (hcall : call.isIdentification = true) :
    ∀ e ∈ before, e.isIdentification = false := by
  cases call with
  | identification username password r => exact h.2.2.first
  | _ => cases hcall

theorem arrive_traces : Traces (Guarded d material) []
    (arrive d browser.observed (deadline.map BrokerDeadline.observed)) fun url l =>
      ∃ way, l = way ++ [.currentUrl (.ok url)] ∧ ∀ call ∈ l, call.isIdentification = false := by
  apply (invokeWithDeadline_traces deadline (Traces.logging fun _ => trivial)).bind
  rintro current _ ⟨rfl,-⟩
  apply Traces.check_bind
  intro allowed _
  cases allowed with
  | true => exact Traces.pure ⟨[],rfl,by simp [Call.isIdentification]⟩
  | false =>
    apply (invokeWithDeadline_traces deadline (Traces.logging fun _ => trivial)).bind
    rintro _ _ ⟨rfl,-⟩
    apply (invokeWithDeadline_traces deadline (Traces.logging fun _ => trivial)).conseq
    rintro url _ ⟨rfl,-⟩
    exact ⟨_,rfl,by simp [Call.isIdentification]⟩

theorem verify_traces {a : List Call} : Traces (Guarded d material) a
    (verify d browser.observed (deadline.map BrokerDeadline.observed) expectedAccount)
      fun answer l => answer.status = "authenticated" → Verified d expectedAccount l := by
  apply (invokeWithDeadline_traces deadline (Traces.logging fun _ => trivial)).bind
  rintro finalUrl _ ⟨rfl,-⟩
  apply Traces.check_bind
  intro allowed hallowed
  cases allowed with
  | false => exact Traces.pure (by simp [unverified])
  | true =>
    apply (invokeWithDeadline_traces deadline (Traces.logging fun _ => trivial)).bind
    rintro (_ | account) _ ⟨rfl,-⟩
    · exact Traces.pure (by simp [unverified])
    · apply Traces.pure
      intro h
      obtain ⟨identity,haccount,hexpected⟩ := identityResult_authenticated h
      exact ⟨a,finalUrl,account,identity,by simp,hallowed,haccount,hexpected⟩

theorem identify_traces {a : List Call} (ha : Cleared d a) : Traces (Guarded d material) a
    (identify d material browser.observed (deadline.map BrokerDeadline.observed) expectedAccount)
      fun answer l => answer.status = "authenticated" → Verified d expectedAccount l := by
  apply (checkDeadline_traces deadline).bind
  rintro _ _ rfl
  apply (invokeWithDeadline_traces deadline (Traces.logging fun _ => ⟨rfl,rfl,ha⟩)).bind
  rintro outcome _ ⟨rfl,-⟩
  split_ifs
  · exact Traces.pure (by simp [unverified])
  · apply (invokeWithDeadline_traces deadline (Traces.logging fun _ => trivial)).bind
    rintro (_ | stage) _ ⟨rfl,-⟩
    · exact verify_traces browser deadline
    · exact Traces.pure fun h => absurd h (stageResult_status _ _)
  · exact Traces.pure (by simp [unverified])

theorem execute_traces : Traces (Guarded d material) []
    (execute d material browser.observed (deadline.map BrokerDeadline.observed) expectedAccount)
      fun answer l => answer.status = "authenticated" → Verified d expectedAccount l := by
  apply (checkDeadline_traces deadline).bind
  rintro _ _ rfl
  apply (arrive_traces browser deadline).bind
  rintro url _ ⟨way,rfl,hway⟩
  apply Traces.check_bind
  intro allowed _
  cases allowed with
  | false => exact Traces.pure (by simp [unverified])
  | true =>
    apply (invokeWithDeadline_traces deadline (Traces.logging fun _ => trivial)).bind
    rintro (_ | stage) _ ⟨rfl,-⟩
    · apply Traces.check_bind
      intro idp hidp
      cases idp with
      | false => exact verify_traces browser deadline
      | true =>
        apply identify_traces browser deadline
        constructor
        · intro call hcall
          rcases List.mem_append.mp hcall with hcall | hcall
          · exact hway call hcall
          · rw [List.mem_singleton.mp hcall]
            rfl
        · exact ⟨way,url,by simp,hidp⟩
    · exact Traces.pure fun h => absurd h (stageResult_status _ _)

/-- The calls are only watched: the sign-on runs as it does without. -/
theorem execute_observed : Projects Logged.state
    (execute d material browser.observed (deadline.map BrokerDeadline.observed) expectedAccount)
      (execute d material browser deadline expectedAccount) := by
  have hverify : Projects Logged.state
      (verify d browser.observed (deadline.map BrokerDeadline.observed) expectedAccount)
      (verify d browser deadline expectedAccount) := by
    apply (invokeWithDeadline_observed deadline (Projects.logging _ _)).bind
    intro finalUrl
    apply (Projects.check _).bind
    intro allowed
    apply Projects.ite
    · apply (invokeWithDeadline_observed deadline (Projects.logging _ _)).bind
      rintro (_ | account) <;> exact Projects.pure _
    · exact Projects.pure _
  have harrive : Projects Logged.state
      (arrive d browser.observed (deadline.map BrokerDeadline.observed))
      (arrive d browser deadline) := by
    apply (invokeWithDeadline_observed deadline (Projects.logging _ _)).bind
    intro current
    apply (Projects.check _).bind
    intro allowed
    apply Projects.ite
    · exact Projects.pure _
    · apply (invokeWithDeadline_observed deadline (Projects.logging _ _)).bind
      intro _
      exact invokeWithDeadline_observed deadline (Projects.logging _ _)
  have hidentify : Projects Logged.state
      (identify d material browser.observed (deadline.map BrokerDeadline.observed) expectedAccount)
      (identify d material browser deadline expectedAccount) := by
    apply (checkDeadline_observed deadline).bind
    intro _
    apply (invokeWithDeadline_observed deadline (Projects.logging _ _)).bind
    intro outcome
    apply Projects.ite _ (Projects.pure _)
    apply Projects.ite _ (Projects.pure _)
    apply (invokeWithDeadline_observed deadline (Projects.logging _ _)).bind
    rintro (_ | stage)
    · exact hverify
    · exact Projects.pure _
  apply (checkDeadline_observed deadline).bind
  intro _
  apply harrive.bind
  intro current
  apply (Projects.check _).bind
  intro allowed
  apply Projects.ite _ _ (Projects.pure _)
  apply (invokeWithDeadline_observed deadline (Projects.logging _ _)).bind
  rintro (_ | stage)
  · apply (Projects.check _).bind
    intro idp
    exact Projects.ite _ hidentify hverify
  · exact Projects.pure _

theorem execute_sound (s : σ) : Sound d material expectedAccount
    (calls d material browser deadline expectedAccount s)
    (exec (execute d material browser deadline expectedAccount) s).1 := by
  have htraces := @execute_traces σ urlsplit d material browser deadline expectedAccount
    ⟨s,[]⟩ ⟨justified_nil,rfl⟩
  have hobserved := @execute_observed σ urlsplit d material browser deadline expectedAccount ⟨s,[]⟩
  rw [hobserved]
  unfold calls
  rcases hexec : exec (execute d material browser.observed (deadline.map BrokerDeadline.observed)
    expectedAccount) ⟨s,[]⟩ with ⟨answer,l⟩
  rw [hexec] at htraces
  have hjustified : Justified (Guarded d material) l.log := htraces.always
  constructor
  · exact hjustified.at_most_once fun _ _ => Guarded.first_identification
  · intro before username password r after h
    exact hjustified before _ after h
  · intro result hresult hstatus
    dsimp only at hresult
    subst hresult
    exact htraces.2 hstatus

end AuthentikSSOAdapter
end SingleSignOn
end CloudBrowser
