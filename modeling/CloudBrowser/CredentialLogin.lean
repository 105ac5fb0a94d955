import CloudBrowser.CapabilityTokens
import CloudBrowser.RestartEquivalence
import CloudBrowser.HeldSlots

/-! The login endpoint of the router: it mints a capability for the browser that the caller's
session holds and forwards it to the broker. The same texts are bounded by the session store,
by the endpoint, by the capability and by the forwarder, each in its own measure. -/
namespace CloudBrowser
namespace RouterSessions

open Keyed

section Housed

variable {settings : Settings} {request : Request} {outside : Outside} {s s' : Store}
  {t : SessionTable} {r r' : RouterSession}

/-- The record holds a slot that some start of the router had, under its own binding. -/
def Housed (r : RouterSession) : Prop :=
  r.status.occupies = true →
    ∃ slot : SlotDescriptor, r.slotId = some slot.slotId ∧ r.binding = some (r.bindingOn slot)

theorem Housed.same (h : Housed r) (hid : r'.sessionId = r.sessionId)
    (hprincipal : r'.principalId = r.principalId)
    (hocc : r'.status.occupies = true →
      r.status.occupies = true ∧ r'.slotId = r.slotId ∧ r'.binding = r.binding) : Housed r' := by
  intro hr'
  obtain ⟨hr,hslot,hbinding⟩ := hocc hr'
  obtain ⟨slot,hrslot,hrbinding⟩ := h hr
  refine ⟨slot,hslot.trans hrslot,?_⟩
  rw [hbinding,hrbinding,RouterSession.bindingOn,RouterSession.bindingOn,hid,hprincipal]

theorem housed_put (h : ∀ x ∈ t, Housed x) (hr : Housed r) : ∀ x ∈ t.put r, Housed x := by
  intro x hx
  rcases Table.mem_put.mp hx with rfl | hx
  · exact hr
  · exact h x hx.1

theorem housed_change (h : ∀ r ∈ s.sessions, Housed r)
    (hstep : Change settings request outside s s') : ∀ r ∈ s'.sessions, Housed r := by
  cases hstep with
  | expire n hpolls =>
    intro x hx
    obtain ⟨r,hr,rfl⟩ := mem_expireAll.mp hx
    intro hocc
    have hsame := occupies_expire _ hocc
    rw [hsame] at hocc ⊢
    exact h r hr hocc
  | offer r slot n hmem hwaiting hknown hfree =>
    exact housed_put h fun _ => ⟨slot,rfl,rfl⟩
  | reserve n hlater => exact h
  | join r hbounded hfresh hnamed halone hwaiting =>
    apply housed_put h
    intro hocc
    simp [hwaiting,SessionStatus.occupies] at hocc
  | activate r n hcalled hmem hoffered =>
    apply housed_put h
    exact (h r hmem).same rfl rfl fun _ => ⟨by simp [hoffered,SessionStatus.occupies],rfl,rfl⟩
  | leave r hcalled hmem =>
    apply housed_put h
    intro hocc
    simp [RouterSession.leave,SessionStatus.occupies] at hocc
  | backoff r n hcalled hmem =>
    apply housed_put h
    intro hocc
    simp [RouterSession.backoff,SessionStatus.occupies] at hocc
  | renew r n hcalled hmem hactive =>
    apply housed_put h
    exact (h r hmem).same rfl rfl fun hocc => ⟨hocc,rfl,rfl⟩
  | persist => exact h

theorem housed_run (es : List Event) (h : Router.initial.run es = .up settings s) :
    ∀ r ∈ s.sessions, Housed r := by
  have hrun := Router.upholds_run (I:=fun t _ => ∀ r ∈ t, Housed r)
    (fun _ hr => absurd hr Table.mem_empty) (fun s hs r hr => hs r (mem_loadRecords hr))
    (fun _ _ _ _ _ => housed_change) es
  rw [h] at hrun
  exact hrun.1

end Housed
end RouterSessions

namespace RouterApi
open Capability
open RouterSessions (RouterSession)

/-- `_bounded_text`. -/
def boundedText (limit : ℕ) : Json → Option String
  | .str s => if Text.bounded Text.utf8Length limit s then some s else none
  | _ => none

/-- `_CREDENTIAL_ALLOWED_FIELDS`. -/
def credentialAllowedFields : List String := ["request_id","site_id","target_tab_id"]

/-- `_CREDENTIAL_REFERENCE_FIELDS`. -/
def credentialReferenceFields : List String := ["username_ref","grant_ref"]

/-- The body of a login request. -/
structure LoginBody where
  requestId : String
  siteId : String
  targetTabId : String
  requestId_bounded : Text.bounded Text.utf8Length 128 requestId = true
  siteId_bounded : Text.bounded Text.utf8Length 256 siteId = true
  targetTabId_bounded : Text.bounded Text.utf8Length 256 targetTabId = true

/-- The body, where `credential_login` accepts it. -/
def LoginBody.parse (body : List (String × Json)) : Option LoginBody :=
  match Json.get body "request_id", Json.get body "site_id", Json.get body "target_tab_id" with
  | .str requestId, .str siteId, .str targetTabId =>
    if h : Text.bounded Text.utf8Length 128 requestId = true ∧
        Text.bounded Text.utf8Length 256 siteId = true ∧
        Text.bounded Text.utf8Length 256 targetTabId = true then
      if (body.all fun f => credentialAllowedFields.contains f.1) &&
          !body.any fun f => credentialReferenceFields.contains f.1 then
        some ⟨requestId,siteId,targetTabId,h.1,h.2.1,h.2.2⟩
      else none
    else none
  | _, _, _ => none

/-- How the router is configured to mint. The time to live is bounded by the constructor of the
forwarder, which is given the same. -/
structure Minter where
  secret : Bytes
  secret_length : 16 ≤ secret.length
  capabilityAudience : String
  instanceId : String
  capabilityTtl : ℤ
  capabilityTtl_pos : 0 < capabilityTtl
  capabilityTtl_le : capabilityTtl ≤ 300

def Minter.codec (m : Minter) : Codec := Codec.standard m.secret m.secret_length

/-- `deployment or "unknown-deployment"`. -/
def Minter.deployment (m : Minter) : String :=
  if m.instanceId = "" then "unknown-deployment" else m.instanceId

/-- `secrets.token_urlsafe(24)`. -/
structure Nonce where
  bytes : Bytes
  length_bytes : bytes.length = 24

def Nonce.text (n : Nonce) : String := String.ofList (Base64.encode n.bytes)

/-- What the router puts into the capability. -/
def Minter.claims (m : Minter) (principalId : String) (binding : BrowserBinding) (body : LoginBody)
    (now : ℤ) (nonce : Nonce) : Claims where
  profileId := binding.profileId
  principalId := principalId
  browserId := binding.browserId
  generation := binding.generation
  siteId := body.siteId
  targetTabId := body.targetTabId
  operation := "credential.login"
  requestId := body.requestId
  audience := m.capabilityAudience
  deployment := m.deployment
  issuedAt := now
  expiresAt := now+m.capabilityTtl
  nonce := nonce.text

/-- `CredentialCapability(...)` and `encode`, with the message of the `ValueError` of either. -/
def Minter.mint (m : Minter) (claims : Claims) : Except String (CredentialCapability × String) :=
  if h : claims.invalid = none then
    match m.codec.encode ⟨claims,h⟩ with
    | some token => .ok (⟨claims,h⟩,token)
    | none => .error "Exceeds the limit (4300 digits) for integer string conversion"
  else .error (claims.invalid.getD "")

inductive ForwardError
  | invalid (message : String)
  | unavailable
  deriving DecidableEq

/-- `json.dumps({"capability": capability}, separators=(",", ":"))`. -/
def forwardBody (capability : String) : List Char :=
  '\x7b' :: Json.dumpString "capability" ++ ':' :: Json.dumpString capability ++ ['\x7d']

/-- The checks of `forward`, up to the body that is posted. -/
def checkForward (capability requestId : String) : Except ForwardError (List Char) :=
  if !Text.bounded String.length 128 requestId then .error (.invalid "request_id is invalid")
  else if !Text.bounded Text.utf8Length (16*1024) capability then
    .error (.invalid "capability is invalid")
  else if 4096 < Text.byteSize (forwardBody capability) then
    .error (.invalid "capability request is too large")
  else .ok (forwardBody capability)

/-- What the forwarder keeps of the broker's answer. -/
structure BrokerAnswer where
  status : String
  errorCode : Option String
  durationMs : ℕ

structure Payload where
  requestId : String
  status : String
  errorCode : Option String
  durationMs : Option ℕ := none

def failed (requestId code : String) : Payload := ⟨requestId,"failed",some code,none⟩

/-- `credential_login`: the caller's identity, what the store has for it (unless it raises), the
clock, the nonce, and how the broker answers a body. -/
def credentialLogin (minter : Option Minter) (body : List (String × Json))
    (resolved : Option String) (lookup : String → Option (Option RouterSession)) (clock : Time)
    (nonce : Nonce) (post : List Char → Except ForwardError BrokerAnswer) : ℕ × Payload :=
  match LoginBody.parse body with
  | none =>
    (200,failed ((boundedText 128 (Json.get body "request_id")).getD "") "invalid_request")
  | some login =>
    match resolved with
    | none => (401,failed login.requestId "unauthorized")
    | some principalId =>
      match minter with
      | none => (200,failed login.requestId "broker_unavailable")
      | some m =>
        match lookup principalId with
        | none => (200,failed login.requestId "lookup_failed")
        | some none => (200,failed login.requestId "session_not_found")
        | some (some session) =>
          if session.status ≠ .active then (200,failed login.requestId "session_not_found")
          else match session.binding, session.slotId with
          | some binding, some _ =>
            if binding.principalId ≠ principalId then (200,failed login.requestId "owner_mismatch")
            else
              match m.mint (m.claims principalId binding login (truncate clock) nonce) with
              | .error _ => (200,failed login.requestId "invalid_request")
              | .ok (_,token) =>
                match (checkForward token login.requestId).bind post with
                | .error (.invalid _) => (200,failed login.requestId "invalid_request")
                | .error .unavailable => (200,failed login.requestId "broker_unavailable")
                | .ok answer =>
                  (200,⟨login.requestId,answer.status,answer.errorCode,some answer.durationMs⟩)
          | _, _ => (200,failed login.requestId "no_binding")

end RouterApi
end CloudBrowser
