import CloudBrowser.Base64
import CloudBrowser.Text

/-! Signed capabilities for one login, and how the broker reads them. -/
namespace CloudBrowser
namespace Capability

/-- `int` of a clock reading. -/
def truncate (q : Time) : ℤ := if 0 ≤ q then q.floor else q.ceil

@[simp] theorem truncate_intCast (i : ℤ) : truncate i = i := by
  unfold truncate
  split_ifs
  · exact Rat.floor_intCast i
  · exact Rat.ceil_intCast i

/-- The claims of a capability. -/
structure Claims where
  profileId : String
  principalId : String
  browserId : String
  generation : String
  siteId : String
  targetTabId : String
  operation : String
  requestId : String
  audience : String
  deployment : String
  issuedAt : ℤ
  expiresAt : ℤ
  nonce : String
  deriving DecidableEq, Repr

/-- `_require_text`. -/
def requireText (limit : ℕ) (value : String) : Bool := Text.bounded Text.utf8Length limit value

/-- `_is_canonical_identifier`. -/
def isCanonicalIdentifier (value : String) : Bool :=
  value.toList.all fun c => c.val < 0x80 && (c.isAlphanum || c = '_' || c = '-' || c = '~')

/-- The fields that are bounded by 256 bytes, under their names. -/
def Claims.fields (c : Claims) : List (String × String) :=
  [("profile_id",c.profileId),("principal_id",c.principalId),("browser_id",c.browserId),
    ("generation",c.generation),("site_id",c.siteId),("target_tab_id",c.targetTabId),
    ("operation",c.operation),("audience",c.audience),("deployment",c.deployment)]

/-- `__post_init__`: the message of the first check that fails. -/
def Claims.invalid (c : Claims) : Option String :=
  match c.fields.find? fun f => !requireText 256 f.2 with
  | some f => some (f.1 ++ " is invalid")
  | none =>
    if !requireText 128 c.requestId then some "request_id is invalid"
    else if !requireText 128 c.nonce then some "nonce is invalid"
    else if !isCanonicalIdentifier c.nonce then some "nonce is invalid"
    else if c.operation ≠ "credential.login" then some "operation must be credential.login"
    else if c.expiresAt ≤ c.issuedAt ∨ 300 < c.expiresAt-c.issuedAt then
      some "capability lifetime is invalid"
    else none

structure CredentialCapability extends Claims where
  valid : toClaims.invalid = none
  deriving DecidableEq

/-- `CapabilityError`, with its message. -/
structure CapabilityError where
  message : String
  deriving DecidableEq, Repr

def requiredFields : List String :=
  ["profile_id","principal_id","browser_id","generation","site_id","target_tab_id","operation",
    "request_id","audience","deployment","issued_at","expires_at","nonce"]

/-- An integer that is not a boolean. -/
def integer : Json → Option ℤ
  | .int i => some i
  | _ => none

/-- `CredentialCapability(**raw)`, where it raises nothing. -/
def ofFields (raw : List (String × Json)) : Option CredentialCapability := do
  let text := fun name => (Json.get raw name).asString
  let claims : Claims := {
    profileId := ← text "profile_id"
    principalId := ← text "principal_id"
    browserId := ← text "browser_id"
    generation := ← text "generation"
    siteId := ← text "site_id"
    targetTabId := ← text "target_tab_id"
    operation := ← text "operation"
    requestId := ← text "request_id"
    audience := ← text "audience"
    deployment := ← text "deployment"
    issuedAt := ← integer (Json.get raw "issued_at")
    expiresAt := ← integer (Json.get raw "expires_at")
    nonce := ← text "nonce" }
  if h : claims.invalid = none then some ⟨claims,h⟩ else none

/-- The secret of a codec, `hmac.new(…, hashlib.sha256)` and `json.loads`. -/
structure Codec where
  secret : Bytes
  secret_length : 16 ≤ secret.length
  mac : Bytes → Bytes → Bytes
  loads : String → Option Json

/-- `set(raw) == _REQUIRED_FIELDS`. -/
def hasRequiredFields (raw : List (String × Json)) : Bool :=
  requiredFields.all (fun name => raw.any fun f => f.1 = name) &&
    raw.all fun f => requiredFields.contains f.1

/-- What `decode` reads out of a token before it looks at the time and the context. -/
def Codec.authenticate (codec : Codec) (token : String) :
    Except CapabilityError CredentialCapability :=
  if 16*1024 < token.length then .error ⟨"capability token is invalid"⟩
  else match token.toList.splitOn '.' with
  | [version,payload,signature] =>
    if version ≠ "v1".toList ∨ payload = [] ∨ signature = [] then
      .error ⟨"capability token is invalid"⟩
    else match Base64.decode payload, Base64.decode signature with
    | some payloadBytes, some signatureBytes =>
      let signed := Text.encodeUtf8 (String.ofList (version ++ '.'::payload))
      if signatureBytes ≠ codec.mac codec.secret signed then
        .error ⟨"capability signature is invalid"⟩
      else match (Text.decodeUtf8 payloadBytes).bind codec.loads with
      | none => .error ⟨"capability payload is invalid"⟩
      | some (.obj raw) =>
        if !hasRequiredFields raw then .error ⟨"capability claims are invalid"⟩
        else match ofFields raw with
        | none => .error ⟨"capability claims are invalid"⟩
        | some capability => .ok capability
      | some _ => .error ⟨"capability claims are invalid"⟩
    | _, _ => .error ⟨"capability token is invalid"⟩
  | _ => .error ⟨"capability token is invalid"⟩

/-- The part of `decode` that looks at the time and at the context of the receiver. -/
def CredentialCapability.admit (capability : CredentialCapability) (now : Time)
    (audience deployment operation : String) : Except CapabilityError CredentialCapability :=
  if now < capability.issuedAt ∨ capability.expiresAt ≤ now then
    .error ⟨"capability is expired or not yet valid"⟩
  else if capability.audience ≠ audience then .error ⟨"capability audience mismatch"⟩
  else if capability.deployment ≠ deployment then .error ⟨"capability deployment mismatch"⟩
  else if capability.operation ≠ operation then .error ⟨"capability operation mismatch"⟩
  else .ok capability

def Codec.decode (codec : Codec) (token : String) (now : Time)
    (audience deployment operation : String) : Except CapabilityError CredentialCapability :=
  match codec.authenticate token with
  | .error e => .error e
  | .ok capability => capability.admit now audience deployment operation

/-- What is decoded does not depend on the time, or on the receiver. -/
theorem decode_ok {codec : Codec} {token audience deployment operation : String} {now : Time}
    {capability : CredentialCapability}
    (h : codec.decode token now audience deployment operation = .ok capability) :
    codec.authenticate token = .ok capability ∧ now < capability.expiresAt := by
  unfold Codec.decode at h
  split at h
  · cases h
  rename_i capability' hauth
  unfold CredentialCapability.admit at h
  split at h
  · cases h
  rename_i htime
  split at h
  · cases h
  split at h
  · cases h
  split at h
  · cases h
  cases h
  rw [not_or] at htime
  exact ⟨hauth,Rat.not_le.mp htime.2⟩

/-- The header, the payload and the signature of a token. -/
def signedPart (text : String) : List Char :=
  "v1".toList ++ '.' :: Base64.encode (Text.encodeUtf8 text)

def Codec.signature (codec : Codec) (text : String) : Bytes :=
  codec.mac codec.secret (Text.encodeUtf8 (String.ofList (signedPart text)))

/-- The token that carries a JSON text under its signature. -/
def Codec.seal (codec : Codec) (text : String) : String :=
  String.ofList (signedPart text ++ '.' :: Base64.encode (codec.signature text))

theorem dot_not_mem (bytes : Bytes) : '.' ∉ Base64.encode bytes := by
  intro h
  have hmem := Base64.encode_alphabet bytes '.' h
  revert hmem
  decide

theorem split_token (payload signature : Bytes) :
    ("v1".toList ++ '.' :: Base64.encode payload ++ '.' :: Base64.encode signature).splitOn '.' =
      ["v1".toList,Base64.encode payload,Base64.encode signature] := by
  have hv : '.' ∉ "v1".toList := by decide
  rw [List.splitOn_append_cons_self,List.splitOn_append_cons_self,List.splitOn_eq_singleton hv,
    List.splitOn_eq_singleton (dot_not_mem payload),List.splitOn_eq_singleton (dot_not_mem signature)]
  rfl

theorem length_seal (codec : Codec) (text : String) : (codec.seal text).length =
    4+(4*(Text.encodeUtf8 text).length+2)/3+(4*(codec.signature text).length+2)/3 := by
  have hv : "v1".toList.length = 2 := by decide
  rw [Codec.seal,String.length_ofList,signedPart]
  simp only [List.length_append,List.length_cons,Base64.length_encode,hv]
  omega

theorem encode_ne_nil {bytes : Bytes} (h : bytes ≠ []) : Base64.encode bytes ≠ [] := by
  intro hnil
  have hlen := Base64.length_encode bytes
  rw [hnil,List.length_nil] at hlen
  have hpos := List.length_pos_iff.mpr h
  omega

/-- A sealed token is read as the capability that its text spells. -/
theorem authenticate_seal {codec : Codec} {text : String} {raw : List (String × Json)}
    {capability : CredentialCapability} (hlen : (codec.seal text).length ≤ 16*1024)
    (htext : Text.encodeUtf8 text ≠ []) (hmac : codec.signature text ≠ [])
    (hloads : codec.loads text = some (.obj raw)) (hfields : hasRequiredFields raw = true)
    (hraw : ofFields raw = some capability) :
    codec.authenticate (codec.seal text) = .ok capability := by
  have hsplit : (codec.seal text).toList.splitOn '.' = ["v1".toList,
      Base64.encode (Text.encodeUtf8 text),Base64.encode (codec.signature text)] := by
    rw [Codec.seal,String.toList_ofList]
    exact split_token _ _
  have hsigned : codec.mac codec.secret (Text.encodeUtf8 (String.ofList
      ("v1".toList ++ '.' :: Base64.encode (Text.encodeUtf8 text)))) = codec.signature text := rfl
  simp only [Codec.authenticate,if_neg (Nat.not_lt.mpr hlen),hsplit,Base64.decode_encode,hsigned]
  simp [encode_ne_nil htext,encode_ne_nil hmac,Text.decodeUtf8_encodeUtf8,hloads,hfields,hraw]

end Capability
end CloudBrowser
