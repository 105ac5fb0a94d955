import CloudBrowser.CapabilityCodec
import CloudBrowser.JsonText
import CloudBrowser.Sha256
import Mathlib.Tactic.Linarith
import Mathlib.Tactic.Positivity

/-! The codec at work: what it writes it reads back, and what it reads was so written. -/
namespace CloudBrowser
namespace Json

theorem get_of_mem {fields : List (String × Json)} (hnodup : (fields.map Prod.fst).Nodup)
    {name : String} {v : Json} (hmem : (name,v) ∈ fields) : get fields name = v := by
  induction fields with
  | nil => cases hmem
  | cons f fields ih =>
    rw [List.map_cons,List.nodup_cons] at hnodup
    rw [get,List.lookup_cons]
    by_cases hname : name = f.1
    · have hhead : (name,v) = f := by
        cases List.mem_cons.mp hmem with
        | inl h => exact h
        | inr h => exact absurd (List.mem_map.mpr ⟨_,h,hname⟩) hnodup.1
      simp [← hhead]
    · have htail : (name,v) ∈ fields := by
        cases List.mem_cons.mp hmem with
        | inl h => exact absurd (congrArg Prod.fst h) hname
        | inr h => exact h
      rw [beq_false_of_ne hname]
      exact ih hnodup.2 htail

end Json

namespace Capability
open Json (Atom)

/-- `to_dict`. -/
def Claims.toDict (c : Claims) : List (String × Atom) :=
  [("profile_id",.str c.profileId),("principal_id",.str c.principalId),
    ("browser_id",.str c.browserId),("generation",.str c.generation),("site_id",.str c.siteId),
    ("target_tab_id",.str c.targetTabId),("operation",.str c.operation),
    ("request_id",.str c.requestId),("audience",.str c.audience),("deployment",.str c.deployment),
    ("issued_at",.int c.issuedAt),("expires_at",.int c.expiresAt),("nonce",.str c.nonce)]

theorem toDict_names (c : Claims) : c.toDict.map Prod.fst = requiredFields := rfl

/-- `sort_keys=True`. -/
def sortKeys (fields : List (String × Atom)) : List (String × Atom) :=
  fields.mergeSort fun f g => f.1 ≤ g.1

theorem sortKeys_perm (fields : List (String × Atom)) : (sortKeys fields).Perm fields :=
  List.mergeSort_perm fields _

/-- `_canonical_json`, where `json.dumps` does not raise on a numeral. -/
def canonicalJson (fields : List (String × Atom)) : Option String :=
  if fields.all fun f => f.2.writable then some (String.ofList (Json.writeObject (sortKeys fields)))
  else none

/-- `encode`, where it raises nothing. -/
def Codec.encode (codec : Codec) (capability : CredentialCapability) : Option String :=
  (canonicalJson capability.toDict).map codec.seal

/-- The codec with a secret: `hmac` with SHA-256, and `json.loads`. -/
def Codec.standard (secret : Bytes) (secret_length : 16 ≤ secret.length) : Codec :=
  ⟨secret,secret_length,Sha256.hmac,Json.loads⟩

/-- What `now` can be: a number, one of the three floats that stand for none, or an object that
is neither an `int` nor a `float`. -/
inductive Now
  | number (q : Time)
  | infinite (negative : Bool)
  | nan
  | other
  deriving DecidableEq

/-- `now < t`. -/
def Now.before : Now → ℤ → Bool
  | .number q, t => q < t
  | .infinite negative, _ => negative
  | .nan, _ => false
  | .other, _ => false

/-- `now >= t`. -/
def Now.reached : Now → ℤ → Bool
  | .number q, t => t ≤ q
  | .infinite negative, _ => !negative
  | .nan, _ => false
  | .other, _ => false

/-- What the receiver expects; `None` is not compared. -/
structure Context where
  audience : Option String
  deployment : Option String
  operation : Option String

/-- `expected_value is not None and actual != expected_value`. -/
def mismatch (expected : Option String) (actual : String) : Bool := expected.any (· ≠ actual)

@[simp] theorem mismatch_none (actual : String) : mismatch none actual = false := rfl

@[simp] theorem mismatch_some (expected actual : String) :
    mismatch (some expected) actual = decide (actual ≠ expected) := by
  simp [mismatch,eq_comm]

def CredentialCapability.admitFor (capability : CredentialCapability) (now : Now)
    (expected : Context) : Except CapabilityError CredentialCapability :=
  if now = .other then .error ⟨"capability clock is invalid"⟩
  else if now.before capability.issuedAt || now.reached capability.expiresAt then
    .error ⟨"capability is expired or not yet valid"⟩
  else if mismatch expected.audience capability.audience then
    .error ⟨"capability audience mismatch"⟩
  else if mismatch expected.deployment capability.deployment then
    .error ⟨"capability deployment mismatch"⟩
  else if mismatch expected.operation capability.operation then
    .error ⟨"capability operation mismatch"⟩
  else .ok capability

/-- `decode`, with any clock and with a context that may leave things open. -/
def Codec.decodeFor (codec : Codec) (token : String) (now : Now) (expected : Context) :
    Except CapabilityError CredentialCapability :=
  match codec.authenticate token with
  | .error e => .error e
  | .ok capability => capability.admitFor now expected

/-- With a number and a whole context it is the decoder of the broker. -/
theorem decodeFor_number (codec : Codec) (token : String) (now : Time)
    (audience deployment operation : String) :
    codec.decodeFor token (.number now) ⟨some audience,some deployment,some operation⟩ =
      codec.decode token now audience deployment operation := by
  unfold Codec.decodeFor Codec.decode
  cases codec.authenticate token with
  | error e => rfl
  | ok capability =>
    simp [CredentialCapability.admitFor, CredentialCapability.admit,Now.before,Now.reached]

/-! ### What is accepted -/

/-- What the constructor asks of the claims. -/
structure Claims.WellFormed (c : Claims) : Prop where
  fields : ∀ f ∈ c.fields, requireText 256 f.2 = true
  requestId : requireText 128 c.requestId = true
  nonce : requireText 128 c.nonce = true
  canonical : isCanonicalIdentifier c.nonce = true
  operation : c.operation = "credential.login"
  lifetime : c.issuedAt < c.expiresAt
  bounded : c.expiresAt-c.issuedAt ≤ 300

theorem invalid_eq_none {c : Claims} : c.invalid = none ↔ c.WellFormed := by
  unfold Claims.invalid
  cases hfind : c.fields.find? fun f => !requireText 256 f.2 with
  | some f =>
    simp only [reduceCtorEq,false_iff]
    intro h
    have hf := List.find?_some hfind
    rw [h.fields f (List.mem_of_find?_eq_some hfind)] at hf
    cases hf
  | none =>
    simp only [List.find?_eq_none,Bool.not_eq_true',Bool.not_eq_false] at hfind
    constructor
    · intro h
      split_ifs at h with hid hnonce hcanonical hoperation hlifetime
      simp only [Bool.not_eq_true',Bool.not_eq_false,not_not,not_or,Int.not_le,Int.not_lt] at *
      exact ⟨hfind,hid,hnonce,hcanonical,hoperation,hlifetime.1,hlifetime.2⟩
    · intro h
      have hlifetime : ¬(c.expiresAt ≤ c.issuedAt ∨ 300 < c.expiresAt-c.issuedAt) := by
        have hlt := h.lifetime
        have hle := h.bounded
        omega
      simp [h.requestId,h.nonce,h.canonical,h.operation,hlifetime]

theorem asString_eq_some {j : Json} {s : String} : j.asString = some s ↔ j = .str s := by
  cases j <;> simp [Json.asString]

theorem integer_eq_some {j : Json} {i : ℤ} : integer j = some i ↔ j = .int i := by
  cases j <;> simp [integer]

/-- The capability of an object has its fields, each of its own type. -/
theorem ofFields_eq_some {raw : List (String × Json)} {capability : CredentialCapability} :
    ofFields raw = some capability ↔
      ∀ f ∈ capability.toDict, Json.get raw f.1 = f.2.json := by
  constructor
  · intro h
    unfold ofFields at h
    obtain ⟨_,hprofile,h⟩ := Option.bind_eq_some_iff.mp h
    obtain ⟨_,hprincipal,h⟩ := Option.bind_eq_some_iff.mp h
    obtain ⟨_,hbrowser,h⟩ := Option.bind_eq_some_iff.mp h
    obtain ⟨_,hgeneration,h⟩ := Option.bind_eq_some_iff.mp h
    obtain ⟨_,hsite,h⟩ := Option.bind_eq_some_iff.mp h
    obtain ⟨_,htab,h⟩ := Option.bind_eq_some_iff.mp h
    obtain ⟨_,hoperation,h⟩ := Option.bind_eq_some_iff.mp h
    obtain ⟨_,hrequest,h⟩ := Option.bind_eq_some_iff.mp h
    obtain ⟨_,haudience,h⟩ := Option.bind_eq_some_iff.mp h
    obtain ⟨_,hdeployment,h⟩ := Option.bind_eq_some_iff.mp h
    obtain ⟨_,hissued,h⟩ := Option.bind_eq_some_iff.mp h
    obtain ⟨_,hexpires,h⟩ := Option.bind_eq_some_iff.mp h
    obtain ⟨_,hnonce,h⟩ := Option.bind_eq_some_iff.mp h
    have text : ∀ {name s}, (Json.get raw name).asString = some s → Json.get raw name = .str s :=
      asString_eq_some.mp
    dsimp only at h
    split at h
    · cases h
      simp [Claims.toDict,Json.Atom.json,text hprofile,text hprincipal,text hbrowser,
        text hgeneration,text hsite,text htab,text hoperation,text hrequest,text haudience,
        text hdeployment,integer_eq_some.mp hissued,integer_eq_some.mp hexpires,text hnonce]
    · cases h
  · intro h
    have hvalid := capability.valid
    simp only [Claims.toDict,List.forall_mem_cons,Json.Atom.json] at h
    simp [ofFields,h,Json.asString,integer,hvalid]

/-- A token that carries claims under the signature of the codec: their JSON text in base64,
and after it the digest of all that stands before. -/
def Codec.Carries (codec : Codec) (token : String) (c : Claims) : Prop :=
  ∃ payload signature payloadBytes text raw,
    token.toList = "v1".toList ++ '.' :: payload ++ '.' :: signature ∧
    payload ≠ [] ∧ signature ≠ [] ∧
    Base64.decode signature = some (codec.mac codec.secret
      (Text.encodeUtf8 (String.ofList ("v1".toList ++ '.' :: payload)))) ∧
    Base64.decode payload = some payloadBytes ∧ Text.decodeUtf8 payloadBytes = some text ∧
    codec.loads text = some (.obj raw) ∧ hasRequiredFields raw = true ∧
    ∀ f ∈ c.toDict, Json.get raw f.1 = f.2.json

theorem dot_not_mem_of_decode {digits : List Char} {bytes : Bytes}
    (h : Base64.decode digits = some bytes) : '.' ∉ digits := by
  intro hmem
  obtain ⟨values,hvalues,-⟩ := Option.bind_eq_some_iff.mp h
  obtain ⟨before,after,hdigits⟩ := List.append_of_mem hmem
  have hdot : Base64.value '.' = none := by decide
  rw [hdigits,List.mapM_append,List.mapM_cons,hdot] at hvalues
  simp at hvalues

/-- The tokens that are authentic are those that carry the claims, up to 16 KiB. -/
theorem authenticate_eq_ok {codec : Codec} {token : String} {capability : CredentialCapability} :
    codec.authenticate token = .ok capability ↔
      token.length ≤ 16*1024 ∧ codec.Carries token capability.toClaims := by
  constructor
  · intro h
    unfold Codec.authenticate at h
    split_ifs at h with hlen
    refine ⟨Nat.not_lt.mp hlen,?_⟩
    split at h
    · rename_i version payload signature hsplit
      split_ifs at h with hparts
      simp only [not_or,not_not] at hparts
      split at h
      · rename_i payloadBytes signatureBytes hbytes hsigned
        dsimp only at h
        split_ifs at h with hmac
        split at h
        · cases h
        · rename_i raw hloads
          split_ifs at h with hnames
          split at h
          · cases h
          · rename_i hraw
            cases h
            obtain ⟨text,htext,hloads⟩ := Option.bind_eq_some_iff.mp hloads
            have htoken : List.intercalate ['.'] (token.toList.splitOn '.') = token.toList :=
              List.intercalate_splitOn '.'
            rw [hsplit,hparts.1] at htoken
            rw [hparts.1,not_not] at hmac
            exact ⟨payload,signature,payloadBytes,text,raw,htoken.symm.trans
              (by simp [List.intercalate]),hparts.2.1,hparts.2.2,
              hsigned.trans (congrArg some hmac),hbytes,htext,hloads,by simpa using hnames,
              ofFields_eq_some.mp hraw⟩
        · cases h
      · cases h
    · cases h
  · rintro ⟨hlen,payload,signature,payloadBytes,text,raw,htoken,hpayload,hsignature,hsigned,
      hbytes,htext,hloads,hnames,hfields⟩
    have hv : '.' ∉ "v1".toList := by decide
    have hsplit : token.toList.splitOn '.' = ["v1".toList,payload,signature] := by
      rw [htoken,List.append_assoc,List.cons_append,List.splitOn_append_cons_self,
        List.splitOn_append_cons_self,
        List.splitOn_eq_singleton hv,List.splitOn_eq_singleton (dot_not_mem_of_decode hbytes),
        List.splitOn_eq_singleton (dot_not_mem_of_decode hsigned)]
      rfl
    simp [Codec.authenticate,Nat.not_lt.mpr hlen,hsplit,hpayload,hsignature,hbytes,hsigned,htext,
      hloads,hnames,ofFields_eq_some.mpr hfields]

/-- The readings that `decode` takes to lie in the lifetime of a capability. -/
def Now.Within (now : Now) (c : Claims) : Prop :=
  now ≠ .other ∧ now.before c.issuedAt = false ∧ now.reached c.expiresAt = false

/-- The comparisons with `nan` are all false, so that it passes for any time. -/
theorem within_iff {now : Now} {c : Claims} :
    now.Within c ↔ now = .nan ∨ ∃ q, now = .number q ∧ (c.issuedAt : ℚ) ≤ q ∧ q < c.expiresAt := by
  cases now with
  | number q => simp [Now.Within,Now.before,Now.reached]
  | infinite negative => cases negative <;> simp [Now.Within,Now.before,Now.reached]
  | nan => simp [Now.Within,Now.before,Now.reached]
  | other => simp [Now.Within]

/-- The claims are those that the receiver expects, as far as it does. -/
structure Context.Agrees (expected : Context) (c : Claims) : Prop where
  audience : ∀ a, expected.audience = some a → c.audience = a
  deployment : ∀ d, expected.deployment = some d → c.deployment = d
  operation : ∀ o, expected.operation = some o → c.operation = o

theorem mismatch_eq_false {expected : Option String} {actual : String} :
    mismatch expected actual = false ↔ ∀ e, expected = some e → actual = e := by
  cases expected <;> simp

theorem admitFor_eq_ok {c capability : CredentialCapability} {now : Now} {expected : Context} :
    c.admitFor now expected = .ok capability ↔
      c = capability ∧ now.Within c.toClaims ∧ expected.Agrees c.toClaims := by
  constructor
  · intro h
    unfold CredentialCapability.admitFor at h
    split_ifs at h with hclock htime haudience hdeployment hoperation
    simp only [Bool.or_eq_true,not_or,Bool.not_eq_true,mismatch_eq_false] at *
    exact ⟨Except.ok.inj h,⟨hclock,htime⟩,⟨haudience,hdeployment,hoperation⟩⟩
  · rintro ⟨rfl,⟨hclock,hbefore,hreached⟩,hagrees⟩
    have haudience := mismatch_eq_false.mpr hagrees.audience
    have hdeployment := mismatch_eq_false.mpr hagrees.deployment
    have hoperation := mismatch_eq_false.mpr hagrees.operation
    simp [CredentialCapability.admitFor,hclock,hbefore,hreached,haudience,hdeployment,hoperation]

theorem decodeFor_eq_ok {codec : Codec} {token : String} {now : Now} {expected : Context}
    {capability : CredentialCapability} :
    codec.decodeFor token now expected = .ok capability ↔
      token.length ≤ 16*1024 ∧ codec.Carries token capability.toClaims ∧
        now.Within capability.toClaims ∧ expected.Agrees capability.toClaims := by
  unfold Codec.decodeFor
  cases hauth : codec.authenticate token with
  | error e =>
    simp only [reduceCtorEq,false_iff]
    rintro ⟨hlen,hcarries,-⟩
    cases hauth.symm.trans (authenticate_eq_ok.mpr ⟨hlen,hcarries⟩)
  | ok c =>
    dsimp only
    rw [admitFor_eq_ok]
    constructor
    · rintro ⟨rfl,hnow,hagrees⟩
      have hread := authenticate_eq_ok.mp hauth
      exact ⟨hread.1,hread.2,hnow,hagrees⟩
    · rintro ⟨hlen,hcarries,hnow,hagrees⟩
      cases hauth.symm.trans (authenticate_eq_ok.mpr ⟨hlen,hcarries⟩)
      exact ⟨rfl,hnow,hagrees⟩

/-! ### What is written -/

/-- The payload is the object of the claims, whatever the order of its members. -/
theorem loads_canonicalJson {c : Claims} {text : String}
    (h : canonicalJson c.toDict = some text) :
    Json.loads text = some (.obj ((sortKeys c.toDict).map Json.field)) := by
  unfold canonicalJson at h
  split_ifs at h with hwritable
  cases h
  have hperm := sortKeys_perm c.toDict
  apply Json.loads_writeObject
  · intro f hf
    exact List.all_eq_true.mp hwritable f (hperm.mem_iff.mp hf)
  · rw [(hperm.map Prod.fst).nodup_iff,toDict_names]
    decide

theorem fields_sortKeys (c : Claims) :
    ∀ f ∈ c.toDict, Json.get ((sortKeys c.toDict).map Json.field) f.1 = f.2.json := by
  intro f hf
  have hperm := sortKeys_perm c.toDict
  apply Json.get_of_mem
  · rw [List.map_map]
    have hnames : (Prod.fst ∘ Json.field : String × Atom → String) = Prod.fst := rfl
    rw [hnames,(hperm.map Prod.fst).nodup_iff,toDict_names]
    decide
  · exact List.mem_map.mpr ⟨f,hperm.mem_iff.mpr hf,rfl⟩

theorem names_sortKeys (c : Claims) :
    hasRequiredFields ((sortKeys c.toDict).map Json.field) = true := by
  have hnames : hasRequiredFields (c.toDict.map Json.field) = true := rfl
  have hperm := (sortKeys_perm c.toDict).map Json.field
  unfold hasRequiredFields at *
  rw [hperm.all_eq]
  simpa [hperm.any_eq] using hnames

/-- The bytes of the payload. -/
def Claims.payloadSize (c : Claims) : ℕ := 1+(c.toDict.map Json.memberSize).sum

theorem length_canonicalJson {c : Claims} {text : String}
    (h : canonicalJson c.toDict = some text) :
    (Text.encodeUtf8 text).length = c.payloadSize := by
  unfold canonicalJson at h
  split_ifs at h
  cases h
  have hperm := sortKeys_perm c.toDict
  have hsome : sortKeys c.toDict ≠ [] := by
    intro hnil
    rw [hnil,Claims.toDict] at hperm
    cases hperm.nil_eq
  rw [Text.length_encodeUtf8,Text.utf8Length_ofList,Json.byteSize_writeObject hsome,
    (hperm.map Json.memberSize).sum_nat,Claims.payloadSize]

section Standard
variable {secret : Bytes} {hsecret : 16 ≤ secret.length}

theorem length_signature (text : String) :
    ((Codec.standard secret hsecret).signature text).length = 32 := Sha256.length_hmac _ _

/-- The length of a token follows from that of its payload. -/
theorem length_encode {capability : CredentialCapability} {token : String}
    (h : (Codec.standard secret hsecret).encode capability = some token) :
    token.length = 47+(4*capability.payloadSize+2)/3 := by
  obtain ⟨text,htext,rfl⟩ := Option.map_eq_some_iff.mp h
  rw [length_seal,length_canonicalJson htext,length_signature]
  omega

/-- What is encoded carries the claims it was made of. -/
theorem carries_encode {capability : CredentialCapability} {token : String}
    (h : (Codec.standard secret hsecret).encode capability = some token) :
    (Codec.standard secret hsecret).Carries token capability.toClaims := by
  obtain ⟨text,htext,rfl⟩ := Option.map_eq_some_iff.mp h
  have hread := loads_canonicalJson htext
  have hsome : Text.encodeUtf8 text ≠ [] := by
    apply List.ne_nil_of_length_pos
    rw [length_canonicalJson htext,Claims.payloadSize]
    omega
  have hmac : (Codec.standard secret hsecret).signature text ≠ [] := by
    apply List.ne_nil_of_length_pos
    rw [length_signature]
    decide
  refine ⟨_,_,_,text,_,?_,encode_ne_nil hsome,encode_ne_nil hmac,Base64.decode_encode _,
    Base64.decode_encode _,Text.decodeUtf8_encodeUtf8 text,hread,names_sortKeys _,
    fields_sortKeys _⟩
  rw [Codec.seal,String.toList_ofList]
  rfl

end Standard

/-- A numeral of some digits, and of a sign. -/
theorem byteSize_writeInt_le {i : ℤ} {k : ℕ} (hk : 0 < k) (h : i.natAbs < 10^k) :
    (Nat.toDigits 10 i.natAbs).length ≤ k ∧ Text.byteSize (Json.writeInt i) ≤ k+1 := by
  have hlen : (Nat.toDigits 10 i.natAbs).length ≤ k :=
    (Nat.length_toDigits_le_iff (by decide) hk).mpr h
  rw [Json.byteSize_writeInt]
  constructor
  · exact hlen
  · split <;> omega

/-- The names take 172 bytes with their signs, whatever the claims are. -/
theorem payloadSize_eq (c : Claims) : c.payloadSize = 176+
    (c.toDict.map fun f => Text.byteSize f.2.write).sum := by
  have hnames : (requiredFields.map fun name => Text.byteSize (Json.writeString name)) =
      [12,14,12,12,9,15,11,12,10,12,11,12,7] := by decide
  simp only [requiredFields,List.map_cons,List.map_nil,List.cons.injEq] at hnames
  simp only [Claims.payloadSize,Claims.toDict,List.map_cons,List.map_nil,List.sum_cons,List.sum_nil,
    Json.memberSize,hnames]
  ring

/-- Every field at its longest. -/
theorem payloadSize_le {c : Claims} (h : c.WellFormed) {k : ℕ} (hk : 0 < k)
    (hissued : c.issuedAt.natAbs < 10^k) (hexpires : c.expiresAt.natAbs < 10^k) :
    c.payloadSize ≤ 4824+2*k := by
  have hfield : ∀ f ∈ c.fields, Text.byteSize (Json.writeString f.2) ≤ 2*256+2 :=
    fun f hf => Json.byteSize_writeString (h.fields f hf)
  have hid := Json.byteSize_writeString h.requestId
  have hnonce := Json.byteSize_writeString h.nonce
  have hissued := (byteSize_writeInt_le hk hissued).2
  have hexpires := (byteSize_writeInt_le hk hexpires).2
  have hop : Text.byteSize (Json.writeString c.operation) = 18 := by
    rw [h.operation]
    decide
  simp only [Claims.fields,List.forall_mem_cons] at hfield
  simp only [payloadSize_eq,Claims.toDict,List.map_cons,List.map_nil,List.sum_cons,List.sum_nil,
    Atom.write]
  linarith

/-! ### The characters of tokens -/

/-- The characters of tokens and nonces. -/
def inToken (c : Char) : Prop := c = '.' ∨ c ∈ Base64.alphabet

theorem inToken_plain {c : Char} (h : inToken c) :
    c.utf8Size = 1 ∧ Text.isControl c = false ∧ Json.escapeChar c = [c] ∧
      Json.escapeRaw c = [c] := by
  have hall : ∀ c ∈ '.' :: Base64.alphabet, c.utf8Size = 1 ∧ Text.isControl c = false ∧
      Json.escapeChar c = [c] ∧ Json.escapeRaw c = [c] :=
    List.forall_mem_cons.mpr ⟨by decide,Base64.forall_alphabet (by decide)⟩
  cases h with
  | inl hdot => exact hall c (by simp [hdot])
  | inr hmem => exact hall c (List.mem_cons_of_mem _ hmem)

section Plain
variable {cs : List Char}

theorem byteSize_plain (h : ∀ c ∈ cs, inToken c) : Text.byteSize cs = cs.length := by
  induction cs with
  | nil => rfl
  | cons c cs ih =>
    have hone := (inToken_plain (h c List.mem_cons_self)).1
    have htail := ih fun d hd => h d (List.mem_cons_of_mem c hd)
    rw [Text.byteSize_cons,List.length_cons,hone,htail]
    omega

theorem flatMap_plain {f : Char → List Char} (hf : ∀ c, inToken c → f c = [c])
    (h : ∀ c ∈ cs, inToken c) : cs.flatMap f = cs := by
  induction cs with
  | nil => rfl
  | cons c cs ih =>
    have htail := ih fun d hd => h d (List.mem_cons_of_mem c hd)
    rw [List.flatMap_cons,hf c (h c List.mem_cons_self),htail]
    rfl

theorem bounded_plain {limit : ℕ} {size : String → ℕ} (h : ∀ c ∈ cs, inToken c) (hne : cs ≠ [])
    (hsize : size (String.ofList cs) ≤ limit) : Text.bounded size limit (String.ofList cs) = true := by
  have hsome : String.ofList cs ≠ "" := by
    intro hempty
    exact hne (by simpa using congrArg String.toList hempty)
  have hcontrol : cs.any Text.isControl = false := by
    simp only [List.any_eq_false,Bool.not_eq_true]
    exact fun c hc => (inToken_plain (h c hc)).2.1
  simp [Text.bounded,hsome,hsize,hcontrol]

end Plain

theorem inToken_encode (bytes : Bytes) : ∀ c ∈ Base64.encode bytes, inToken c :=
  fun c hc => Or.inr (Base64.encode_alphabet bytes c hc)

theorem inToken_seal (codec : Codec) (text : String) : ∀ c ∈ (codec.seal text).toList, inToken c := by
  have hversion : ("v1".toList.all fun c => decide (c ∈ Base64.alphabet)) = true := by decide
  simp only [List.all_eq_true,decide_eq_true_eq] at hversion
  intro c hc
  simp only [Codec.seal,signedPart,String.toList_ofList,List.mem_append,List.mem_cons] at hc
  rcases hc with (hv | hdot | hpayload) | hdot | hsignature
  · exact Or.inr (hversion c hv)
  · exact Or.inl hdot
  · exact inToken_encode _ c hpayload
  · exact Or.inl hdot
  · exact inToken_encode _ c hsignature

/-! ### The round trip -/

/-- The context of the capability itself. -/
def Claims.own (c : Claims) : Context := ⟨some c.audience,some c.deployment,some c.operation⟩

theorem own_agrees (c : Claims) : c.own.Agrees c :=
  ⟨fun _ => Option.some.inj,fun _ => Option.some.inj,fun _ => Option.some.inj⟩

theorem encode_writable {secret : Bytes} (hsecret : 16 ≤ secret.length)
    {capability : CredentialCapability}
    (hissued : (Nat.toDigits 10 capability.issuedAt.natAbs).length ≤ Json.maxStrDigits)
    (hexpires : (Nat.toDigits 10 capability.expiresAt.natAbs).length ≤ Json.maxStrDigits) :
    ∃ token, (Codec.standard secret hsecret).encode capability = some token := by
  have hwritable : (capability.toDict.all fun f => f.2.writable) = true := by
    simp [Claims.toDict,Atom.writable,hissued,hexpires]
  rw [Codec.encode,canonicalJson,if_pos hwritable,Option.map_some]
  exact ⟨_,rfl⟩

/-- With timestamps of at most 3700 digits the token stays below the bound of the decoder. -/
theorem encode_short {secret : Bytes} (hsecret : 16 ≤ secret.length)
    {capability : CredentialCapability} (hissued : capability.issuedAt.natAbs < 10^3700)
    (hexpires : capability.expiresAt.natAbs < 10^3700) :
    ∃ token, (Codec.standard secret hsecret).encode capability = some token ∧
      token.length ≤ 16*1024 := by
  have hsize := payloadSize_le (invalid_eq_none.mp capability.valid) (by decide) hissued hexpires
  have hdigits : 3700 ≤ Json.maxStrDigits := by decide
  have hi := (byteSize_writeInt_le (by decide) hissued).1.trans hdigits
  have he := (byteSize_writeInt_le (by decide) hexpires).1.trans hdigits
  obtain ⟨token,htoken⟩ := encode_writable hsecret hi he
  refine ⟨token,htoken,?_⟩
  rw [length_encode htoken]
  omega

/-- A capability with timestamps of at most 3700 digits is written and read back throughout its
lifetime; and what is read carries well-formed claims under a signature of the codec, in the
context that was asked for and at a time of its lifetime, unless the time is not a number. -/
theorem codec_round_trip_and_acceptance {secret : Bytes} (hsecret : 16 ≤ secret.length) :
    (∀ capability : CredentialCapability, capability.issuedAt.natAbs < 10^3700 →
      capability.expiresAt.natAbs < 10^3700 →
      ∃ token, (Codec.standard secret hsecret).encode capability = some token ∧
        ∀ now : Time, capability.issuedAt ≤ now → now < capability.expiresAt →
        (Codec.standard secret hsecret).decodeFor token (.number now) capability.own =
          .ok capability) ∧
    (∀ (capability : CredentialCapability) (token : String) (now : Time),
      (Codec.standard secret hsecret).encode capability = some token →
      capability.issuedAt ≤ now → now < capability.expiresAt →
      ((Codec.standard secret hsecret).decodeFor token (.number now) capability.own =
        .ok capability ↔ token.length ≤ 16*1024)) ∧
    ∀ token now expected capability,
      (Codec.standard secret hsecret).decodeFor token now expected = .ok capability →
      capability.WellFormed ∧ (Codec.standard secret hsecret).Carries token capability.toClaims ∧
      (now ≠ .nan → ∃ q, now = .number q ∧ capability.issuedAt ≤ q ∧ q < capability.expiresAt) ∧
      expected.Agrees capability.toClaims := by
  have hread : ∀ (capability : CredentialCapability) (token : String) (now : Time),
      (Codec.standard secret hsecret).encode capability = some token →
      capability.issuedAt ≤ now → now < capability.expiresAt →
      ((Codec.standard secret hsecret).decodeFor token (.number now) capability.own =
        .ok capability ↔ token.length ≤ 16*1024) := by
    intro capability token now htoken hissued hexpires
    have hwithin : (Now.number now).Within capability.toClaims :=
      within_iff.mpr (Or.inr ⟨now,rfl,hissued,hexpires⟩)
    rw [decodeFor_eq_ok]
    constructor
    · intro h
      exact h.1
    · intro hlen
      exact ⟨hlen,carries_encode htoken,hwithin,own_agrees _⟩
  refine ⟨?_,hread,?_⟩
  · intro capability hissued hexpires
    obtain ⟨token,htoken,hlen⟩ := encode_short hsecret hissued hexpires
    exact ⟨token,htoken,fun now hfrom huntil =>
      (hread capability token now htoken hfrom huntil).mpr hlen⟩
  · intro token now expected capability h
    obtain ⟨-,hcarries,hwithin,hagrees⟩ := decodeFor_eq_ok.mp h
    exact ⟨invalid_eq_none.mp capability.valid,hcarries,(within_iff.mp hwithin).resolve_left,hagrees⟩

/-- Plain claims with a lifetime from 0 to 1. -/
def plain : CredentialCapability where
  profileId := "p"
  principalId := "u"
  browserId := "b"
  generation := "g"
  siteId := "s"
  targetTabId := "t"
  operation := "credential.login"
  requestId := "r"
  audience := "a"
  deployment := "d"
  issuedAt := 0
  expiresAt := 1
  nonce := "n"
  valid := by decide

theorem codec_round_trip_and_acceptance_zeros :
    ∃ token, (Codec.standard (List.replicate 16 0) (by decide)).encode plain = some token ∧
      (Codec.standard (List.replicate 16 0) (by decide)).decodeFor token (.number 0) plain.own =
        .ok plain := by
  have hissued : plain.issuedAt.natAbs < 10^3700 := Nat.pow_pos (by decide)
  have hexpires : plain.expiresAt.natAbs < 10^3700 := by
    rw [show plain.expiresAt.natAbs = 1 from rfl]
    exact Nat.one_lt_pow (by decide) (by decide)
  have hround := (@codec_round_trip_and_acceptance (List.replicate 16 0) (by decide)).1
  obtain ⟨token,htoken,hread⟩ := hround plain hissued hexpires
  have hlate : (0 : Time) < plain.expiresAt := by norm_num [plain]
  exact ⟨token,htoken,hread 0 (by norm_num [plain]) hlate⟩

/-- A text of quotes, each of which JSON escapes. -/
def quotes (n : ℕ) : String := String.ofList (List.replicate n '"')

theorem utf8Length_quotes (n : ℕ) : Text.utf8Length (quotes n) = n := by
  have hone : ('"').utf8Size = 1 := by decide
  simp [quotes,Text.utf8Length_ofList,Text.byteSize,hone]

theorem quotes_bounded {n limit : ℕ} (hpos : 0 < n) (hle : n ≤ limit) :
    requireText limit (quotes n) = true := by
  have hlen := utf8Length_quotes n
  have hsome : quotes n ≠ "" := by
    intro hempty
    rw [hempty] at hlen
    exact absurd hlen (Nat.ne_of_lt hpos)
  have hprintable : (quotes n).toList.any Text.isControl = false := by
    have hquote : Text.isControl '"' = false := by decide
    simp [quotes,hquote]
  simp [requireText,Text.bounded,hlen,hsome,hprintable,hle]

/-- Every quote takes two bytes. -/
theorem byteSize_quotes (n : ℕ) : Text.byteSize (Json.writeString (quotes n)) = 2*n+2 := by
  have hone : ('"').utf8Size = 1 := by decide
  have htwo : Text.byteSize ((List.replicate n '"').flatMap Json.escapeRaw) = 2*n := by
    induction n with
    | zero => rfl
    | succ n ih =>
      have hquote : Text.byteSize (Json.escapeRaw '"') = 2 := by decide
      rw [List.replicate_succ,List.flatMap_cons,Text.byteSize_append,ih,hquote]
      omega
  simp only [Json.writeString,quotes,String.toList_ofList,List.cons_append,Text.byteSize_cons,
    Text.byteSize_append,Text.byteSize_nil,htwo,hone]
  omega

/-- Claims of long texts, with a lifetime of a second. -/
def crowdedClaims (text : String) (expiresAt : ℤ) : Claims where
  profileId := text
  principalId := text
  browserId := text
  generation := text
  siteId := text
  targetTabId := text
  operation := "credential.login"
  requestId := "r"
  audience := text
  deployment := text
  issuedAt := expiresAt-1
  expiresAt := expiresAt
  nonce := "n"

theorem crowded_wellFormed {text : String} (htext : requireText 256 text = true) (expiresAt : ℤ) :
    (crowdedClaims text expiresAt).WellFormed where
  fields := by
    have hoperation : requireText 256 "credential.login" = true := by decide
    simp only [Claims.fields,crowdedClaims,List.forall_mem_cons,htext,hoperation,true_and]
    simp
  requestId := (by decide : requireText 128 "r" = true)
  nonce := (by decide : requireText 128 "n" = true)
  canonical := (by decide : isCanonicalIdentifier "n" = true)
  operation := rfl
  lifetime := by
    simp only [crowdedClaims]
    omega
  bounded := by
    simp only [crowdedClaims]
    omega

theorem payloadSize_crowded (text : String) (expiresAt : ℤ) :
    (crowdedClaims text expiresAt).payloadSize = 200+8*Text.byteSize (Json.writeString text)+
      Text.byteSize (Json.writeInt (expiresAt-1))+Text.byteSize (Json.writeInt expiresAt) := by
  have hop : Text.byteSize (Json.writeString "credential.login") = 18 := by decide
  have hid : Text.byteSize (Json.writeString "r") = 3 := by decide
  have hnonce : Text.byteSize (Json.writeString "n") = 3 := by decide
  simp only [payloadSize_eq,crowdedClaims,Claims.toDict,List.map_cons,List.map_nil,List.sum_cons,
    List.sum_nil,Atom.write,hop,hid,hnonce]
  ring

theorem byteSize_writeInt_ge {i : ℤ} {k : ℕ} (hk : 0 < k) (h : i ≤ -10^k) :
    k+2 ≤ Text.byteSize (Json.writeInt i) := by
  have hpos : (0:ℤ) < 10^k := by positivity
  have hcast : ((10^k : ℕ) : ℤ) = 10^k := by norm_cast
  have hlen : ¬(Nat.toDigits 10 i.natAbs).length ≤ k := by
    rw [Nat.length_toDigits_le_iff (by decide) hk]
    omega
  rw [Json.byteSize_writeInt,if_pos (by omega)]
  omega

/-- Claims of 250 quotes each, and of timestamps with 4201 digits. -/
def crowded : CredentialCapability where
  toClaims := crowdedClaims (quotes 250) (-10^4200)
  valid := invalid_eq_none.mpr (crowded_wellFormed (quotes_bounded (by decide) (by decide)) _)

/-- The token of these claims is beyond what the decoder looks at. -/
theorem crowded_long {secret : Bytes} {hsecret : 16 ≤ secret.length} {token : String}
    (h : (Codec.standard secret hsecret).encode crowded = some token) : 16*1024 < token.length := by
  have hlow : ∀ i : ℤ, i ≤ -10^4200 → 12253 ≤ (crowdedClaims (quotes 250) i).payloadSize := by
    intro i hi
    have hissued := byteSize_writeInt_ge (i:=i-1) (k:=4200) (by decide) (by omega)
    have hexpires := byteSize_writeInt_ge (i:=i) (k:=4200) (by decide) hi
    rw [payloadSize_crowded,byteSize_quotes]
    omega
  have hsize : 12253 ≤ crowded.payloadSize := hlow _ le_rfl
  rw [length_encode h]
  generalize crowded.payloadSize = size at *
  omega

/-- Two limits of the codec: timestamps can be so long that the token is not read back, and at
the time `nan` a capability is accepted though it is not a time of its lifetime. -/
theorem codec_limits :
    ¬(∀ (secret : Bytes) (hsecret : 16 ≤ secret.length) (capability : CredentialCapability),
      capability.issuedAt < 2^63 → capability.expiresAt < 2^63 →
      ∀ now : Time, capability.issuedAt ≤ now → now < capability.expiresAt →
      ∃ token, (Codec.standard secret hsecret).encode capability = some token ∧
        (Codec.standard secret hsecret).decodeFor token (.number now) capability.own =
          .ok capability) ∧
    ¬(∀ (secret : Bytes) (hsecret : 16 ≤ secret.length) (token : String) (now : Now)
      (expected : Context) (capability : CredentialCapability),
      (Codec.standard secret hsecret).decodeFor token now expected = .ok capability →
      ∃ q, now = .number q ∧ capability.issuedAt ≤ q ∧ q < capability.expiresAt) := by
  constructor
  · intro h
    have hlife : crowded.issuedAt < crowded.expiresAt :=
      (invalid_eq_none.mp crowded.valid).lifetime
    have hlow : crowded.issuedAt < 2^63 ∧ crowded.expiresAt < 2^63 := by
      have hpow : ∀ k, -(10:ℤ)^k < 2^63 := by
        intro k
        have hpos : (0:ℤ) < 10^k := by positivity
        omega
      exact ⟨hlife.trans (hpow 4200),hpow 4200⟩
    obtain ⟨token,htoken,hread⟩ := h (List.replicate 16 0) (by decide) crowded hlow.1 hlow.2
      crowded.issuedAt le_rfl (by exact_mod_cast hlife)
    exact absurd (decodeFor_eq_ok.mp hread).1 (Nat.not_le.mpr (crowded_long htoken))
  · intro h
    have hten : ∀ k, 0 < k → 1 < 10^k := fun k hk => Nat.one_lt_pow hk.ne' (by decide)
    have hone := hten 3700 (by decide)
    have hshort : plain.issuedAt.natAbs < 10^3700 ∧ plain.expiresAt.natAbs < 10^3700 :=
      ⟨Nat.zero_lt_one.trans hone,hone⟩
    obtain ⟨token,htoken,hlen⟩ :=
      @encode_short (List.replicate 16 0) (by decide) plain hshort.1 hshort.2
    have hnan := decodeFor_eq_ok.mpr ⟨hlen,carries_encode htoken,within_iff.mpr (Or.inl rfl),
      own_agrees plain.toClaims⟩
    obtain ⟨q,hq,-⟩ := h _ _ _ _ _ _ hnan
    cases hq

end Capability
end CloudBrowser
