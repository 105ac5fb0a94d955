import CloudBrowser.Base64
import CloudBrowser.KeyedTable
import CloudBrowser.Stateful
import CloudBrowser.Text

/-! The custody store of the credential broker: one row for each scope, whose four legs are
sealed under a key of the grant, which is itself sealed under the key of the broker. -/
namespace CloudBrowser
namespace GrantCustody

open Stateful Keyed

inductive CustodyError
  | valueError (message : String)
  | lookupError (message : String)
  | grantRevoked
  | authorizationChanged
  | grantMaterial (message : String)
  | grantCustody (message : String)
  | vaultCrypto (message : String)
  | osError
  | dependencyUnavailable
  | deadlineExceeded
  | sqliteOperational
  | sqliteIntegrity
  | other
  deriving DecidableEq, Repr

section Validation

def boundedText (s : String) : Bool := Text.bounded Text.utf8Length 256 s

def validateText (label value : String) : Except CustodyError Unit :=
  if boundedText value then .ok () else .error (.valueError (label ++ " is invalid"))

def validateVaultKey (key : Bytes) : Except CustodyError Unit :=
  if key.length = 64 then .ok () else .error (.valueError "vault key must be exactly 64 bytes")

def validRefreshToken (token : Bytes) : Bool :=
  token ≠ [] && token.length ≤ 16*1024 && !token.any fun b => b = 0 || b = 10 || b = 13

def validateRefreshToken (token : Bytes) : Except CustodyError Unit :=
  if validRefreshToken token then .ok () else .error (.valueError "refresh token is invalid")

def validateItemRef (ref : String) : Except CustodyError Unit :=
  if Text.bounded Text.utf8Length 512 ref then .ok () else .error (.valueError "item_ref is invalid")

end Validation

/-- The owner, browser and site that a grant is for. -/
structure GrantScope where
  profileId : String
  principalId : String
  siteId : String
  targetTabId : String
  browserId : String
  generation : String
  bounded : [profileId,principalId,siteId,targetTabId,browserId,generation].all boundedText = true
  deriving DecidableEq

def GrantScope.build (profileId principalId siteId targetTabId browserId generation : String) :
    Except CustodyError GrantScope := do
  validateText "profile_id" profileId
  validateText "principal_id" principalId
  validateText "site_id" siteId
  validateText "target_tab_id" targetTabId
  validateText "browser_id" browserId
  validateText "generation" generation
  if h : [profileId,principalId,siteId,targetTabId,browserId,generation].all boundedText = true then
    return ⟨profileId,principalId,siteId,targetTabId,browserId,generation,h⟩
  else throw .other

section GrantRefs

/-- What a grant reference may name: ASCII text of a bounded length. -/
structure GrantId where
  value : String
  ascii : value.toList.all (·.toNat < 128) = true
  length_pos : 0 < value.toList.length
  length_le : value.toList.length ≤ 128
  deriving DecidableEq

/-- `secrets.token_urlsafe(24)`. -/
structure FreshId extends GrantId where
  length_eq : value.toList.length = 32
  deriving DecidableEq

def asciiBytes (s : List Char) : Bytes := s.map fun c => UInt8.ofNat c.toNat

def asciiText (b : Bytes) : String := String.ofList (b.map fun b => Char.ofNat b.toNat)

def refPrefix : String := "grantref:v1."

def grantRef (id : GrantId) : String :=
  refPrefix ++ String.ofList (Base64.encode (asciiBytes id.value.toList))

def GrantId.ofText (s : String) : Option GrantId :=
  if ha : s.toList.all (·.toNat < 128) = true then
    if hp : 0 < s.toList.length then
      if hl : s.toList.length ≤ 128 then some ⟨s,ha,hp,hl⟩ else none
    else none
  else none

/-- `_parse_grant_ref`; the source answers every malformed reference with `GrantRevoked`. -/
def parseGrantRef (ref : String) : Except CustodyError GrantId :=
  if refPrefix.toList.isPrefixOf ref.toList then
    let encoded := ref.toList.drop refPrefix.toList.length
    if encoded = [] ∨ encoded.length > 128 ∨ encoded.any (· ∉ Base64.alphabet) then
      .error .grantRevoked
    else match Base64.decode encoded with
      | none => .error .grantRevoked
      | some bytes =>
        if bytes.any (· ≥ 128) then .error .grantRevoked
        else match GrantId.ofText (asciiText bytes) with
          | some id => .ok id
          | none => .error .grantRevoked
  else .error .grantRevoked

theorem toNat_asciiByte {c : Char} (h : c.toNat < 128) : (UInt8.ofNat c.toNat).toNat = c.toNat := by
  rw [UInt8.toNat_ofNat']
  omega

theorem asciiText_asciiBytes {s : List Char} (h : s.all (·.toNat < 128) = true) :
    asciiText (asciiBytes s) = String.ofList s := by
  have hmap : (asciiBytes s).map (fun b => Char.ofNat b.toNat) = s := by
    rw [asciiBytes,List.map_map]
    conv_rhs => rw [← List.map_id s]
    apply List.map_congr_left
    intro c hc
    have hlt : c.toNat < 128 := by simpa using List.all_eq_true.mp h c hc
    simp [toNat_asciiByte hlt]
  rw [asciiText,hmap]

theorem asciiBytes_lt {s : List Char} (h : s.all (·.toNat < 128) = true) :
    (asciiBytes s).any (· ≥ 128) = false := by
  apply List.any_eq_false.mpr
  intro b hb
  obtain ⟨c,hc,rfl⟩ := List.mem_map.mp hb
  have hlt : c.toNat < 128 := by simpa using List.all_eq_true.mp h c hc
  have hbyte := toNat_asciiByte hlt
  simp only [decide_eq_true_eq,ge_iff_le,UInt8.le_iff_toNat_le,hbyte]
  simpa using hlt

theorem GrantId.ofText_value (id : GrantId) : GrantId.ofText id.value = some id := by
  rw [GrantId.ofText,dif_pos id.ascii,dif_pos id.length_pos,dif_pos id.length_le]

/-- A reference leads back to the grant it was made for. -/
theorem parseGrantRef_grantRef (id : GrantId) (h : id.value.toList.length ≤ 96) :
    parseGrantRef (grantRef id) = .ok id := by
  have hlen := Base64.length_encode (asciiBytes id.value.toList)
  have hbytes : (asciiBytes id.value.toList).length = id.value.toList.length := List.length_map _
  have hpos := id.length_pos
  have hstarts : refPrefix.toList.isPrefixOf (grantRef id).toList = true := by
    simp [grantRef,String.toList_append]
  have hdrop : (grantRef id).toList.drop refPrefix.toList.length =
      Base64.encode (asciiBytes id.value.toList) := by
    simp [grantRef,String.toList_append]
  have hok : ¬(Base64.encode (asciiBytes id.value.toList) = [] ∨
      (Base64.encode (asciiBytes id.value.toList)).length > 128 ∨
      (Base64.encode (asciiBytes id.value.toList)).any (· ∉ Base64.alphabet) = true) := by
    rintro (hnil | hlong | halphabet)
    · rw [hnil,List.length_nil] at hlen
      omega
    · omega
    · obtain ⟨c,hc,hbad⟩ := List.any_eq_true.mp halphabet
      simp [Base64.encode_alphabet _ c hc] at hbad
  simp only [parseGrantRef,hstarts,if_true,hdrop,if_neg hok,Base64.decode_encode,
    asciiBytes_lt id.ascii,asciiText_asciiBytes id.ascii,String.ofList_toList,
    GrantId.ofText_value]
  rfl

end GrantRefs

section Sealing

/-- AES-GCM as the crypto library computes it; `opens` answers nothing on a tag mismatch. -/
structure AesGcm where
  seals : (key iv plaintext aad : Bytes) → Bytes × Bytes
  opens : (key iv ciphertext tag aad : Bytes) → Option Bytes

structure Envelope where
  nonce : Bytes
  ciphertext : Bytes
  tag : Bytes
  deriving DecidableEq, Repr

inductive LegName
  | kUser | vaultKey | session | itemRef
  deriving DecidableEq, Repr

def LegName.value : LegName → String
  | kUser => "k_user"
  | vaultKey => "vault_key"
  | session => "session"
  | itemRef => "item_ref"

/-- The sorted, compact JSON object of the scope's six fields. -/
def GrantScope.canonical (scope : GrantScope) : Bytes :=
  let field : String → String → List Char := fun name value =>
    Json.dumpString name ++ [':'] ++ Json.dumpString value
  let fields := [field "browser_id" scope.browserId,field "generation" scope.generation,
    field "principal_id" scope.principalId,field "profile_id" scope.profileId,
    field "site_id" scope.siteId,field "target_tab_id" scope.targetTabId]
  asciiBytes (['{'] ++ List.intercalate [','] fields ++ ['}'])

def aad (grantId : GrantId) (scope : GrantScope) (leg : LegName) : Bytes :=
  asciiBytes "cloudbrowser.grant.v1|".toList ++ asciiBytes grantId.value.toList ++
    asciiBytes ['|'] ++ scope.canonical ++ asciiBytes ['|'] ++ asciiBytes leg.value.toList

variable (gcm : AesGcm)

def aesGcmEncrypt (key iv plaintext aad : Bytes) : Except CustodyError (Bytes × Bytes) :=
  if key.length ≠ 16 ∧ key.length ≠ 32 then .error (.vaultCrypto "GCM key must be 16 or 32 bytes")
  else if iv.length < 1 ∨ 255 < iv.length then
    .error (.vaultCrypto "GCM IV length must be 1..255 bytes")
  else .ok (gcm.seals key iv plaintext aad)

def aesGcmDecrypt (key iv ciphertext tag aad : Bytes) : Except CustodyError Bytes :=
  if key.length ≠ 16 ∧ key.length ≠ 32 then .error (.vaultCrypto "GCM key must be 16 or 32 bytes")
  else if tag.length ≠ 16 then .error (.vaultCrypto "GCM tag must be 16 bytes")
  else match gcm.opens key iv ciphertext tag aad with
    | some plaintext => .ok plaintext
    | none => .error (.vaultCrypto "GCM tag mismatch")

/-- `_wrap`, with the initialization vector that it drew. -/
def wrap (iv plaintext key aad : Bytes) : Except CustodyError Envelope :=
  if plaintext = [] then .error (.grantMaterial "cannot wrap empty material")
  else do
    let (ciphertext,tag) ← aesGcmEncrypt gcm key iv plaintext aad
    return ⟨iv,ciphertext,tag⟩

def unwrap (key : Bytes) (envelope : Envelope) (aad : Bytes) : Except CustodyError Bytes :=
  if envelope.nonce = [] then .error (.grantMaterial "incomplete grant envelope")
  else aesGcmDecrypt gcm key envelope.nonce envelope.ciphertext envelope.tag aad

end Sealing

section Rows

/-- The three columns of one wrapped leg. -/
structure Leg where
  nonce : Option Bytes
  ciphertext : Option Bytes
  tag : Option Bytes
  deriving DecidableEq, Repr

def Leg.erased : Leg := ⟨none,none,none⟩

def Leg.stored (e : Envelope) : Leg := ⟨some e.nonce,some e.ciphertext,some e.tag⟩

/-- `_envelope`. -/
def Leg.envelope (l : Leg) : Except CustodyError Envelope :=
  match l.nonce, l.ciphertext, l.tag with
  | some nonce, some ciphertext, some tag => .ok ⟨nonce,ciphertext,tag⟩
  | _, _, _ => .error (.grantMaterial "incomplete grant envelope")

structure Legs where
  kUser : Leg
  vaultKey : Leg
  session : Leg
  itemRef : Leg
  deriving DecidableEq, Repr

def Legs.erased : Legs := ⟨.erased,.erased,.erased,.erased⟩

/-- A row of `grant_custody`. -/
structure GrantRow where
  grantId : GrantId
  scope : GrantScope
  epoch : ℕ
  active : Bool
  legs : Legs
  createdAt : ℕ
  updatedAt : ℕ
  deriving DecidableEq

/-- A row of `grant_audit`, without its random primary key. -/
structure AuditRow where
  event : String
  operatorId : String
  grantId : String
  epoch : ℕ
  outcome : String
  createdAt : ℕ
  deriving DecidableEq, Repr

/-- The two tables; the scope columns of `grant_custody` carry a UNIQUE constraint. -/
structure Database where
  grants : Table GrantRow.scope
  audit : List AuditRow

def Database.initial : Database := ⟨.empty,[]⟩

namespace Database

def ofScope (db : Database) (scope : GrantScope) : Option GrantRow := db.grants.find scope

def ofGrant (db : Database) (id : GrantId) : Option GrantRow :=
  db.grants.rows.find? fun r => r.grantId = id

def audited (db : Database) (row : AuditRow) : Database := { db with audit := db.audit ++ [row] }

@[simp] theorem audited_grants (db : Database) (row : AuditRow) :
    (db.audited row).grants = db.grants := rfl

@[simp] theorem audited_audit (db : Database) (row : AuditRow) :
    (db.audited row).audit = db.audit ++ [row] := rfl

@[simp] theorem audited_ofScope (db : Database) (row : AuditRow) (scope : GrantScope) :
    (db.audited row).ofScope scope = db.ofScope scope := rfl

theorem ofScope_eq_some {db : Database} {scope : GrantScope} {r : GrantRow} :
    db.ofScope scope = some r ↔ r ∈ db.grants ∧ r.scope = scope := Table.find_eq_some

end Database

def Leg.full (l : Leg) : Bool := l.nonce.isSome && l.ciphertext.isSome && l.tag.isSome

/-- No wrapped-leg column is NULL. -/
def Legs.full (l : Legs) : Bool :=
  l.kUser.full && l.vaultKey.full && l.session.full && l.itemRef.full

namespace GrantRow

/-- The columns that a revocation and an invalidation overwrite. -/
def erase (epoch now : ℕ) (r : GrantRow) : GrantRow :=
  { r with epoch := epoch, active := false, legs := .erased, updatedAt := now }

def rotate (session : Envelope) (now : ℕ) (r : GrantRow) : GrantRow :=
  { r with legs := { r.legs with session := .stored session }, updatedAt := now }

/-- The WHERE clause of the updates that a lease makes: the same grant in the same epoch. -/
def leased (grantId : GrantId) (scope : GrantScope) (epoch : ℕ) (r : GrantRow) : Bool :=
  r.grantId = grantId && r.scope = scope && r.epoch = epoch && r.active

end GrantRow

/-- The SET clause of an update, which names neither the scope nor the grant. -/
structure RowUpdate where
  apply : GrantRow → GrantRow
  scope : ∀ r, (apply r).scope = r.scope
  grantId : ∀ r, (apply r).grantId = r.grantId

namespace RowUpdate

def erase (epoch now : ℕ) : RowUpdate := ⟨GrantRow.erase epoch now,fun _ => rfl,fun _ => rfl⟩

def rotate (session : Envelope) (now : ℕ) : RowUpdate :=
  ⟨GrantRow.rotate session now,fun _ => rfl,fun _ => rfl⟩

/-- One row's turn in an update with the condition `p`. -/
def applyWhere (u : RowUpdate) (p : GrantRow → Bool) (r : GrantRow) : GrantRow := if p r then u.apply r else r

@[simp] theorem applyWhere_scope (u : RowUpdate) (p : GrantRow → Bool) (r : GrantRow) :
    (u.applyWhere p r).scope = r.scope := by
  by_cases h : p r = true <;> simp [RowUpdate.applyWhere,h,u.scope]

@[simp] theorem applyWhere_grantId (u : RowUpdate) (p : GrantRow → Bool) (r : GrantRow) :
    (u.applyWhere p r).grantId = r.grantId := by
  by_cases h : p r = true <;> simp [RowUpdate.applyWhere,h,u.grantId]

end RowUpdate

/-- `UPDATE grant_custody SET u WHERE p`. -/
def Database.update (db : Database) (p : GrantRow → Bool) (u : RowUpdate) : Database where
  grants := db.grants.mapRows (u.applyWhere p) (u.applyWhere_scope p)
  audit := db.audit

theorem Database.mem_update {db : Database} {p : GrantRow → Bool} {u : RowUpdate} {r : GrantRow} :
    r ∈ (db.update p u).grants ↔ ∃ r' ∈ db.grants, u.applyWhere p r' = r :=
  @Table.mem_mapRows _ _ _ _ _ (u.applyWhere_scope p) _

@[simp] theorem Database.update_audit (db : Database) (p : GrantRow → Bool) (u : RowUpdate) :
    (db.update p u).audit = db.audit := rfl

@[simp] theorem Database.update_ofScope (db : Database) (p : GrantRow → Bool) (u : RowUpdate)
    (scope : GrantScope) : (db.update p u).ofScope scope = (db.ofScope scope).map (u.applyWhere p) :=
  Table.find_mapRows _ _ (u.applyWhere_scope p) _

def Database.rowcount (db : Database) (p : GrantRow → Bool) : ℕ := db.grants.rows.countP p

end Rows

section Transactions

/-- The transaction of `provision`: the row of the scope is replaced, or inserted, and
`grant_id` stays a primary key. -/
def Database.provision (db : Database) (scope : GrantScope) (grantId : GrantId) (legs : Legs)
    (operator : String) (now : ℕ) : Except CustodyError (Database × ℕ) :=
  let old := db.ofScope scope
  let epoch := (old.map (·.epoch)).getD 0 + 1
  if db.grants.rows.any fun r => r.grantId = grantId && r.scope ≠ scope then .error .sqliteIntegrity
  else
    let row : GrantRow :=
      { grantId := grantId, scope := scope, epoch := epoch, active := true, legs := legs,
        createdAt := (old.map (·.createdAt)).getD now, updatedAt := now }
    .ok (({ db with grants := db.grants.put row } : Database).audited
      ⟨"grant_provisioned",operator,grantId.value,epoch,"usable",now⟩,epoch)

def Database.revoke (db : Database) (scope : GrantScope) (operator : String) (now : ℕ) :
    Database × Bool :=
  match db.ofScope scope with
  | none => (db,false)
  | some row =>
    if row.active then
      ((db.update (fun r => r.grantId = row.grantId && r.epoch = row.epoch && r.active)
        (.erase (row.epoch+1) now)).audited
          ⟨"grant_revoked",operator,row.grantId.value,row.epoch+1,"revoked",now⟩,true)
    else (db.audited
      ⟨"grant_revoked",operator,row.grantId.value,row.epoch,"already_revoked",now⟩,false)

structure Status where
  scope : GrantScope
  active : Bool
  epoch : ℕ
  hasVaultKey : Bool
  hasSessionLeg : Bool
  usable : Bool
  deriving DecidableEq

def Database.status (db : Database) (scope : GrantScope) (operator : String) (now : ℕ) :
    Database × Status :=
  let row := db.ofScope scope
  let active := (row.map (·.active)).getD false
  let epoch := (row.map (·.epoch)).getD 0
  let hasVaultKey := (row.bind fun r => r.legs.vaultKey.ciphertext).isSome
  let hasSession := (row.bind fun r => r.legs.session.ciphertext).isSome
  (db.audited ⟨"grant_status_read",operator,(row.map (·.grantId.value)).getD "none",epoch,
      if active then "active" else "inactive",now⟩,
    ⟨scope,active,epoch,active && hasVaultKey,active && hasSession,
      active && hasVaultKey && hasSession⟩)

/-- `_rotate_refresh_token_on_connection`. -/
def Database.rotate (db : Database) (grantId : GrantId) (scope : GrantScope) (epoch : ℕ)
    (session : Envelope) (now : ℕ) : Except CustodyError Database :=
  if db.rowcount (GrantRow.leased grantId scope epoch) ≠ 1 then .error .grantRevoked
  else .ok ((db.update (GrantRow.leased grantId scope epoch) (.rotate session now)).audited
    ⟨"grant_session_rotated","broker",grantId.value,epoch,"stored",now⟩)

/-- The update of `_invalidate`. -/
def Database.invalidate (db : Database) (grantId : GrantId) (scope : GrantScope) (epoch now : ℕ) :
    Database :=
  let updated := db.update (GrantRow.leased grantId scope epoch) (.erase (epoch+1) now)
  if db.rowcount (GrantRow.leased grantId scope epoch) = 1 then
    updated.audited ⟨"grant_invalidated","broker",grantId.value,epoch+1,"refresh_rejected",now⟩
  else updated

end Transactions

/-- The broker's key-encryption key, and the crypto library. -/
structure Broker where
  kek : Bytes
  gcm : AesGcm
  kek_length : kek.length = 32

structure ProvisionedGrant where
  grantRef : String
  epoch : ℕ
  deriving DecidableEq, Repr

/-- A one-call view of a grant's plaintext. -/
structure GrantLease where
  grantId : GrantId
  epoch : ℕ
  scope : GrantScope
  itemRef : String
  kUser : Bytes
  vaultKey : Bytes
  refreshToken : Bytes
  deriving DecidableEq

/-- What `provision` draws from `secrets`. -/
structure Draw where
  grantId : FreshId
  kUser : Bytes
  ivs : LegName → Bytes

section Store

variable (broker : Broker)

abbrev Operation (α : Type) := Op CustodyError Database α

def wrappedLegs (grantId : GrantId) (scope : GrantScope) (kUser vaultKey refreshToken : Bytes)
    (itemRef : String) (ivs : LegName → Bytes) : Except CustodyError Legs := do
  let k ← wrap broker.gcm (ivs .kUser) kUser broker.kek (aad grantId scope .kUser)
  let v ← wrap broker.gcm (ivs .vaultKey) vaultKey kUser (aad grantId scope .vaultKey)
  let s ← wrap broker.gcm (ivs .session) refreshToken kUser (aad grantId scope .session)
  let i ← wrap broker.gcm (ivs .itemRef) (Text.encodeUtf8 itemRef) kUser (aad grantId scope .itemRef)
  return ⟨.stored k,.stored v,.stored s,.stored i⟩

def provision (scope : GrantScope) (itemRef : String) (vaultKey refreshToken : Bytes)
    (operatorId : String) (draw : Draw) (now : ℕ) : Operation ProvisionedGrant := do
  check (validateItemRef itemRef)
  check (validateVaultKey vaultKey)
  check (validateRefreshToken refreshToken)
  check (validateText "operator_id" operatorId)
  let legs ← check (wrappedLegs broker draw.grantId.toGrantId scope draw.kUser vaultKey
    refreshToken itemRef draw.ivs)
  let db ← get
  let (db',epoch) ← check (db.provision scope draw.grantId.toGrantId legs operatorId now)
  set db'
  return ⟨grantRef draw.grantId.toGrantId,epoch⟩

def revoke (scope : GrantScope) (operatorId : String) (now : ℕ) : Operation Bool := do
  check (validateText "operator_id" operatorId)
  let db ← get
  set (db.revoke scope operatorId now).1
  return (db.revoke scope operatorId now).2

def status (scope : GrantScope) (operatorId : String) (now : ℕ) : Operation Status := do
  check (validateText "operator_id" operatorId)
  let db ← get
  set (db.status scope operatorId now).1
  return (db.status scope operatorId now).2

/-- Decryption failures of a checkout are reported as missing material. -/
def asMaterial {α : Type} : Except CustodyError α → Except CustodyError α
  | .error (.vaultCrypto _) => .error (.grantMaterial "grant material is unavailable")
  | r => r

/-- Open the four legs of a row. -/
def openLegs (row : GrantRow) : Except CustodyError GrantLease := do
  let kUser ← asMaterial
    (row.legs.kUser.envelope >>= fun e => unwrap broker.gcm broker.kek e (aad row.grantId row.scope .kUser))
  let leg : Leg → LegName → Except CustodyError Bytes := fun l name =>
    asMaterial (l.envelope >>= fun e => unwrap broker.gcm kUser e (aad row.grantId row.scope name))
  let vaultKey ← leg row.legs.vaultKey .vaultKey
  let refreshToken ← leg row.legs.session .session
  let itemRef ← match Text.decodeUtf8 (← leg row.legs.itemRef .itemRef) with
    | some s => pure s
    | none => throw (.grantMaterial "grant material is unavailable")
  validateVaultKey vaultKey
  validateRefreshToken refreshToken
  validateItemRef itemRef
  return ⟨row.grantId,row.epoch,row.scope,itemRef,kUser,vaultKey,refreshToken⟩

/-- `_checkout`, against the committed tables. -/
def Database.checkout (db : Database) (grantRef : String) : Except CustodyError GrantLease := do
  let grantId ← parseGrantRef grantRef
  match db.ofGrant grantId with
  | none => throw .grantRevoked
  | some row => if row.active then openLegs broker row else throw .grantRevoked

/-- `_recheck`. -/
def Database.recheck (db : Database) (grantId : GrantId) (scope : GrantScope) (epoch : ℕ) :
    Except CustodyError Unit :=
  match db.ofGrant grantId with
  | none => .error .grantRevoked
  | some row =>
    if !row.active || row.epoch ≠ epoch then .error .grantRevoked
    else if row.scope ≠ scope then .error .grantRevoked
    else .ok ()

/-- `GrantLease.rotate_refresh_token` on a connection of its own. -/
def rotateRefreshToken (lease : GrantLease) (refreshToken iv : Bytes) (now : ℕ) : Operation Unit := do
  check (validateRefreshToken refreshToken)
  let session ← check (wrap broker.gcm iv refreshToken lease.kUser (aad lease.grantId lease.scope .session))
  let db ← get
  let db' ← check (db.rotate lease.grantId lease.scope lease.epoch session now)
  set db'

/-- `GrantLease.invalidate` on a connection of its own. -/
def invalidate (lease : GrantLease) (now : ℕ) : Operation Unit :=
  modify fun db => db.invalidate lease.grantId lease.scope lease.epoch now

end Store
end GrantCustody
end CloudBrowser
