import CloudBrowser.VaultCrypto
import CloudBrowser.VaultItems

/-! What the search of a vault item finds: the one item that meets the first rule any item
meets, whatever the order of the items. -/
namespace CloudBrowser
namespace VaultItems

open GrantCustody

abbrev Cipher := List (String × Json)

/-- How the errors of a decryption reach the broker. -/
def asCustody : VaultCrypto.DecryptError → CustodyError
  | .vault (.vaultCrypto message) => .vaultCrypto message
  | .vault (.macVerificationFailed message) => .vaultCrypto message
  | .vault (.unsupportedCipherType message) => .vaultCrypto message
  | .unicodeDecode => .other

/-- `crypto.decrypt_encstring`. -/
def decryptWith (evp : VaultCrypto.Evp) (raw : String) (key64 : Bytes) :
    Except CustodyError String :=
  (VaultCrypto.decryptEncstring evp raw key64).mapError asCustody

section Outcomes

variable {α β : Type}

def errorOf : Except CustodyError α → Option CustodyError
  | .error e => some e
  | .ok _ => none

/-- A test that raised is not met. -/
def holds : Except CustodyError Bool → Bool
  | .ok b => b
  | .error _ => false

theorem eq_ok_of_errorOf {x : Except CustodyError α} (h : errorOf x = none) : ∃ a, x = .ok a := by
  cases x with
  | error e => cases h
  | ok a => exact ⟨a,rfl⟩

theorem errorOf_mapM (f : α → Except CustodyError β) (l : List α) :
    errorOf (l.mapM f) = l.findSome? fun a => errorOf (f a) := by
  induction l with
  | nil => rfl
  | cons a l ih =>
    rw [List.mapM_cons,List.findSome?_cons,← ih]
    cases hf : f a with
    | error e => rfl
    | ok b =>
      cases hl : l.mapM f with
      | error e => rfl
      | ok bs => rfl

variable {p : Cipher → Except CustodyError Bool} {ciphers kept : List Cipher}

theorem errorOf_filterCiphers (p : Cipher → Except CustodyError Bool) (ciphers : List Cipher) :
    errorOf (filterCiphers p ciphers) = ciphers.findSome? fun c => errorOf (p c) := by
  induction ciphers with
  | nil => rfl
  | cons c ciphers ih =>
    rw [List.findSome?_cons,← ih,filterCiphers]
    cases hp : p c with
    | error e => rfl
    | ok b =>
      cases hrest : filterCiphers p ciphers with
      | error e => rfl
      | ok rest => rfl

theorem filterCiphers_eq (h : filterCiphers p ciphers = .ok kept) :
    kept = ciphers.filter fun c => holds (p c) := by
  induction ciphers generalizing kept with
  | nil =>
    cases h
    rfl
  | cons c ciphers ih =>
    rw [filterCiphers] at h
    cases hp : p c with
    | error e =>
      rw [hp] at h
      cases h
    | ok b =>
      cases hrest : filterCiphers p ciphers with
      | error e =>
        rw [hp,hrest] at h
        cases h
      | ok rest =>
        rw [hp,hrest] at h
        cases h
        rw [List.filter_cons,hp,ih hrest]
        rfl

/-- A search that no test interrupts keeps the items that meet it. -/
theorem filterCiphers_of_forall (h : ∀ c ∈ ciphers, errorOf (p c) = none) :
    filterCiphers p ciphers = .ok (ciphers.filter fun c => holds (p c)) := by
  have hnone : errorOf (filterCiphers p ciphers) = none := by
    rw [errorOf_filterCiphers,List.findSome?_eq_none_iff]
    exact h
  obtain ⟨kept,hkept⟩ := eq_ok_of_errorOf hnone
  rw [hkept,filterCiphers_eq hkept]

end Outcomes

section Search

variable (decryptEncstring : String → Bytes → Except CustodyError String) (str : Json → String)
  (itemRef : String) (userKey : Bytes)

/-- The login items of a list of ciphers. -/
def loginsOf (raw : List Json) : List Cipher := (raw.filterMap mapping).filter isLogin

/-- The login items of a document. -/
def logins (sync : Cipher) : List Cipher :=
  match (Json.get sync "ciphers").orElse (.arr []) with
  | .arr raw => loginsOf raw
  | _ => []

def carriesId (cipher : Cipher) : Bool :=
  text str ((Json.get cipher "id").orElse (.str "")) = itemRef

/-- What is asked of an item when its id does not decide: an address with the given beginning,
or the name. -/
def secondRule (cipher : Cipher) : Except CustodyError Bool :=
  if "uri:".toList.isPrefixOf itemRef.toList then do
    let fields ← decryptCipherFields decryptEncstring str cipher userKey
    return fields.2.2.any ((itemRef.toList.drop 4).isPrefixOf ·.toList)
  else do
    let name ← decryptName decryptEncstring str cipher userKey
    return decide (name = itemRef)

/-- The rules of the search in their order. -/
def rules : List (Cipher → Except CustodyError Bool) :=
  [fun cipher => .ok (carriesId str itemRef cipher),
    secondRule decryptEncstring str itemRef userKey]

/-- What is found among these items. -/
def search (ciphers : List Cipher) : Except CustodyError Cipher :=
  match ciphers.filter (carriesId str itemRef) with
  | [cipher] => .ok cipher
  | _ => filterCiphers (secondRule decryptEncstring str itemRef userKey) ciphers >>= single

variable {decryptEncstring str itemRef userKey} {sync : Cipher} {raw : List Json}

theorem resolveCipher_arr (h : (Json.get sync "ciphers").orElse (.arr []) = .arr raw) :
    resolveCipher decryptEncstring str sync itemRef userKey =
      search decryptEncstring str itemRef userKey (loginsOf raw) := by
  simp only [resolveCipher,h]
  show (match (loginsOf raw).filter (carriesId str itemRef) with
    | [cipher] => _
    | _ => _) = _
  unfold search
  split
  · rfl
  · unfold secondRule
    split_ifs
    · rfl
    · rfl

theorem logins_arr (h : (Json.get sync "ciphers").orElse (.arr []) = .arr raw) :
    logins sync = loginsOf raw := by
  simp only [logins,h]

theorem single_eq_ok {items : List Cipher} {cipher : Cipher} :
    single items = .ok cipher ↔ items = [cipher] := by
  match items with
  | [] => simp [single]
  | [item] => simp [single]
  | _::_::_ => simp [single]

/-- What a search answers with: the one item with that id, or else, where every item can be
asked, the one item that meets the second rule. -/
theorem search_eq_ok {ciphers : List Cipher} {cipher : Cipher} :
    search decryptEncstring str itemRef userKey ciphers = .ok cipher ↔
      ciphers.filter (carriesId str itemRef) = [cipher] ∨
      (∀ c, ciphers.filter (carriesId str itemRef) ≠ [c]) ∧
        (∀ c ∈ ciphers, errorOf (secondRule decryptEncstring str itemRef userKey c) = none) ∧
        (ciphers.filter fun c => holds (secondRule decryptEncstring str itemRef userKey c)) =
          [cipher] := by
  unfold search
  split
  · next c hc =>
    simp [hc]
  · next hmany =>
    constructor
    · intro h
      refine Or.inr ⟨hmany,?_⟩
      cases hfound : filterCiphers (secondRule decryptEncstring str itemRef userKey) ciphers with
      | error e =>
        rw [hfound] at h
        cases h
      | ok kept =>
        rw [hfound] at h
        have hsingle : kept = [cipher] := single_eq_ok.mp h
        have herrors := errorOf_filterCiphers (secondRule decryptEncstring str itemRef userKey)
          ciphers
        rw [hfound] at herrors
        rw [filterCiphers_eq hfound] at hsingle
        exact ⟨List.findSome?_eq_none_iff.mp herrors.symm,hsingle⟩
    · rintro (h | ⟨-,hread,hsingle⟩)
      · exact absurd h (hmany cipher)
      · rw [filterCiphers_of_forall hread,hsingle]
        rfl

theorem filter_eq_singleton_perm {ciphers ciphers' : List Cipher} (h : ciphers.Perm ciphers')
    (p : Cipher → Bool) (cipher : Cipher) :
    ciphers.filter p = [cipher] ↔ ciphers'.filter p = [cipher] := by
  have hperm := h.filter p
  constructor
  · intro hc
    rw [hc] at hperm
    exact List.perm_singleton.mp hperm.symm
  · intro hc
    rw [hc] at hperm
    exact List.perm_singleton.mp hperm

/-- The order of the items does not matter to what is found. -/
theorem search_perm {ciphers ciphers' : List Cipher} (h : ciphers.Perm ciphers') :
    (search decryptEncstring str itemRef userKey ciphers).toOption =
      (search decryptEncstring str itemRef userKey ciphers').toOption := by
  have hfound : ∀ cipher, search decryptEncstring str itemRef userKey ciphers = .ok cipher ↔
      search decryptEncstring str itemRef userKey ciphers' = .ok cipher := by
    intro cipher
    simp only [search_eq_ok,filter_eq_singleton_perm h,ne_eq,h.mem_iff]
  have hsome : ∀ (x : Except CustodyError Cipher) cipher, x.toOption = some cipher ↔
      x = .ok cipher := by
    intro x cipher
    cases x <;> simp [Except.toOption]
  ext1 cipher
  rw [hsome,hsome,hfound]

/-- The one item that meets the first of the rules which any item meets. -/
def SingledOut (rules : List (Cipher → Except CustodyError Bool)) (ciphers : List Cipher)
    (cipher : Cipher) : Prop :=
  ∃ before rule after, rules = before ++ rule::after ∧
    (∀ r ∈ before, ∀ c ∈ ciphers, holds (r c) = false) ∧
    (ciphers.filter fun c => holds (rule c)) = [cipher]

theorem singledOut_rules {ciphers : List Cipher} {cipher : Cipher} :
    SingledOut (rules decryptEncstring str itemRef userKey) ciphers cipher ↔
      ciphers.filter (carriesId str itemRef) = [cipher] ∨
      (∀ c ∈ ciphers, carriesId str itemRef c = false) ∧
        (ciphers.filter fun c => holds (secondRule decryptEncstring str itemRef userKey c)) =
          [cipher] := by
  constructor
  · rintro ⟨before,rule,after,hrules,hnone,hone⟩
    match before with
    | [] =>
      cases hrules
      exact Or.inl hone
    | [first] =>
      cases hrules
      exact Or.inr ⟨hnone _ List.mem_cons_self,hone⟩
    | _::_::rest =>
      simp [rules] at hrules
  · rintro (hone | ⟨hnone,hone⟩)
    · exact ⟨[],_,_,rfl,by simp,hone⟩
    · refine ⟨[_],_,[],rfl,?_,hone⟩
      intro r hr
      rw [List.mem_singleton.mp hr]
      exact hnone

/-- Two items or more share the id that is asked for, yet every item can be asked by the second
rule and one meets it. -/
def Overruled (decryptEncstring : String → Bytes → Except CustodyError String)
    (str : Json → String) (itemRef : String) (userKey : Bytes) (ciphers : List Cipher) : Prop :=
  2 ≤ (ciphers.filter (carriesId str itemRef)).length ∧
    (∀ c ∈ ciphers, errorOf (secondRule decryptEncstring str itemRef userKey c) = none) ∧
    (ciphers.filter fun c =>
      holds (secondRule decryptEncstring str itemRef userKey c)).length = 1

theorem search_singledOut_iff (ciphers : List Cipher) :
    (∀ cipher, search decryptEncstring str itemRef userKey ciphers = .ok cipher →
      SingledOut (rules decryptEncstring str itemRef userKey) ciphers cipher) ↔
    ¬Overruled decryptEncstring str itemRef userKey ciphers := by
  constructor
  · rintro h ⟨hmany,hread,hone⟩
    obtain ⟨cipher,hcipher⟩ := List.length_eq_one_iff.mp hone
    have hseveral : ∀ c, ciphers.filter (carriesId str itemRef) ≠ [c] := by
      intro c hc
      rw [hc,List.length_singleton] at hmany
      exact absurd hmany (by decide)
    have hfound := search_eq_ok.mpr (Or.inr ⟨hseveral,hread,hcipher⟩)
    rcases singledOut_rules.mp (h cipher hfound) with hid | ⟨hnone,-⟩
    · exact hseveral cipher hid
    · have hempty : ciphers.filter (carriesId str itemRef) = [] := by
        rw [List.filter_eq_nil_iff]
        intro c hc
        rw [hnone c hc]
        exact Bool.false_ne_true
      rw [hempty,List.length_nil] at hmany
      exact absurd hmany (by decide)
  · intro hfew cipher hfound
    rw [singledOut_rules]
    rcases search_eq_ok.mp hfound with hid | ⟨hseveral,hread,hone⟩
    · exact Or.inl hid
    · refine Or.inr ⟨?_,hone⟩
      have hshort : (ciphers.filter (carriesId str itemRef)).length < 2 := by
        by_contra hlong
        exact hfew ⟨not_lt.mp hlong,hread,by rw [hone]; rfl⟩
      match hmatches : ciphers.filter (carriesId str itemRef) with
      | [] => simpa using hmatches
      | [c] => exact absurd hmatches (hseveral c)
      | _::_::rest =>
        rw [hmatches,List.length_cons,List.length_cons] at hshort
        omega

end Search

section Unambiguous

open VaultCrypto

/-- Whatever is found in a document is singled out by the first rule that any login item of it
meets. -/
def FindsTheOne (evp : Evp) (str : Json → String) (sync : Cipher) (itemRef : String)
    (userKey : Bytes) : Prop :=
  ∀ cipher, resolveCipher (decryptWith evp) str sync itemRef userKey = .ok cipher →
    SingledOut (rules (decryptWith evp) str itemRef userKey) (logins sync) cipher

/-- A document with the same ciphers in another order has the same item, or none as well. -/
def OrderIndependent (evp : Evp) (str : Json → String) (sync : Cipher) (itemRef : String)
    (userKey : Bytes) : Prop :=
  ∀ sync' raw raw', Json.get sync "ciphers" = .arr raw → Json.get sync' "ciphers" = .arr raw' →
    raw.Perm raw' →
    (resolveCipher (decryptWith evp) str sync itemRef userKey).toOption =
      (resolveCipher (decryptWith evp) str sync' itemRef userKey).toOption

variable {evp : Evp} {str : Json → String} {sync : Cipher} {itemRef : String} {userKey : Bytes}

theorem orElse_arr (raw : List Json) : (Json.arr raw).orElse (.arr []) = .arr raw := by
  cases raw <;> rfl

theorem orderIndependent : OrderIndependent evp str sync itemRef userKey := by
  intro sync' raw raw' hraw hraw' hperm
  have hlist : (Json.get sync "ciphers").orElse (.arr []) = .arr raw := by rw [hraw,orElse_arr]
  have hlist' : (Json.get sync' "ciphers").orElse (.arr []) = .arr raw' := by
    rw [hraw',orElse_arr]
  rw [resolveCipher_arr hlist,resolveCipher_arr hlist']
  exact search_perm ((hperm.filterMap mapping).filter isLogin)

/-- A document whose ciphers are no list is refused. -/
theorem resolveCipher_other {decryptEncstring : String → Bytes → Except CustodyError String}
    (h : ∀ raw, (Json.get sync "ciphers").orElse (.arr []) ≠ .arr raw) :
    resolveCipher decryptEncstring str sync itemRef userKey =
      .error (.grantMaterial "vault sync ciphers are invalid") := by
  unfold resolveCipher
  split
  · next raw hraw => exact absurd hraw (h raw)
  · rfl

theorem logins_other (h : ∀ raw, (Json.get sync "ciphers").orElse (.arr []) ≠ .arr raw) :
    logins sync = [] := by
  unfold logins
  split
  · next raw hraw => exact absurd hraw (h raw)
  · rfl

/-- The search is unambiguous, and blind to the order of the items, exactly where no two items
that share the id asked for are passed over for one that the second rule finds. -/
theorem unambiguous_iff (evp : Evp) (str : Json → String) (sync : Cipher) (itemRef : String)
    (userKey : Bytes) :
    FindsTheOne evp str sync itemRef userKey ∧ OrderIndependent evp str sync itemRef userKey ↔
      ¬Overruled (decryptWith evp) str itemRef userKey (logins sync) := by
  rw [and_iff_left orderIndependent]
  by_cases hraw : ∃ raw, (Json.get sync "ciphers").orElse (.arr []) = .arr raw
  · obtain ⟨raw,hraw⟩ := hraw
    rw [FindsTheOne,logins_arr hraw,resolveCipher_arr hraw]
    exact search_singledOut_iff (loginsOf raw)
  · have hother := not_exists.mp hraw
    constructor
    · rintro - ⟨hmany,-⟩
      rw [logins_other hother,List.filter_nil,List.length_nil] at hmany
      exact absurd hmany (by decide)
    · intro _ cipher hfound
      rw [resolveCipher_other hother] at hfound
      cases hfound

/-- `"bank"`, encrypted. -/
def bankBlock : Bytes := [170,33,19,116,79,33,215,171,70,99,72,89,254,227,97,89]

/-- What is sealed in a block, as text of type 2 with a MAC that verifies. -/
def sealedText (block : Bytes) : String :=
  encstringText countingIv.1 block (Sha256.hmac (countingKey.drop 32) (countingIv.1 ++ block))

theorem decryptEncstringBytes_sealedText (plain : Bytes) {block : Bytes} (h : block ≠ []) :
    decryptEncstringBytes (evpOf plain block) (sealedText block) countingKey = .ok plain :=
  decryptEncstringBytes_encstringText rfl h (decrypts_evpOf plain block)

/-- Two logins with the id `bank`, and one with that name. -/
def threeItems : List Json :=
  [.obj [("type",.int 1),("id",.str "bank")],.obj [("type",.int 1),("id",.str "bank")],
    .obj [("type",.int 1),("id",.str "third"),("name",.str (sealedText bankBlock))]]

def threeLogins : Cipher := [("ciphers",.arr threeItems)]

theorem sealedText_ne_empty (block : Bytes) : sealedText block ≠ "" := by
  rw [← String.toList_inj.ne,sealedText,toList_encstringText]
  simp

theorem decryptWith_bank :
    decryptWith (evpOf (Text.encodeUtf8 "bank") bankBlock) (sealedText bankBlock) countingKey =
      .ok "bank" := by
  rw [decryptWith,decryptEncstring,decryptEncstringBytes_sealedText _ (by decide)]
  simp only [Text.decodeUtf8_encodeUtf8]
  rfl

theorem overruled_threeLogins : Overruled (decryptWith (evpOf (Text.encodeUtf8 "bank") bankBlock))
    (fun _ => "") "bank" countingKey (logins threeLogins) := by
  have hname : decryptName (decryptWith (evpOf (Text.encodeUtf8 "bank") bankBlock)) (fun _ => "")
      [("type",.int 1),("id",.str "third"),("name",.str (sealedText bankBlock))] countingKey =
        .ok "bank" := by
    show decrypt _ _ (.str (sealedText bankBlock)) countingKey = _
    have htruthy : (Json.str (sealedText bankBlock)).truthy = true :=
      decide_eq_true (sealedText_ne_empty bankBlock)
    rw [decrypt,if_pos htruthy]
    show asItem (decryptWith _ (sealedText bankBlock) countingKey) = _
    rw [decryptWith_bank]
    rfl
  have hother : ∀ id : String, decryptName (decryptWith (evpOf (Text.encodeUtf8 "bank") bankBlock))
      (fun _ => "") [("type",.int 1),("id",.str id)] countingKey = .ok "" := fun _ => rfl
  have hlogins : logins threeLogins = [[("type",.int 1),("id",.str "bank")],
    [("type",.int 1),("id",.str "bank")],
    [("type",.int 1),("id",.str "third"),("name",.str (sealedText bankBlock))]] := rfl
  have hrule : ∀ c, secondRule (decryptWith (evpOf (Text.encodeUtf8 "bank") bankBlock))
      (fun _ => "") "bank" countingKey c = (do
        let name ← decryptName (decryptWith (evpOf (Text.encodeUtf8 "bank") bankBlock))
          (fun _ => "") c countingKey
        return decide (name = "bank")) := fun c => if_neg (by decide)
  rw [Overruled,hlogins]
  simp only [hrule]
  refine ⟨?_,?_,?_⟩
  · decide +kernel
  · simp only [List.forall_mem_cons,hname,hother]
    decide
  · simp only [List.filter_cons,hname,hother]
    decide +kernel

/-- Two items with the id asked for are passed over for one with that name. -/
theorem two_ids_pass : ¬∀ (evp : Evp) (str : Json → String) (sync : Cipher) (itemRef : String)
    (userKey : Bytes),
    FindsTheOne evp str sync itemRef userKey ∧ OrderIndependent evp str sync itemRef userKey := by
  intro h
  obtain ⟨hone,-⟩ := h (evpOf (Text.encodeUtf8 "bank") bankBlock) (fun _ => "") threeLogins "bank"
    countingKey
  have hraw : (Json.get threeLogins "ciphers").orElse (.arr []) = .arr threeItems :=
    orElse_arr threeItems
  have hover := overruled_threeLogins
  rw [FindsTheOne,resolveCipher_arr hraw] at hone
  exact (search_singledOut_iff (logins threeLogins)).mp hone hover

end Unambiguous
section Closed

open VaultCrypto

/-- The errors that the broker expects of a search. -/
inductive Expected : CustodyError → Prop
  | grantMaterial (message : String) : Expected (.grantMaterial message)
  | lookupError (message : String) : Expected (.lookupError message)

/-- An authentic text whose plaintext is not UTF-8. -/
def NotText (evp : Evp) (raw : String) (key64 : Bytes) : Prop :=
  ∃ enc plain, EncString.parse raw = .ok enc ∧ enc.type = 2 ∧ key64.length = 64 ∧
    enc.mac = some (Sha256.hmac (key64.drop 32) (enc.iv ++ enc.ct)) ∧
    aesCbcDecrypt evp (key64.take 32) enc.iv enc.ct = .ok plain ∧ Text.decodeUtf8 plain = none

/-- One thing that a search reads of an item: a text to decrypt, or the list of its addresses. -/
inductive Reading
  | text (value : Json)
  | entries (value : Json)

variable (evp : Evp) (str : Json → String) (userKey : Bytes)

/-- The error of a reading. -/
def Reading.fault : Reading → Option CustodyError
  | .text value => errorOf (decrypt (decryptWith evp) str value userKey)
  | .entries value => errorOf (iterate value)

/-- A reading whose error the broker does not expect: an authentic text that is not UTF-8, or
addresses that cannot be gone through. -/
def Reading.Escapes : Reading → Prop
  | .text value => value.truthy = true ∧ NotText evp (VaultItems.text str value) userKey
  | .entries value => ∀ entries, iterate value ≠ .ok entries

/-- What is read of a login for its addresses. -/
def addressReadings (login : Cipher) : List Reading :=
  let uris := (Json.get login "uris").orElse (.arr [])
  .entries uris :: (((iterate uris).toOption.getD []).filterMap mapping).map fun entry =>
    .text (Json.get entry "uri")

/-- What is read of an item for its fields. -/
def readings (cipher : Cipher) : List Reading :=
  let login := (mapping ((Json.get cipher "login").orElse (.obj []))).getD []
  .text (Json.get login "username") :: .text (Json.get login "password") :: addressReadings login

def readsName (cipher : Cipher) : Reading := .text (Json.get cipher "name")

/-- What is read of the items, in that order, until the material of one is found. -/
def examined (itemRef : String) (ciphers : List Cipher) : List Reading :=
  match ciphers.filter (carriesId str itemRef) with
  | [cipher] => readings cipher
  | _ =>
    if "uri:".toList.isPrefixOf itemRef.toList then ciphers.flatMap readings
    else ciphers.map readsName ++
      match ciphers.filter fun c =>
          holds (secondRule (decryptWith evp) str itemRef userKey c) with
      | [cipher] => readings cipher
      | _ => []

variable {evp str userKey} {itemRef : String} {ciphers : List Cipher} {cipher : Cipher}

theorem notText_iff {raw : String} :
    NotText evp raw userKey ↔ decryptEncstring evp raw userKey = .error .unicodeDecode := by
  constructor
  · rintro ⟨enc,plain,hparse,htype,hkey,hmac,hplain,hnone⟩
    rw [decryptEncstring,decryptEncstringBytes_verified hparse htype hkey hmac hplain]
    simp only [hnone]
  · intro h
    rw [decryptEncstring] at h
    cases hbytes : decryptEncstringBytes evp raw userKey with
    | error e =>
      rw [hbytes] at h
      cases h
    | ok plain =>
      obtain ⟨enc,hparse,htype,hkey,hmac,hplain⟩ := decryptEncstringBytes_eq_ok hbytes
      rw [hbytes] at h
      cases hnone : Text.decodeUtf8 plain with
      | none => exact ⟨enc,plain,hparse,htype,hkey,hmac,hplain,hnone⟩
      | some s =>
        simp only [hnone] at h
        cases h

theorem asItem_asCustody (e : VaultCryptoError) :
    asItem (.error (asCustody (.vault e)) : Except CustodyError String) =
      .error (.grantMaterial "grant item cannot be decrypted") := by
  cases e <;> rfl

/-- An error that is not expected comes of a text that is authentic but not UTF-8. -/
theorem errorOf_decrypt (value : Json) {e : CustodyError} (he : ¬Expected e) :
    errorOf (decrypt (decryptWith evp) str value userKey) = some e ↔
      e = .other ∧ value.truthy = true ∧ NotText evp (VaultItems.text str value) userKey := by
  rw [notText_iff,decrypt]
  by_cases hvalue : value.truthy = true
  · rw [if_pos hvalue,decryptWith]
    cases hread : decryptEncstring evp (VaultItems.text str value) userKey with
    | ok text => simp [Except.mapError,asItem,errorOf]
    | error error =>
      cases error with
      | vault error =>
        rw [show Except.mapError asCustody (.error (.vault error)) =
          (.error (asCustody (.vault error)) : Except CustodyError String) from rfl,
          asItem_asCustody]
        have hne : CustodyError.grantMaterial "grant item cannot be decrypted" ≠ e := by
          rintro rfl
          exact he (.grantMaterial _)
        simp [errorOf,hne]
      | unicodeDecode => simp [Except.mapError,asItem,asCustody,errorOf,hvalue,eq_comm]
  · rw [if_neg hvalue]
    simp [errorOf,hvalue]

theorem errorOf_iterate (value : Json) {e : CustodyError} :
    errorOf (iterate value) = some e ↔ e = .other ∧ ∀ entries, iterate value ≠ .ok entries := by
  cases value <;> simp [iterate,errorOf,eq_comm]

theorem not_expected_other : ¬Expected .other := nofun

/-- A reading fails with an error that is not expected exactly where it escapes. -/
theorem fault_iff (r : Reading) {e : CustodyError} (he : ¬Expected e) :
    r.fault evp str userKey = some e ↔ e = .other ∧ r.Escapes evp str userKey := by
  cases r with
  | text value => exact errorOf_decrypt value he
  | entries value => exact errorOf_iterate value

theorem errorOf_decryptUris (login : Cipher) :
    errorOf (decryptUris (decryptWith evp) str login userKey) =
      (addressReadings login).findSome? (Reading.fault evp str userKey) := by
  rw [decryptUris,addressReadings,List.findSome?_cons,List.findSome?_map,Reading.fault]
  cases (iterate ((Json.get login "uris").orElse (.arr []))) with
  | error e => rfl
  | ok entries =>
    have hentries := errorOf_mapM (fun entry => decrypt (decryptWith evp) str (Json.get entry "uri")
      userKey) (entries.filterMap mapping)
    refine Eq.trans ?_ hentries
    show errorOf ((entries.filterMap mapping).mapM _ >>= _) = _
    cases (entries.filterMap mapping).mapM fun entry =>
      decrypt (decryptWith evp) str (Json.get entry "uri") userKey with
    | error e => rfl
    | ok uris => rfl

/-- The first reading that fails decides the error of an item's fields. -/
theorem errorOf_decryptCipherFields (cipher : Cipher) :
    errorOf (decryptCipherFields (decryptWith evp) str cipher userKey) =
      (readings cipher).findSome? (Reading.fault evp str userKey) := by
  rw [decryptCipherFields,readings,List.findSome?_cons,List.findSome?_cons,← errorOf_decryptUris,
    Reading.fault,Reading.fault]
  generalize (mapping ((Json.get cipher "login").orElse (.obj []))).getD [] = login
  cases decrypt (decryptWith evp) str (Json.get login "username") userKey with
  | error e => rfl
  | ok username =>
    cases decrypt (decryptWith evp) str (Json.get login "password") userKey with
    | error e => rfl
    | ok password =>
      cases decryptUris (decryptWith evp) str login userKey with
      | error e => rfl
      | ok uris => rfl

theorem errorOf_decryptCipher (cipher : Cipher) :
    errorOf (decryptCipher (decryptWith evp) str cipher userKey) =
      (readings cipher).findSome? (Reading.fault evp str userKey) := by
  rw [← errorOf_decryptCipherFields,decryptCipher]
  cases decryptCipherFields (decryptWith evp) str cipher userKey with
  | error e => rfl
  | ok fields => rfl

theorem errorOf_secondRule (cipher : Cipher) :
    errorOf (secondRule (decryptWith evp) str itemRef userKey cipher) =
      (if "uri:".toList.isPrefixOf itemRef.toList then readings cipher
        else [readsName cipher]).findSome? (Reading.fault evp str userKey) := by
  unfold secondRule
  split_ifs
  · rw [← errorOf_decryptCipherFields]
    cases decryptCipherFields (decryptWith evp) str cipher userKey with
    | error e => rfl
    | ok fields => rfl
  · rw [List.findSome?_cons,readsName,Reading.fault,← decryptName]
    cases decryptName (decryptWith evp) str cipher userKey with
    | error e => rfl
    | ok name => rfl

theorem findSome_flatMap {α β γ : Type} (g : α → List β) (f : β → Option γ) (l : List α) :
    (l.flatMap g).findSome? f = l.findSome? fun a => (g a).findSome? f := by
  induction l with
  | nil => rfl
  | cons a l ih =>
    rw [List.flatMap_cons,List.findSome?_append,ih,List.findSome?_cons]
    cases (g a).findSome? f <;> rfl

theorem single_expected {items : List Cipher} (h : ∀ c, items ≠ [c]) :
    ∃ e, single items = .error e ∧ Expected e := by
  match items with
  | [] => exact ⟨_,rfl,.lookupError _⟩
  | [c] => exact absurd rfl (h c)
  | _::_::_ => exact ⟨_,rfl,.grantMaterial _⟩

/-- What is left to read when the second rule has been asked of every item. -/
def readAfter (evp : Evp) (str : Json → String) (userKey : Bytes) (itemRef : String)
    (ciphers : List Cipher) : List Reading :=
  if "uri:".toList.isPrefixOf itemRef.toList then []
  else match ciphers.filter fun c =>
      holds (secondRule (decryptWith evp) str itemRef userKey c) with
    | [cipher] => readings cipher
    | _ => []

/-- The errors of the second rule are those of what it reads. -/
theorem errorOf_secondRules (ciphers : List Cipher) :
    errorOf (filterCiphers (secondRule (decryptWith evp) str itemRef userKey) ciphers) =
      (if "uri:".toList.isPrefixOf itemRef.toList then ciphers.flatMap readings
        else ciphers.map readsName).findSome? (Reading.fault evp str userKey) := by
  rw [errorOf_filterCiphers]
  simp only [errorOf_secondRule]
  split_ifs
  · rw [findSome_flatMap]
  · rw [List.findSome?_map]
    congr 1
    funext c
    rw [Function.comp_apply,List.findSome?_cons,List.findSome?_nil]
    cases (readsName c).fault evp str userKey <;> rfl

theorem examined_of_several (h : ∀ c, ciphers.filter (carriesId str itemRef) ≠ [c]) :
    examined evp str userKey itemRef ciphers =
      (if "uri:".toList.isPrefixOf itemRef.toList then ciphers.flatMap readings
        else ciphers.map readsName) ++ readAfter evp str userKey itemRef ciphers := by
  unfold examined readAfter
  split
  · next c hc => exact absurd hc (h c)
  · split_ifs
    · rw [List.append_nil]
    · rfl

/-- The material of an item that has passed the second rule is read without errors, where the
rule has read all of it. -/
theorem errorOf_found (hread : ∀ c ∈ ciphers,
      errorOf (secondRule (decryptWith evp) str itemRef userKey c) = none)
    (hone : (ciphers.filter fun c =>
      holds (secondRule (decryptWith evp) str itemRef userKey c)) = [cipher]) :
    errorOf (decryptCipher (decryptWith evp) str cipher userKey) =
      (readAfter evp str userKey itemRef ciphers).findSome? (Reading.fault evp str userKey) := by
  have hmem : cipher ∈ ciphers := List.mem_of_mem_filter (hone ▸ List.mem_singleton_self cipher)
  have hpassed := hread cipher hmem
  rw [errorOf_secondRule] at hpassed
  rw [errorOf_decryptCipher,readAfter]
  split_ifs with huri
  · rwa [if_pos huri] at hpassed
  · rw [hone]

/-- What a search and the reading of its item fail with, when it is no error that is expected,
is the error of the first reading that fails. -/
theorem errorOf_search {e : CustodyError} (he : ¬Expected e) :
    errorOf (search (decryptWith evp) str itemRef userKey ciphers >>= fun cipher =>
      decryptCipher (decryptWith evp) str cipher userKey) = some e ↔
    (examined evp str userKey itemRef ciphers).findSome? (Reading.fault evp str userKey) =
      some e := by
  by_cases hid : ∃ c, ciphers.filter (carriesId str itemRef) = [c]
  · obtain ⟨c,hc⟩ := hid
    simp only [search,examined,hc]
    rw [← errorOf_decryptCipher]
    rfl
  · have hseveral := not_exists.mp hid
    have hsearch : search (decryptWith evp) str itemRef userKey ciphers =
        filterCiphers (secondRule (decryptWith evp) str itemRef userKey) ciphers >>= single := by
      unfold search
      split
      · next c hc => exact absurd hc (hseveral c)
      · rfl
    rw [hsearch,examined_of_several hseveral,List.findSome?_append,← errorOf_secondRules]
    cases hfound : filterCiphers (secondRule (decryptWith evp) str itemRef userKey) ciphers with
    | error e' => rfl
    | ok kept =>
      have hread : ∀ c ∈ ciphers,
          errorOf (secondRule (decryptWith evp) str itemRef userKey c) = none := by
        rw [← List.findSome?_eq_none_iff,← errorOf_filterCiphers,hfound]
        rfl
      have hkept := filterCiphers_eq hfound
      by_cases hone : ∃ c, kept = [c]
      · obtain ⟨c,rfl⟩ := hone
        rw [show ∀ o, (errorOf (.ok [c] : Except CustodyError (List Cipher))).or o = o from
          fun _ => rfl,← errorOf_found hread hkept.symm]
        rfl
      · have hnotOne := not_exists.mp hone
        obtain ⟨e',hsingle,hexpected⟩ := single_expected hnotOne
        have hnone : readAfter evp str userKey itemRef ciphers = [] := by
          unfold readAfter
          split_ifs
          · rfl
          · rw [← hkept]
            split
            · next c => exact absurd rfl (hnotOne c)
            · rfl
        have hne : e' ≠ e := by
          rintro rfl
          exact he hexpected
        rw [hnone]
        show errorOf (single kept >>= _) = some e ↔ none = some e
        rw [hsingle]
        simp [errorOf,bind,Except.bind,hne]

theorem examined_nil : examined evp str userKey itemRef [] = [] := by
  simp [examined]

/-- The first reading that fails, where it escapes. -/
theorem findSome_escapes {l : List Reading} :
    (∃ e, ¬Expected e ∧ l.findSome? (Reading.fault evp str userKey) = some e) ↔
      ∃ before r after, l = before ++ r::after ∧
        (∀ b ∈ before, b.fault evp str userKey = none) ∧ r.Escapes evp str userKey := by
  simp only [List.findSome?_eq_some_iff]
  constructor
  · rintro ⟨e,he,before,r,after,rfl,hfault,hnone⟩
    exact ⟨before,r,after,rfl,hnone,((fault_iff r he).mp hfault).2⟩
  · rintro ⟨before,r,after,rfl,hnone,hescapes⟩
    exact ⟨.other,not_expected_other,before,r,after,rfl,
      (fault_iff r not_expected_other).mpr ⟨rfl,hescapes⟩,hnone⟩

theorem expected_iff {α : Type} (x : Except CustodyError α) :
    (∀ e, x = .error e → Expected e) ↔ ¬∃ e, ¬Expected e ∧ errorOf x = some e := by
  cases x with
  | ok a => simp [errorOf]
  | error e => simp [errorOf]

/-- A decryption ends in a text or in an error of the vault's exactly where it does not find an
authentic text that is not UTF-8; a search ends in material or in an error the broker expects
exactly where it comes to no such text, and to no addresses that cannot be gone through, before
another reading has failed. -/
theorem errors_closed_iff (evp : Evp) (str : Json → String) :
    (∀ raw key64, ((∃ p, decryptEncstring evp raw key64 = .ok p) ∨
        ∃ e, decryptEncstring evp raw key64 = .error (.vault e)) ↔ ¬NotText evp raw key64) ∧
    ∀ sync itemRef userKey,
      (∀ e, (resolveCipher (decryptWith evp) str sync itemRef userKey >>= fun cipher =>
        decryptCipher (decryptWith evp) str cipher userKey) = .error e → Expected e) ↔
      ¬∃ before r after, examined evp str userKey itemRef (logins sync) = before ++ r::after ∧
        (∀ b ∈ before, b.fault evp str userKey = none) ∧ r.Escapes evp str userKey := by
  constructor
  · intro raw key64
    rw [notText_iff]
    cases decryptEncstring evp raw key64 with
    | ok p => simp
    | error e => cases e <;> simp
  · intro sync itemRef userKey
    rw [expected_iff]
    by_cases hraw : ∃ raw, (Json.get sync "ciphers").orElse (.arr []) = .arr raw
    · obtain ⟨raw,hraw⟩ := hraw
      rw [resolveCipher_arr hraw,logins_arr hraw,← findSome_escapes]
      refine not_congr (exists_congr fun e => and_congr_right fun he => ?_)
      exact errorOf_search he
    · have hother := not_exists.mp hraw
      rw [resolveCipher_other hother,logins_other hother,examined_nil]
      constructor
      · rintro - ⟨before,r,after,hsplit,-⟩
        simp at hsplit
      · rintro - ⟨e,he,herror⟩
        cases herror
        exact he (.grantMaterial _)

/-- A byte that no UTF-8 text begins with, encrypted. -/
def strayBlock : Bytes := [82,170,2,130,191,207,228,180,76,202,102,2,252,145,255,72]

/-- A login with the id `bank`. -/
def bankLogin (username : Json) : Cipher :=
  [("type",.int 1),("id",.str "bank"),("login",.obj [("username",username)])]

def oneLogin (username : Json) : Cipher := [("ciphers",.arr [.obj (bankLogin username)])]

/-- The error of the user name is that of the whole search. -/
theorem oneLogin_error (decryptEncstring : String → Bytes → Except CustodyError String)
    {username : Json} {e : CustodyError}
    (h : decrypt decryptEncstring (fun _ => "") username countingKey = .error e) :
    (resolveCipher decryptEncstring (fun _ => "") (oneLogin username) "bank" countingKey >>=
      fun cipher => decryptCipher decryptEncstring (fun _ => "") cipher countingKey) = .error e := by
  show decryptCipher decryptEncstring (fun _ => "") (bankLogin username) countingKey = _
  rw [decryptCipher,decryptCipherFields]
  show (decrypt _ _ username countingKey >>= _) >>= _ = _
  rw [h]
  rfl

theorem decryptEncstring_stray :
    decryptEncstring (evpOf [255] strayBlock) (sealedText strayBlock) countingKey =
      .error .unicodeDecode := by
  have hnone : Text.decodeUtf8 [255] = none := by decide +kernel
  rw [decryptEncstring,decryptEncstringBytes_sealedText _ (by decide)]
  simp only [hnone]

theorem oneLogin_escapes :
    (resolveCipher (decryptWith (evpOf [255] strayBlock)) (fun _ => "")
      (oneLogin (.str (sealedText strayBlock))) "bank" countingKey >>= fun cipher =>
        decryptCipher (decryptWith (evpOf [255] strayBlock)) (fun _ => "") cipher countingKey) =
      .error .other := by
  have htruthy : (Json.str (sealedText strayBlock)).truthy = true :=
    decide_eq_true (sealedText_ne_empty strayBlock)
  have hname : decrypt (decryptWith (evpOf [255] strayBlock)) (fun _ => "")
      (.str (sealedText strayBlock)) countingKey = .error .other := by
    rw [decrypt,if_pos htruthy]
    show asItem ((decryptEncstring _ (sealedText strayBlock) countingKey).mapError asCustody) = _
    rw [decryptEncstring_stray]
    rfl
  exact oneLogin_error (decryptWith (evpOf [255] strayBlock)) hname

/-- Both a decryption and a search let the decoder's error out. -/
theorem stray_byte_escapes :
    (¬∀ (evp : Evp) raw key64, (∃ p, decryptEncstring evp raw key64 = .ok p) ∨
      ∃ e, decryptEncstring evp raw key64 = .error (.vault e)) ∧
    ¬∀ (evp : Evp) (str : Json → String) sync itemRef userKey e,
      (resolveCipher (decryptWith evp) str sync itemRef userKey >>= fun cipher =>
        decryptCipher (decryptWith evp) str cipher userKey) = .error e → Expected e := by
  constructor
  · intro h
    have hstray := h (evpOf [255] strayBlock) (sealedText strayBlock) countingKey
    rw [decryptEncstring_stray] at hstray
    rcases hstray with ⟨p,hp⟩ | ⟨e,he⟩
    · cases hp
    · cases he
  · intro h
    exact not_expected_other (h (evpOf [255] strayBlock) (fun _ => "")
      (oneLogin (.str (sealedText strayBlock))) "bank" countingKey .other oneLogin_escapes)

end Closed
end VaultItems
end CloudBrowser
