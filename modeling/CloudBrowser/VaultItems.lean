import CloudBrowser.GrantCustody

/-! The login item of a grant in a synchronised vault: how it is found by its reference, and
what is decrypted of it. -/
namespace CloudBrowser
namespace VaultItems

open GrantCustody

/-- Short-lived credentials of one login. -/
structure CredentialMaterial where
  username : String
  password : String
  deriving DecidableEq, Repr

/-- `isinstance(value, Mapping)`, with the mapping. -/
def mapping : Json → Option (List (String × Json))
  | .obj fields => some fields
  | _ => none

section Items

-- `crypto.decrypt_encstring`, and `str` of a value that is not a string
variable (decryptEncstring : String → Bytes → Except CustodyError String) (str : Json → String)

def text : Json → String
  | .str s => s
  | value => str value

/-- An item that does not decrypt is reported as such. -/
def asItem {α : Type} : Except CustodyError α → Except CustodyError α
  | .error (.vaultCrypto _) => .error (.grantMaterial "grant item cannot be decrypted")
  | r => r

/-- The value as text, decrypted; nothing reads as the empty text. -/
def decrypt (value : Json) (userKey : Bytes) : Except CustodyError String :=
  if value.truthy then asItem (decryptEncstring (text str value) userKey) else .ok ""

def decryptName (cipher : List (String × Json)) (userKey : Bytes) : Except CustodyError String :=
  decrypt decryptEncstring str (Json.get cipher "name") userKey

/-- What `for entry in value` runs over: the characters of a text and the keys of a mapping
are texts; a number or a boolean raises `TypeError`. -/
def iterate : Json → Except CustodyError (List Json)
  | .arr items => .ok items
  | .str s => .ok (s.toList.map fun c => .str (String.singleton c))
  | .obj fields => .ok (fields.map fun f => .str f.1)
  | _ => .error .other

def decryptUris (login : List (String × Json)) (userKey : Bytes) :
    Except CustodyError (List String) := do
  let entries ← iterate ((Json.get login "uris").orElse (.arr []))
  let uris ← (entries.filterMap mapping).mapM fun entry =>
    decrypt decryptEncstring str (Json.get entry "uri") userKey
  return uris.filter (· ≠ "")

def decryptCipherFields (cipher : List (String × Json)) (userKey : Bytes) :
    Except CustodyError (String × String × List String) := do
  let login := (mapping ((Json.get cipher "login").orElse (.obj []))).getD []
  let username ← decrypt decryptEncstring str (Json.get login "username") userKey
  let password ← decrypt decryptEncstring str (Json.get login "password") userKey
  let uris ← decryptUris decryptEncstring str login userKey
  return (username,password,uris)

/-- The one item of a search. -/
def single (items : List (List (String × Json))) : Except CustodyError (List (String × Json)) :=
  match items with
  | [] => .error (.lookupError "grant unavailable")
  | [item] => .ok item
  | _ => .error (.grantMaterial "grant item is ambiguous")

/-- `cipher.get("type") == 1`, which `True` and `1.0` pass too. -/
def isLogin (cipher : List (String × Json)) : Bool :=
  match Json.get cipher "type" with
  | .int i => i = 1
  | .real q => q = 1
  | .bool b => b
  | _ => false

/-- `filterM` in the order of the list, stopping at the first error. -/
def filterCiphers (p : List (String × Json) → Except CustodyError Bool) :
    List (List (String × Json)) → Except CustodyError (List (List (String × Json)))
  | [] => .ok []
  | cipher::ciphers => do
    let kept ← p cipher
    let rest ← filterCiphers p ciphers
    return if kept then cipher::rest else rest

def resolveCipher (sync : List (String × Json)) (itemRef : String) (userKey : Bytes) :
    Except CustodyError (List (String × Json)) :=
  match (Json.get sync "ciphers").orElse (.arr []) with
  | .arr raw =>
    let ciphers := (raw.filterMap mapping).filter isLogin
    let exact := ciphers.filter fun cipher =>
      text str ((Json.get cipher "id").orElse (.str "")) = itemRef
    match exact with
    | [cipher] => .ok cipher
    | _ =>
      if "uri:".toList.isPrefixOf itemRef.toList then do
        let found ← filterCiphers (fun cipher => do
          let fields ← decryptCipherFields decryptEncstring str cipher userKey
          return fields.2.2.any ((itemRef.toList.drop 4).isPrefixOf ·.toList)) ciphers
        single found
      else do
        let named ← filterCiphers (fun cipher => do
          let name ← decryptName decryptEncstring str cipher userKey
          return decide (name = itemRef)) ciphers
        single named
  | _ => .error (.grantMaterial "vault sync ciphers are invalid")

def decryptCipher (cipher : List (String × Json)) (userKey : Bytes) :
    Except CustodyError CredentialMaterial := do
  let fields ← decryptCipherFields decryptEncstring str cipher userKey
  return ⟨fields.1,fields.2.1⟩

end Items
end VaultItems
end CloudBrowser
