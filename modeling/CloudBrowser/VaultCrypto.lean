import CloudBrowser.Delimited
import CloudBrowser.JsonText
import CloudBrowser.PaddedBase64
import CloudBrowser.Sha256

/-! The encrypted texts of a vault: a type, and for type 2 an initialization vector, a
ciphertext and a MAC over both, each in base64. -/
namespace CloudBrowser
namespace VaultCrypto

/-- `VaultCryptoError` and its two subclasses. -/
inductive VaultCryptoError
  | vaultCrypto (message : String)
  | macVerificationFailed (message : String)
  | unsupportedCipherType (message : String)
  deriving DecidableEq, Repr

/-- What leaves a decryption to text: besides the errors of the module the one of the decoder. -/
inductive DecryptError
  | vault (e : VaultCryptoError)
  | unicodeDecode
  deriving DecidableEq, Repr

section Numerals

/-- The code points of the digit zero of each decimal script. -/
def zeros : List ℕ :=
  [0x30,0x660,0x6F0,0x7C0,0x966,0x9E6,0xA66,0xAE6,0xB66,0xBE6,0xC66,0xCE6,0xD66,0xDE6,0xE50,0xED0,
    0xF20,0x1040,0x1090,0x17E0,0x1810,0x1946,0x19D0,0x1A80,0x1A90,0x1B50,0x1BB0,0x1C40,0x1C50,
    0xA620,0xA8D0,0xA900,0xA9D0,0xA9F0,0xAA50,0xABF0,0xFF10,0x104A0,0x10D30,0x11066,0x110F0,
    0x11136,0x111D0,0x112F0,0x11450,0x114D0,0x11650,0x116C0,0x11730,0x118E0,0x11950,0x11C50,
    0x11D50,0x11DA0,0x11F50,0x16A60,0x16AC0,0x16B50,0x1D7CE,0x1D7D8,0x1D7E2,0x1D7EC,0x1D7F6,
    0x1E140,0x1E2F0,0x1E4F0,0x1E950,0x1FBF0]

def decimal (c : Char) : Option ℕ :=
  (zeros.find? fun z => z ≤ c.toNat ∧ c.toNat < z+10).map (c.toNat - ·)

/-- The blanks around a numeral. -/
def isSpace (c : Char) : Bool :=
  c = ' ' || (9 ≤ c.toNat && c.toNat ≤ 13) || (0x2000 ≤ c.toNat && c.toNat ≤ 0x200A) ||
    [0x85,0xA0,0x1680,0x2028,0x2029,0x202F,0x205F,0x3000].contains c.toNat

/-- Digits, of which two may stand around a single underscore. -/
def readDecimals (text : List Char) : Option (List ℕ) :=
  ((text.splitOn '_').mapM fun group => if group = [] then none else group.mapM decimal).map
    List.flatten

def readNatural (text : List Char) : Option ℕ := do
  let digits ← readDecimals text
  if digits.length ≤ Json.maxStrDigits then some (digits.foldl (fun n d => 10*n+d) 0) else none

/-- `int` of a text, where `ValueError` is `none`. -/
def int (text : List Char) : Option ℤ :=
  match ((text.dropWhile isSpace).reverse.dropWhile isSpace).reverse with
  | '-'::digits => (readNatural digits).map fun n => -(n : ℤ)
  | '+'::digits => (readNatural digits).map fun n => (n : ℤ)
  | digits => (readNatural digits).map fun n => (n : ℤ)

example : int " +0_2\t".toList = some 2 ∧ int "2__0".toList = none := by decide

end Numerals

/-- `text.partition(sign)`, without the sign. -/
def partition (sign : Char) (text : List Char) : List Char × List Char :=
  (text.takeWhile (· ≠ sign),(text.dropWhile (· ≠ sign)).drop 1)

theorem partition_append {sign : Char} {text : List Char} (h : sign ∉ text) (rest : List Char) :
    partition sign (text ++ sign::rest) = (text,rest) := by
  obtain ⟨hhead,htail⟩ := Delimited.takeWhile_head h rest
  rw [partition,hhead,List.drop_one,htail]

structure EncString where
  type : ℤ
  iv : Bytes
  ct : Bytes
  mac : Option Bytes
  deriving DecidableEq, Repr

/-- The body of a type 2 text. -/
def EncString.parseBody (rest : List Char) : Except VaultCryptoError EncString :=
  let (ivText,remainder) := partition '|' rest
  let (ctText,macText) := partition '|' remainder
  if ivText = [] ∨ ctText = [] ∨ macText = [] then .error (.vaultCrypto "malformed encString body")
  else match PaddedBase64.decode ivText, PaddedBase64.decode ctText,
      PaddedBase64.decode macText with
    | some iv, some ct, some mac => .ok ⟨2,iv,ct,some mac⟩
    | _, _, _ => .error (.vaultCrypto "malformed encString base64")

def EncString.parse (raw : String) : Except VaultCryptoError EncString :=
  if raw = "" ∨ '.' ∉ raw.toList then .error (.vaultCrypto "malformed encString")
  else
    let (head,rest) := partition '.' raw.toList
    match int head with
    | none => .error (.vaultCrypto "malformed encString type")
    | some encType =>
      if encType = 2 then EncString.parseBody rest
      else if encType = 4 ∨ encType = 5 ∨ encType = 6 then
        match PaddedBase64.decode rest with
        | some ct => .ok ⟨encType,[],ct,none⟩
        | none => .error (.vaultCrypto "malformed RSA encString base64")
      else .error (.unsupportedCipherType
        ("encString type " ++ toString encType ++ " is not supported"))

section Cbc

inductive CbcCipher
  | aes128 | aes256
  deriving DecidableEq, Repr

/-- The calls of the crypto library that may fail. -/
inductive EvpCall
  | ctxNew | init | update | final
  deriving DecidableEq, Repr

/-- AES-CBC with PKCS#7 padding as the crypto library computes it. -/
structure Evp where
  encrypts : CbcCipher → (key iv plaintext : Bytes) → Except EvpCall Bytes
  decrypts : CbcCipher → (key iv ciphertext : Bytes) → Except EvpCall Bytes

def EvpCall.error (encrypt : Bool) : EvpCall → VaultCryptoError
  | .ctxNew => .vaultCrypto "EVP_CIPHER_CTX_new failed"
  | .init => .vaultCrypto "cipher init failed"
  | .update => .vaultCrypto "cipher update failed"
  | .final => if encrypt then .vaultCrypto "final encrypt failed"
    else .macVerificationFailed "final decrypt failed (padding/tag)"

/-- The checks that `aes_cbc_encrypt` and `aes_cbc_decrypt` begin with, and the cipher chosen. -/
def cbcCipher (key iv : Bytes) : Except VaultCryptoError CbcCipher :=
  if iv.length ≠ 16 then .error (.vaultCrypto "CBC IV must be 16 bytes")
  else if key.length ∉ [16,24,32] then .error (.vaultCrypto "AES key must be 16/24/32 bytes")
  else .ok (if key.length = 32 then .aes256 else .aes128)

variable (evp : Evp)

def aesCbcEncrypt (key iv plaintext : Bytes) : Except VaultCryptoError Bytes := do
  let cipher ← cbcCipher key iv
  (evp.encrypts cipher key iv plaintext).mapError (EvpCall.error true)

def aesCbcDecrypt (key iv ciphertext : Bytes) : Except VaultCryptoError Bytes := do
  let cipher ← cbcCipher key iv
  (evp.decrypts cipher key iv ciphertext).mapError (EvpCall.error false)

/-- The halves of a symmetric key. -/
def stretchToEncMac (key64 : Bytes) : Except VaultCryptoError (Bytes × Bytes) :=
  if key64.length ≠ 64 then
    .error (.vaultCrypto "symmetric keys must be 64 bytes (32 enc + 32 mac)")
  else .ok (key64.take 32,key64.drop 32)

def decryptType2Raw (enc : EncString) (key64 : Bytes) : Except VaultCryptoError Bytes := do
  let (encKey,macKey) ← stretchToEncMac key64
  let expected := Sha256.hmac macKey (enc.iv ++ enc.ct)
  if enc.mac = some expected then aesCbcDecrypt evp encKey enc.iv enc.ct
  else throw (.macVerificationFailed "encString MAC mismatch")

def decryptEncstringBytes (raw : String) (key64 : Bytes) : Except VaultCryptoError Bytes := do
  let enc ← EncString.parse raw
  if enc.type ≠ 2 then
    throw (.unsupportedCipherType ("type " ++ toString enc.type ++ " is not symmetric encString"))
  else decryptType2Raw evp enc key64

def decryptEncstring (raw : String) (key64 : Bytes) : Except DecryptError String :=
  match decryptEncstringBytes evp raw key64 with
  | .error e => .error (.vault e)
  | .ok plain =>
    match Text.decodeUtf8 plain with
    | some text => .ok text
    | none => .error .unicodeDecode

/-- `os.urandom(16)`. -/
abbrev Iv := {iv : Bytes // iv.length = 16}

def encstringText (iv ct mac : Bytes) : String :=
  "2." ++ String.ofList (PaddedBase64.encode iv) ++ "|" ++ String.ofList (PaddedBase64.encode ct) ++
    "|" ++ String.ofList (PaddedBase64.encode mac)

/-- `encrypt_encstring`, with the initialization vector that it drew. -/
def encryptEncstring (iv : Iv) (plaintext : String) (key64 : Bytes) :
    Except VaultCryptoError String := do
  let (encKey,macKey) ← stretchToEncMac key64
  let ct ← aesCbcEncrypt evp encKey iv.1 (Text.encodeUtf8 plaintext)
  let mac := Sha256.hmac macKey (iv.1 ++ ct)
  return encstringText iv.1 ct mac

end Cbc

section RoundTrip

theorem toList_encstringText (iv ct mac : Bytes) : (encstringText iv ct mac).toList =
    ['2'] ++ '.'::(PaddedBase64.encode iv ++ '|'::(PaddedBase64.encode ct ++
      '|'::PaddedBase64.encode mac)) := by
  simp [encstringText,String.toList_append]

theorem partition_encode (bytes : Bytes) (rest : List Char) :
    partition '|' (PaddedBase64.encode bytes ++ '|'::rest) = (PaddedBase64.encode bytes,rest) :=
  partition_append (fun h => (PaddedBase64.encode_plain bytes _ h).1 rfl) rest

/-- A text that is put together of three parts is taken apart into them. -/
theorem parse_encstringText {iv ct mac : Bytes} (hiv : iv ≠ []) (hct : ct ≠ []) (hmac : mac ≠ []) :
    EncString.parse (encstringText iv ct mac) = .ok ⟨2,iv,ct,some mac⟩ := by
  have hlist := toList_encstringText iv ct mac
  have hhead : partition '.' (encstringText iv ct mac).toList = (['2'],PaddedBase64.encode iv ++
      '|'::(PaddedBase64.encode ct ++ '|'::PaddedBase64.encode mac)) := by
    rw [hlist,partition_append (by decide)]
  have hformed : ¬(encstringText iv ct mac = "" ∨ '.' ∉ (encstringText iv ct mac).toList) := by
    rw [← String.toList_eq_nil_iff,hlist]
    simp
  have hbody : EncString.parseBody (PaddedBase64.encode iv ++
      '|'::(PaddedBase64.encode ct ++ '|'::PaddedBase64.encode mac)) = .ok ⟨2,iv,ct,some mac⟩ := by
    simp only [EncString.parseBody,partition_encode,PaddedBase64.decode_encode,
      PaddedBase64.encode_ne_nil hiv,PaddedBase64.encode_ne_nil hct,
      PaddedBase64.encode_ne_nil hmac,or_self,if_false]
  rw [EncString.parse,if_neg hformed,hhead]
  exact hbody

variable {evp : Evp} {key64 : Bytes} {iv : Iv}

/-- The cipher fills at least one block with these bytes, and gives them back. -/
def Evp.TakesBack (evp : Evp) (key iv plaintext : Bytes) : Prop :=
  ∃ ct, evp.encrypts .aes256 key iv plaintext = .ok ct ∧ ct ≠ [] ∧
    evp.decrypts .aes256 key iv ct = .ok plaintext

theorem cbcCipher_aes256 {key iv : Bytes} (hkey : key.length = 32) (hiv : iv.length = 16) :
    cbcCipher key iv = .ok .aes256 := by
  simp [cbcCipher,hkey,hiv]

theorem stretchToEncMac_eq (h : key64.length = 64) :
    stretchToEncMac key64 = .ok (key64.take 32,key64.drop 32) := if_neg (not_not.mpr h)

theorem decryptEncstringBytes_verified {raw : String} {plain : Bytes} {enc : EncString}
    (hparse : EncString.parse raw = .ok enc) (htype : enc.type = 2)
    (hkey : key64.length = 64)
    (hmac : enc.mac = some (Sha256.hmac (key64.drop 32) (enc.iv ++ enc.ct)))
    (hplain : aesCbcDecrypt evp (key64.take 32) enc.iv enc.ct = .ok plain) :
    decryptEncstringBytes evp raw key64 = .ok plain := by
  rw [decryptEncstringBytes,hparse]
  show (if enc.type ≠ 2 then _ else decryptType2Raw evp enc key64) = _
  rw [if_neg (not_not.mpr htype),decryptType2Raw,stretchToEncMac_eq hkey,← hplain]
  exact if_pos hmac

theorem length_encKey (h : key64.length = 64) : (key64.take 32).length = 32 := by
  rw [List.length_take,h]
  rfl

theorem encryptEncstring_eq {plaintext : String} {ct : Bytes} (h : key64.length = 64)
    (hct : evp.encrypts .aes256 (key64.take 32) iv.1 (Text.encodeUtf8 plaintext) = .ok ct) :
    encryptEncstring evp iv plaintext key64 =
      .ok (encstringText iv.1 ct (Sha256.hmac (key64.drop 32) (iv.1 ++ ct))) := by
  have hcipher := cbcCipher_aes256 (length_encKey h) iv.2
  have hencrypted : aesCbcEncrypt evp (key64.take 32) iv.1 (Text.encodeUtf8 plaintext) =
      .ok ct := by
    rw [aesCbcEncrypt,hcipher]
    show (evp.encrypts .aes256 _ _ _).mapError _ = _
    rw [hct]
    rfl
  rw [encryptEncstring,stretchToEncMac_eq h]
  show (aesCbcEncrypt evp (key64.take 32) iv.1 _ >>= _) = _
  rw [hencrypted]
  rfl

theorem decryptEncstringBytes_encstringText {plain ct : Bytes} (h : key64.length = 64)
    (hne : ct ≠ []) (hct : evp.decrypts .aes256 (key64.take 32) iv.1 ct = .ok plain) :
    decryptEncstringBytes evp
      (encstringText iv.1 ct (Sha256.hmac (key64.drop 32) (iv.1 ++ ct))) key64 = .ok plain := by
  have hiv : iv.1 ≠ [] := by
    intro hnil
    have hlength := iv.2
    rw [hnil] at hlength
    cases hlength
  have hmac : Sha256.hmac (key64.drop 32) (iv.1 ++ ct) ≠ [] := by
    rw [← List.length_pos_iff_ne_nil,Sha256.length_hmac]
    decide
  refine decryptEncstringBytes_verified (parse_encstringText hiv hne hmac) rfl h rfl ?_
  rw [aesCbcDecrypt,cbcCipher_aes256 (length_encKey h) iv.2]
  show (evp.decrypts .aes256 _ _ _).mapError _ = _
  rw [hct]
  rfl

end RoundTrip

/-- What is decrypted is a text of type 2 whose MAC is the one of its vector and ciphertext. -/
theorem decryptEncstringBytes_eq_ok {evp : Evp} {raw : String} {key64 plain : Bytes}
    (h : decryptEncstringBytes evp raw key64 = .ok plain) : ∃ enc, EncString.parse raw = .ok enc ∧
      enc.type = 2 ∧ key64.length = 64 ∧
      enc.mac = some (Sha256.hmac (key64.drop 32) (enc.iv ++ enc.ct)) ∧
      aesCbcDecrypt evp (key64.take 32) enc.iv enc.ct = .ok plain := by
  rw [decryptEncstringBytes] at h
  cases hparse : EncString.parse raw with
  | error e =>
    rw [hparse] at h
    cases h
  | ok enc =>
    rw [hparse] at h
    change (if enc.type ≠ 2 then _ else decryptType2Raw evp enc key64) = _ at h
    split_ifs at h with htype
    by_cases hkey : key64.length = 64
    · rw [decryptType2Raw,stretchToEncMac_eq hkey] at h
      change (if enc.mac = _ then aesCbcDecrypt evp _ enc.iv enc.ct else _) = _ at h
      split_ifs at h with hmac
      exact ⟨enc,rfl,not_not.mp htype,hkey,hmac,h⟩
    · rw [decryptType2Raw,stretchToEncMac,if_pos hkey] at h
      cases h

/-- An encrypted text is decrypted to itself, and nothing is decrypted before its MAC has been
found to be that of its vector and ciphertext. -/
theorem encrypted_decrypts (evp : Evp) :
    (∀ (p : String) (key64 : Bytes) (iv : Iv), key64.length = 64 →
      evp.TakesBack (key64.take 32) iv.1 (Text.encodeUtf8 p) →
      ∃ raw, encryptEncstring evp iv p key64 = .ok raw ∧ decryptEncstring evp raw key64 = .ok p) ∧
    ∀ (raw : String) (key64 plain : Bytes), decryptEncstringBytes evp raw key64 = .ok plain →
      ∃ enc, EncString.parse raw = .ok enc ∧
        enc.mac = some (Sha256.hmac (key64.drop 32) (enc.iv ++ enc.ct)) ∧
        aesCbcDecrypt evp (key64.take 32) enc.iv enc.ct = .ok plain := by
  constructor
  · intro p key64 iv hkey haes
    obtain ⟨ct,hencrypts,hne,hdecrypts⟩ := haes
    refine ⟨_,encryptEncstring_eq hkey hencrypts,?_⟩
    rw [decryptEncstring,decryptEncstringBytes_encstringText hkey hne hdecrypts]
    simp only [Text.decodeUtf8_encodeUtf8]
  · intro raw key64 plain h
    obtain ⟨enc,hparse,-,-,hmac,hplain⟩ := decryptEncstringBytes_eq_ok h
    exact ⟨enc,hparse,hmac,hplain⟩

/-- The key whose bytes are 0, 1, 2 and so on. -/
def countingKey : Bytes := (List.range 64).map UInt8.ofNat

def countingIv : Iv := ⟨(List.range 16).map UInt8.ofNat,rfl⟩

/-- AES-256-CBC where only what it makes of one text, under that key and vector, is written
down. -/
def evpOf (plaintext block : Bytes) : Evp :=
  ⟨fun cipher key iv text =>
    if cipher = .aes256 ∧ key = countingKey.take 32 ∧ iv = countingIv.1 ∧ text = plaintext then
      .ok block
    else .error .ctxNew,
  fun cipher key iv text =>
    if cipher = .aes256 ∧ key = countingKey.take 32 ∧ iv = countingIv.1 ∧ text = block then
      .ok plaintext
    else .error .ctxNew⟩

theorem decrypts_evpOf (plaintext block : Bytes) :
    (evpOf plaintext block).decrypts .aes256 (countingKey.take 32) countingIv.1 block =
      .ok plaintext := if_pos ⟨rfl,rfl,rfl,rfl⟩

theorem takesBack_evpOf (plaintext : Bytes) {block : Bytes} (h : block ≠ []) :
    (evpOf plaintext block).TakesBack (countingKey.take 32) countingIv.1 plaintext :=
  ⟨block,if_pos ⟨rfl,rfl,rfl,rfl⟩,h,decrypts_evpOf plaintext block⟩

/-- The padding of an empty text, encrypted. -/
def emptyBlock : Bytes := [233,195,239,138,178,52,83,230,240,116,156,214,54,231,168,142]

theorem encrypted_decrypts_empty : ∃ raw,
    encryptEncstring (evpOf [] emptyBlock) countingIv "" countingKey = .ok raw ∧
      decryptEncstring (evpOf [] emptyBlock) raw countingKey = .ok "" :=
  (encrypted_decrypts (evpOf [] emptyBlock)).1 "" countingKey countingIv rfl
    (takesBack_evpOf [] (by decide))

end VaultCrypto
end CloudBrowser
