import CloudBrowser.DownloadSight
import CloudBrowser.Latin1
import CloudBrowser.Quoting

/-! The public gateway for files, and the downloads service that it asks for them. -/
namespace CloudBrowser
namespace FilesGateway

open CloudFiles
open Storage

/-! ### Paths -/

/-- `unquote` where any bytes decode to something. -/
def unquoteWith (decode : Bytes → String) (s : String) : String :=
  if '%' ∉ s.toList then s
  else String.join ((s.toList.splitBy fun a b => isAscii a == isAscii b).map fun run =>
    if run.all isAscii then decode (unquoteToBytes run) else String.ofList run)

/-- The `PATH_INFO` that the server of the gateway makes of the path of a request. -/
def pathInfo : String → String := unquoteWith Text.decodeLatin1

def fileRoute : String := "/file/"

/-- What comes after the route of the files. -/
def fileName (path : String) : Option String :=
  if fileRoute.toList <+: path.toList then some (String.ofList (path.toList.drop fileRoute.length))
  else none

/-- The link to a file in the listing. The client of the service asks for the same path. -/
def fileLink (name : String) : String := fileRoute ++ quote name

/-! ### The downloads service -/

/-- The headers of a request within the network. -/
structure TrustedHeaders where
  trustedSecret : String
  principal : String
  profile : String
  browser : String
  generation : String
  requestId : String
  deriving DecidableEq

def isIdentityToken (s : String) : Bool := matchesName ['.','_',':','-'] s

def isRequestId (s : String) : Bool := isIdentityToken s && s.length ≤ 128

structure PrincipalIdentity where
  requestId : String
  principalId : String
  profileId : String
  browserId : String
  generation : String
  request : isRequestId requestId = true
  principal : isPrincipal principalId = true
  tokens : [profileId,browserId,generation].all isIdentityToken = true

/-- The identity of a request, unless the constructor raises `ValueError`. -/
def defaultIdentityResolver (h : TrustedHeaders) : Option PrincipalIdentity :=
  if hrequest : isRequestId h.requestId = true then
    if hprincipal : isPrincipal h.principal = true then
      if htokens : [h.profile,h.browser,h.generation].all isIdentityToken = true then
        some ⟨h.requestId,h.principal,h.profile,h.browser,h.generation,hrequest,hprincipal,htokens⟩
      else none
    else none
  else none

def checkTrustedSecret (provided : String) (expected : Bytes) : Bool :=
  provided ≠ "" && Text.encodeUtf8 provided = expected

/-- What the service answers to a request. -/
inductive Reply
  | health
  | listing (entries : List DownloadEntry)
  | file (payload : Bytes)
  | error (status : ℕ) (errorCode : String)
  /-- A header that cannot be written comes after the status of a success, and an error after it. -/
  | garbled
  deriving DecidableEq

/-- The service, with what `unquote` puts for bytes that are no UTF-8. -/
structure DownloadsService where
  store : DownloadStore
  trustedSecret : Bytes
  replaced : Bytes → String

namespace DownloadsService

variable (service : DownloadsService)

def listFiles (identity : PrincipalIdentity) (disk : Disk) :
    Except StoreError (List DownloadEntry) :=
  service.store.listEntries identity.principalId disk

-- The identifier of the request has passed its check with the identity.
def readFile (identity : PrincipalIdentity) (name : String) (disk : Disk) :
    Except StoreError (Option Bytes) :=
  if name = "" ∨ 1024 < name.length then .error (.valueError "name must be bounded non-empty text")
  else if '/' ∈ name.toList ∨ '\\' ∈ name.toList ∨ name = ".." then
    .error (.valueError "cross-owner paths are rejected")
  else match validateName name with
    | none => .error unsafeName
    | some safe => service.store.read identity.principalId safe disk

def extractName (path : String) : Option String :=
  (fileName path).map (unquoteWith fun b => (Text.decodeUtf8 b).getD (service.replaced b))

/-- `Content-Disposition` carries the name, in Latin-1. -/
def bytes (payload : Bytes) (filename : String) : Reply :=
  if filename.toList.all Text.isLatin1 then .file payload else .garbled

def unavailable : Reply := .error 503 "dependency_unavailable"

/-- The route of the files. -/
def getFile (identity : PrincipalIdentity) (path : String) (disk : Disk) : Reply :=
  match service.extractName path with
  | none => .error 404 "not_found"
  | some name =>
    match validateName name with
    | none => .error 400 "invalid_name"
    | some safe =>
      match service.readFile identity safe disk with
      | .ok (some payload) => bytes payload safe
      | .ok none => .error 404 "not_found"
      | .error _ => unavailable

def doGet (h : TrustedHeaders) (path : String) (disk : Disk) : Reply :=
  if path = "/health" then .health
  else if checkTrustedSecret h.trustedSecret service.trustedSecret = false then
    .error 401 "unauthorized"
  else match defaultIdentityResolver h with
    | none => unavailable
    | some identity =>
      if path = "/api/files" then
        match service.listFiles identity disk with
        | .ok entries => .listing entries
        | .error _ => unavailable
      else service.getFile identity path disk

end DownloadsService

/-! ### The client of the service -/

inductive ClientError
  | invalidName
  | valueError
  | client (message : String)
  | http (status : ℕ) (errorCode : String)
  deriving DecidableEq

/-- The client, with what it makes of a garbled reply. -/
structure DownloadsClient where
  sharedSecret : String
  garbled : Except ClientError Bytes
  maxResponseBytes : ℕ := 8*1024*1024

namespace DownloadsClient

variable (client : DownloadsClient) (service : DownloadsService) (binding : PrincipalBinding)
  (requestId : String) (disk : Disk)

def headers : TrustedHeaders :=
  ⟨client.sharedSecret,binding.principalId,binding.profileId,binding.browserId,binding.generation,
    requestId⟩

/-- What the client makes of a reply, whose body it reads up to a limit. -/
def received : Reply → Except ClientError Reply
  | .error status errorCode => .error (.http status errorCode)
  | .garbled => client.garbled.map .file
  | .file payload =>
    if client.maxResponseBytes < payload.length then
      .error (.client "internal response exceeds size limit")
    else .ok (.file payload)
  | reply => .ok reply

def request (path : String) : Except ClientError Reply :=
  if path.toList.head? ≠ some '/' ∨ '?' ∈ path.toList ∨ '#' ∈ path.toList then .error .valueError
  else if requestId = "" then .error .valueError
  else client.received (service.doGet (client.headers binding requestId) path disk)

def listFiles : Except ClientError (List DownloadEntry) :=
  match client.request service binding requestId disk "/api/files" with
  | .ok (.listing entries) => .ok entries
  | .ok _ => .error (.client "invalid downloads listing")
  | .error e => .error e

-- The service answers with nothing but a file where one is asked for.
def readFile (name : String) : Except ClientError (Option Bytes) :=
  match validateName name with
  | none => .error .invalidName
  | some safe =>
    match client.request service binding requestId disk (fileLink safe) with
    | .ok (.file payload) => .ok (some payload)
    | .ok _ => .error (.client "invalid downloads response")
    | .error (.http status errorCode) =>
      if status = 404 then .ok none else .error (.http status errorCode)
    | .error e => .error e

end DownloadsClient

/-! ### The gateway -/

structure PublicEntry where
  name : String
  size : ℕ
  mtime : ℤ
  deriving DecidableEq

/-- What is in quarantine is not shown. -/
def buildListingResponse (entries : List DownloadEntry) : List PublicEntry :=
  (entries.filter fun e => !e.quarantined).map fun e => ⟨e.name,e.size,e.mtime⟩

def isPrintable (c : Char) : Bool := 0x20 ≤ c.val && c.val ≤ 0x7E

/-- The value of the header, unless the name is one that it does not take. -/
def safeContentDisposition (filename : String) : Option String :=
  match validateName filename with
  | none => none
  | some name =>
    if name.toList.all isPrintable then
      some ("attachment; filename=\"" ++ String.ofList (name.toList.filter (· ≠ '"')) ++ "\"")
    else none

inductive Answer
  | health (instanceId : String)
  | readiness (ready : Bool)
  | listing (entries : List PublicEntry)
  | file (disposition : String) (content : Bytes)
  | failed (errorCode requestId : String)
  deriving DecidableEq

def statusFor (code : String) : ℕ :=
  if code = "unauthorized" then 401
  else if code = "forbidden" then 403
  else if code = "forbidden_owner_mismatch" then 403
  else if code = "invalid_name" then 400
  else if code = "not_found" then 404
  else if code = "too_large" then 413
  else if code = "owner_binding_unavailable" then 503
  else if code = "dependency_unavailable" then 503
  else 500

def Answer.status : Answer → ℕ
  | .readiness ready => if ready then 200 else 503
  | .failed errorCode _ => statusFor errorCode
  | _ => 200

def publicCodeFor : ClientError → String
  | .invalidName => "invalid_name"
  | _ => "internal_error"

/-- The gateway, with the service behind it and whether that responds. -/
structure Gateway where
  client : DownloadsClient
  service : DownloadsService
  instanceId : String
  ready : Bool

/-- The identifier of a request that brings none. -/
def noRequest : String := "req-0"

def requestOf (binding : PrincipalBinding) : String :=
  if binding.requestId = "" then noRequest else binding.requestId

namespace Gateway

variable (g : Gateway) (binding : PrincipalBinding) (disk : Disk)

def list : Answer :=
  match g.client.listFiles g.service binding (requestOf binding) disk with
  | .ok entries => .listing (buildListingResponse entries)
  | .error e => .failed (publicCodeFor e) noRequest

def file (name : String) : Answer :=
  match validateName name with
  | none => .failed "invalid_name" (requestOf binding)
  | some valid =>
    match g.client.readFile g.service binding (requestOf binding) disk valid with
    | .error e => .failed (publicCodeFor e) noRequest
    | .ok none => .failed "not_found" (requestOf binding)
    | .ok (some content) =>
      match safeContentDisposition valid with
      | none => .failed "invalid_name" noRequest
      | some disposition => .file disposition content

/-- The answer to a GET of a path, for the principal whose session it is. -/
def get (path : String) : Answer :=
  let path := pathInfo path
  if path = "/health" then
    .health (if g.instanceId = "" then "instance" else String.ofList (g.instanceId.toList.take 8))
  else if path = "/ready" then .readiness g.ready
  else if path = "/" ∨ path = "/api/files" then g.list binding disk
  else match fileName path with
    | some name => g.file binding disk name
    | none => .failed "not_found" noRequest

end Gateway

end FilesGateway
end CloudBrowser
