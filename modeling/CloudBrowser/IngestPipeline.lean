import CloudBrowser.FileNames
import CloudBrowser.Sha256
import CloudBrowser.Stateful

/-! The ingest API of CloudFiles: a bounded body is staged in a temporary file, scanned, and
handed over to the downloads port. -/
namespace CloudBrowser
namespace CloudFiles

open Stateful

inductive IngestError
  | invalidName
  | tooLarge
  | cloudFiles
  | other
  deriving DecidableEq, Repr

/-- A body stream: a read gives at most as many bytes as are asked for, none at its end, or it
raises. -/
structure BodyStream (σ : Type) where
  read : ℕ → σ → Except Unit Bytes × σ
  read_le : ∀ n s bytes, (read n s).1 = .ok bytes → bytes.length ≤ n

/-- What one raw write to the temporary file does. -/
inductive Written
  | all
  | part (k : ℕ)
  | failed
  deriving DecidableEq, Repr

/-- What a run of the pipeline meets on its own machine. -/
structure Staging where
  prepare : Except IngestError Unit
  write : ℕ → Written
  sync : Except IngestError Unit
  scan : Except IngestError String
  reopen : Except IngestError Unit
  unlink : Except IngestError Unit

/-- A staged stream on its way to the downloads port. -/
structure Handover where
  clean : Bool
  binding : PrincipalBinding
  sourceName : String
  source : Bytes
  size : ℕ
  sha256 : String
  deriving DecidableEq

/-- The attributes of a port's receipt, where it has them. -/
structure StoredReceipt where
  name : Option String := none
  sha256 : Option (Option String) := none
  deriving DecidableEq

inductive IngestStatus
  | published | quarantined
  deriving DecidableEq, Repr

structure IngestReceipt where
  name : String
  size : ℕ
  status : IngestStatus
  requestId : String
  sha256 : Option String := none
  name_some : name ≠ ""
  requestId_some : requestId ≠ ""

instance : DecidableEq IngestReceipt := fun r r' =>
  decidable_of_iff (r.name = r'.name ∧ r.size = r'.size ∧ r.status = r'.status ∧
      r.requestId = r'.requestId ∧ r.sha256 = r'.sha256) <| by
    cases r
    cases r'
    simp

def IngestReceipt.build (name : String) (size : ℕ) (status : IngestStatus) (requestId : String)
    (sha256 : Option String) : Except IngestError IngestReceipt :=
  if hname : name ≠ "" then
    if hid : requestId ≠ "" then .ok ⟨name,size,status,requestId,sha256,hname,hid⟩
    else .error .other
  else .error .other

/-- `hexdigest`. -/
def hexDigest (message : Bytes) : String :=
  String.ofList ((Sha256.digest message).flatMap fun b =>
    [Json.hexDigit (b.toNat/16),Json.hexDigit (b.toNat%16)])

theorem length_hexDigest (message : Bytes) : (hexDigest message).length = 64 := by
  simp [hexDigest,List.length_flatMap,Sha256.length_digest]

/-- The pipeline: its limits, and its downloads port. -/
structure IngestPipeline where
  store : Handover → Except IngestError StoredReceipt
  maxBytes : ℕ := 1024*1024*1024
  chunkBytes : ℕ := 64*1024
  maxBytes_pos : 0 < maxBytes
  chunkBytes_pos : 0 < chunkBytes

theorem maxBytes_default : 0 < 1024*1024*1024 := by decide

theorem chunkBytes_default : 0 < 64*1024 := by decide

/-- The body stream, what was received of it, the temporary file, and what the port was given. -/
structure World (σ : Type) where
  stream : σ
  received : Bytes := []
  temp : Bytes := []
  handed : List Handover := []

abbrev Operation (σ : Type) := Op IngestError (World σ)

/-- `_BoundedReader`; its total is the length of what was received. -/
structure BoundedReader (σ : Type) where
  stream : BodyStream σ
  maxBytes : ℕ
  declared : ℕ

section Pipeline

variable {σ : Type}

def BoundedReader.read (r : BoundedReader σ) (n : ℕ) : Operation σ Bytes := do
  let w ← get
  if r.declared ≤ w.received.length then return []
  else if min n (r.declared-w.received.length) = 0 then return []
  else
    match r.stream.read (min n (r.declared-w.received.length)) w.stream with
    | (.error _,s) => do
      set { w with stream := s }
      throw .other
    | (.ok chunk,s) => do
      set { w with stream := s, received := w.received ++ chunk }
      if r.maxBytes < (w.received ++ chunk).length then throw .tooLarge
      else return chunk

variable (p : IngestPipeline) (t : Staging) (r : BoundedReader σ)

/-- `target.write(chunk)`, the `n`-th one, on an unbuffered file. -/
def writeTemp (n : ℕ) (chunk : Bytes) : Operation σ Unit :=
  match t.write n with
  | .all => modify fun w => { w with temp := w.temp ++ chunk }
  | .part k => modify fun w => { w with temp := w.temp ++ chunk.take k }
  | .failed => throw .other

/-- The loop that copies the source, with the size and the bytes hashed so far. The fuel bounds
the reads; a reader gives at most one empty chunk and its declared number of others. -/
def copyChunks : ℕ → ℕ → ℕ → Bytes → Operation σ (ℕ × Bytes)
  | 0, _, _, _ => throw .other
  | fuel+1, n, size, hashed => do
    let chunk ← r.read p.chunkBytes
    if chunk = [] then return (size,hashed)
    else if p.maxBytes < size+chunk.length then throw .tooLarge
    else do
      writeTemp t n chunk
      copyChunks fuel (n+1) (size+chunk.length) (hashed ++ chunk)

/-- `downloads.publish`, or `downloads.quarantine`. -/
def handOver (h : Handover) : Operation σ StoredReceipt := do
  modify fun w => { w with handed := w.handed ++ [h] }
  check (p.store h)

/-- The part of `ingest` under its `try`. -/
def stageAndStore (binding : PrincipalBinding) (safeName : String) : Operation σ IngestReceipt := do
  check t.prepare
  let (size,hashed) ← copyChunks p t r (r.declared+1) 0 0 []
  check t.sync
  let scanResult ← check t.scan
  check t.reopen
  let w ← get
  let receipt ← handOver p ⟨scanResult = "clean",binding,safeName,w.temp,size,hexDigest hashed⟩
  check (IngestReceipt.build (receipt.name.getD safeName) size
    (if scanResult = "clean" then .published else .quarantined) binding.requestId
    (receipt.sha256.getD (some (hexDigest hashed))))

def ingest (binding : PrincipalBinding) (sourceName : String) : Operation σ IngestReceipt :=
  match validateName sourceName with
  | none => throw .invalidName
  | some safeName => ensuring (stageAndStore p t r binding safeName) (check t.unlink)

end Pipeline

/-! ### The HTTP handler -/

structure PostRequest where
  path : String
  headers : List (String × String)

/-- `self.headers.get(name)`, for a name in lower case: the first one. -/
def PostRequest.header (request : PostRequest) (name : String) : Option String :=
  (request.headers.find? fun h => Text.lower h.1 = name.toList).map Prod.snd

/-- The same for the handler's dictionary, where the last one is kept. -/
def PostRequest.entry (request : PostRequest) (name : String) : Option String :=
  (request.headers.reverse.find? fun h => Text.lower h.1 = name.toList).map Prod.snd

/-- The characters that `int` strips, as far as a header can hold them. -/
def isSpace (c : Char) : Bool :=
  (0x09 ≤ c.val && c.val ≤ 0x0D) || (0x1C ≤ c.val && c.val ≤ 0x20) || c.val == 0x85 || c.val == 0xA0

/-- Decimal digits, with single underscores between them. -/
def digitsOf (cs : List Char) : Option ℕ :=
  let parts := cs.splitOn '_'
  if parts.all (fun part => !part.isEmpty && part.all Char.isDigit) then
    if Json.maxStrDigits < parts.flatten.length then none
    else some (Nat.ofDigitChars 10 parts.flatten 0)
  else none

/-- `int(text)`, where it does not raise. -/
def intOfText (text : String) : Option ℤ :=
  match ((text.toList.dropWhile isSpace).reverse.dropWhile isSpace).reverse with
  | '-'::digits => (digitsOf digits).map fun n => -(n : ℤ)
  | '+'::digits => (digitsOf digits).map fun n => (n : ℤ)
  | digits => (digitsOf digits).map fun n => (n : ℤ)

/-- `_default_binding_resolver`. -/
def defaultBindingResolver (request : PostRequest) : Option PrincipalBinding :=
  let principalId := (request.entry "x-cb-principal").getD ""
  if principalId = "" then none
  else PrincipalBinding.build principalId ((request.entry "x-cb-profile").getD "profile-unassigned")
    ((request.entry "x-cb-browser").getD "browser-unassigned")
    ((request.entry "x-cb-generation").getD "generation-0")
    ((request.entry "x-cb-request-id").getD "req-ingest")

inductive Response
  | failed (code : ℕ) (errorCode : String)
  | accepted (receipt : IngestReceipt)
  deriving DecidableEq

/-- What `create_ingest_server` is given. -/
structure IngestServer where
  pipeline : IngestPipeline
  trustedSecret : Bytes
  maxBytes : ℕ := 1024*1024*1024
  bindingResolver : PostRequest → Option PrincipalBinding := defaultBindingResolver
  secret_length : 16 ≤ trustedSecret.length
  maxBytes_pos : 0 < maxBytes

def refusal : IngestError → Response
  | .invalidName => .failed 400 "invalid_name"
  | .tooLarge => .failed 413 "too_large"
  | .cloudFiles => .failed 503 "dependency_unavailable"
  | .other => .failed 503 "dependency_unavailable"

def checkTrustedSecret (request : PostRequest) (expected : Bytes) : Bool :=
  match request.entry "x-cb-trusted-secret" with
  | none => false
  | some raw => raw ≠ "" && Text.encodeUtf8 raw == expected

/-- What the handler makes of a request before it reads the body: the answer, or the binding and
the declared length. -/
def IngestServer.accept (s : IngestServer) (request : PostRequest) : Except Response (PrincipalBinding × ℕ) :=
  if request.path.toList.takeWhile (· ≠ '?') ≠ "/ingest/complete".toList then
    .error (.failed 404 "not_found")
  else if !checkTrustedSecret request s.trustedSecret then .error (.failed 401 "unauthorized")
  else match s.bindingResolver request with
    | none => .error (.failed 400 "invalid_binding")
    | some binding =>
      match intOfText ((request.header "content-length").getD "") with
      | none => .error (.failed 400 "invalid_length")
      | some declared =>
        if declared < 0 then .error (.failed 400 "invalid_length")
        else if s.maxBytes < declared then .error (.failed 413 "too_large")
        else .ok (binding,declared.toNat)

/-- `do_POST`. -/
def IngestServer.doPost {σ : Type} (s : IngestServer) (t : Staging) (stream : BodyStream σ)
    (request : PostRequest) (start : σ) : Response × World σ :=
  match s.accept request with
  | .error response => (response,{ stream := start })
  | .ok (binding,declared) =>
    match exec (ingest s.pipeline t ⟨stream,s.maxBytes,declared⟩ binding
      ((request.entry "x-cb-filename").getD "")) { stream := start } with
    | (.ok receipt,w) => (.accepted receipt,w)
    | (.error e,w) => (refusal e,w)

end CloudFiles
end CloudBrowser
